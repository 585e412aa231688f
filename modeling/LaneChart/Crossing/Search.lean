import LaneChart.Crossing.Flip

/-!
# The search for fewer crossings

Fewest crossings are out of reach, so the search is greedy and bounded. A pass goes once through
the flips proposed at its start and keeps each one that strictly lowers the number of crossings.
Passes go on while there are crossings, the last pass kept something, and neither budget is used
up. Positions never get worse: every trial starts from the best ones so far.
-/

namespace LaneChart.Crossing

/-- The budgets of a search. -/
structure Budget where
  maxPasses : UInt32 := 3
  maxFlips : UInt32 := 10
deriving DecidableEq

/-- A search under way: the positions with their number of crossings, and the flips kept so far
in order. -/
structure Progress where
  positions : Placement
  crossings : Nat
  flips : List Flip

/-- Try one flip: keep it if it lowers the number of crossings, and if the budget allows. -/
def Progress.attempt (lanes : List Lane) (maxFlips : Nat) (s : Progress) (f : Flip) : Progress :=
  if maxFlips ≤ s.flips.length then s
  else
    let trial := s.positions.insert f.sector f.target
    let crossings := count trial lanes
    if crossings < s.crossings then ⟨trial, crossings, s.flips ++ [f]⟩ else s

/-- One pass over the flips proposed for the positions at its start. -/
def Progress.pass (lanes : List Lane) (maxFlips : Nat) (s : Progress) : Progress :=
  (proposals s.positions lanes).foldl (Progress.attempt lanes maxFlips) s

/-- Passes until there is nothing left to do, at most `n`, counting on from `passes`. -/
def passes (lanes : List Lane) (maxFlips : Nat) : Nat → Progress → Nat → Progress × Nat
  | 0, s, done => (s, done)
  | n + 1, s, done =>
    if maxFlips ≤ s.flips.length || s.crossings == 0 then (s, done)
    else
      let s' := s.pass lanes maxFlips
      if s'.flips.length = s.flips.length then (s', done + 1)
      else passes lanes maxFlips n s' (done + 1)

/-- What a search reports. -/
structure Report where
  before : Nat
  after : Nat
  flips : UInt32
  passes : UInt32
deriving DecidableEq

/-- What a search found: the positions, the flips that lead to them, and the report. -/
structure Refinement where
  positions : Placement
  flips : List Flip
  report : Report

/-- Search for fewer crossings within a budget. -/
def refine (p : Placement) (lanes : List Lane) (budget : Budget) : Refinement :=
  let before := count p lanes
  let (s, done) :=
    passes lanes budget.maxFlips.toNat budget.maxPasses.toNat ⟨p, before, []⟩ 0
  { positions := s.positions
    flips := s.flips
    report :=
      { before
        after := s.crossings
        flips := UInt32.ofNat s.flips.length
        passes := UInt32.ofNat done } }

/-- The final position of every sector that was flipped. -/
def Refinement.moved (r : Refinement) : Placement :=
  IdMap.ofList (r.flips.filterMap fun f => (r.positions.get? f.sector).map (f.sector, ·))

end LaneChart.Crossing
