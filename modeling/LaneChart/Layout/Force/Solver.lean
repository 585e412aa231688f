import LaneChart.Layout.Force.Seed
import LaneChart.Layout.Force.Simulation

/-!
# The force layout as a provider

A solver places the free sectors of a request by simulation: it stops at the first step in which
no body moves as far as the threshold of rest, or when its steps are used up. Pinned sectors come
back exactly where the request has them.

What a solver remembers of a pass is how it ended and how many steps it took; it starts the next
one from the request alone.
-/

namespace LaneChart.Layout.Force

/-- How the last pass ended. -/
inductive Phase where
  /-- There has been no pass. -/
  | idle
  /-- It came to rest. -/
  | converged
  /-- It used all its steps. -/
  | exhausted
deriving DecidableEq

/-- What a phase is called. -/
def Phase.label : Phase → String
  | idle => "Idle"
  | converged => "Converged"
  | exhausted => "Exhausted"

/-- A simulation that has ended: the bodies, the steps that were taken, and how it ended. -/
structure Run where
  bodies : List Body
  steps : Nat
  phase : Phase

/-- Take steps until rest, at most `n`, counting on from `steps`. -/
def settle (s : Settings) (springs : List (Nat × Nat)) : Nat → List Body → Nat → Run
  | 0, bodies, steps => ⟨bodies, steps, .exhausted⟩
  | n + 1, bodies, steps =>
    let moved := step s springs bodies
    let bodies := moved.map (·.body)
    if greatestTravel moved < s.restThreshold then ⟨bodies, steps + 1, .converged⟩
    else settle s springs n bodies (steps + 1)

/-- The bodies of a request at the start. -/
def startBodies (s : Settings) (r : Request) : List Body :=
  List.zipWith (fun n p => ⟨p, ⟨0, 0⟩, r.isPinned n.id⟩) r.nodes (seed s r)

/-- The lanes of a request that pull: those with two different ends. -/
def springs (r : Request) : List (Nat × Nat) := (numberedLanes r).filter fun l => l.1 != l.2

/-- Simulate a request. With no sector to place there is nothing to do. -/
def simulate (s : Settings) (r : Request) : Run :=
  let bodies := startBodies s r
  if bodies.all (·.pinned) then ⟨bodies, 0, .converged⟩
  else settle s (springs r) s.iterations.toNat bodies 0

/-- Where a sector ends up: where the request has it if it is pinned, or where the simulation
left it. -/
def finalPosition (r : Request) (n : Node) (b : Body) : Position :=
  match n.position with
  | some fixed => if r.isPinned n.id then fixed else b.position
  | none => b.position

/-- What a finished simulation answers. -/
def Run.answer (run : Run) (r : Request) : Answer :=
  match (r.nodes.zip run.bodies).find? (fun e => !e.2.position.isFinite) with
  | some e => .error (.notConverged s!"node {e.1.id} left the finite plane")
  | none =>
    .ok
      { positions := IdMap.ofList
          ((r.nodes.zip run.bodies).map fun e => (e.1.id, finalPosition r e.1 e.2))
        iterations := UInt32.ofNat run.steps }

/-- A force layout, with what it remembers of its last pass. -/
structure Solver where
  settings : Settings
  phase : Phase := .idle
  steps : Nat := 0

namespace Solver

/-- Whether constants and a request can be used, the constants first. -/
def admit? (s : Settings) (r : Request) : Except Failure Unit := do
  s.validate
  r.validate

/-- Answer a request. What is refused leaves the solver as it was. -/
def solve (solver : Solver) (r : Request) : Answer × Solver :=
  match admit? solver.settings r with
  | .error failure => (.error failure, solver)
  | .ok () =>
    let run := simulate solver.settings r
    (run.answer r, { solver with phase := run.phase, steps := run.steps })

end Solver

end LaneChart.Layout.Force
