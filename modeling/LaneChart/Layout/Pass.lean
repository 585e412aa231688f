import LaneChart.Layout.Request
import LaneChart.Neighborhood.Style

/-!
# One pass of the incremental layout

A pass lays out a neighbourhood without moving what has a place already. Sectors that the cache
knows are pinned where the cache has them; only the others are put to a provider, and their
positions enter the cache when the answer keeps the contract. When it does not, the pass is
skipped and the cache stays as it was.

The provider is whatever answers the request of the pass, `request?`; a pass in which every sector
has its place makes no request.
-/

namespace LaneChart.Layout

/-- How a pass went. -/
inductive Status where
  /-- Every displayed sector has a position; so many were placed, in so many steps. -/
  | complete (placed : Nat) (iterations : UInt32)
  /-- The provider failed, and sectors without a place are still without one. -/
  | skipped (failure : Failure)
deriving DecidableEq

/-- The result of a pass. -/
structure Outcome where
  /-- The sector that the styles refer to. -/
  focus : SectorId
  /-- The positions of the displayed sectors; pinned are those that the cache knew. -/
  positions : IdMap Placed
  /-- Displayed now and not before, in the order of the neighbourhood. -/
  added : List SectorId
  /-- Displayed before and not now, ascending. -/
  removed : List SectorId
  /-- The sectors that the cache did not know, in the order of the neighbourhood. -/
  placed : List SectorId
  /-- The style of every displayed sector, in the order of the neighbourhood. -/
  styles : List (SectorId × Style)
  status : Status

namespace Outcome

/-- Whether every displayed sector has a position. -/
def isComplete (o : Outcome) : Bool :=
  match o.status with
  | .complete _ _ => true
  | .skipped _ => false

/-- The failure of a skipped pass. -/
def failure? (o : Outcome) : Option Failure :=
  match o.status with
  | .complete _ _ => none
  | .skipped failure => some failure

/-- The style of a displayed sector. -/
def styleOf? (o : Outcome) (id : SectorId) : Option Style :=
  (o.styles.find? (·.1 == id)).map (·.2)

end Outcome

namespace Pass

/-- What a cache knows of some sectors. -/
def known (cache : Placement) (ids : List SectorId) : Placement :=
  IdMap.ofList (ids.filterMap fun id => (cache.get? id).map (id, ·))

/-- The displayed sectors that a cache does not know, in the order of the neighbourhood. -/
def unplaced (cache : Placement) (n : Neighborhood) : List SectorId :=
  n.ids.filter fun id => !(known cache n.ids).contains id

/-- The request of a pass, if it needs one. -/
def request? (cache : Placement) (n : Neighborhood) : Option Request :=
  if (unplaced cache n).isEmpty then none
  else some (Request.ofPinned n.ids n.lanes (known cache n.ids))

/-- The positions that an answer gives to the sectors that were to be placed, and the steps it
took; or why the answer cannot be used. -/
def accept (r : Request) (a : Answer) : Except Failure (Placement × UInt32) := do
  let solution ← a
  solution.verify r
  return (IdMap.ofList
    (r.freeIds.filterMap fun id => (solution.positions.get? id).map (id, ·)), solution.iterations)

/-- The sectors that were not displayed before. -/
def added (previous : IdSet) (n : Neighborhood) : List SectorId :=
  n.ids.filter (!previous.contains ·)

/-- The sectors that are not displayed any more. -/
def removed (previous : IdSet) (n : Neighborhood) : List SectorId :=
  previous.keys.filter (!n.idSet.contains ·)

/-- The styles of a neighbourhood. -/
def styles (n : Neighborhood) : List (SectorId × Style) :=
  n.sectors.map fun s => (s.id, Style.ofShown n.center s)

/-- What the provider step of a pass comes to: the new positions and how it went. -/
def place (cache : Placement) (n : Neighborhood) (answer : Request → Answer) :
    Placement × Status :=
  match request? cache n with
  | none => (IdMap.empty, .complete 0 0)
  | some r =>
    match accept r (answer r) with
    | .ok (fresh, iterations) =>
      (fresh, .complete (unplaced cache n).length iterations)
    | .error failure => (IdMap.empty, .skipped failure)

/-- Lay out a neighbourhood, given the cache, what was displayed before, and a provider. Returns
the outcome and the cache after the pass. -/
def run (cache : Placement) (n : Neighborhood) (previous : IdSet) (answer : Request → Answer) :
    Outcome × Placement :=
  let (fresh, status) := place cache n answer
  ({ focus := n.center
     positions := ((known cache n.ids).mapValues fun _ p => ⟨p, true⟩).extend
       (fresh.mapValues fun _ p => ⟨p, false⟩)
     added := added previous n
     removed := removed previous n
     placed := unplaced cache n
     styles := styles n
     status },
   cache.extend fresh)

end Pass

end LaneChart.Layout
