import LaneChart.Lane
import LaneChart.Plane.Position

/-!
# What a layout provider is asked, and what it answers

A request names the sectors to place, the lanes between them, and the sectors that must stay where
they are. A provider answers with a solution or a failure. `Solution.verify` is the contract the
answer is held to: every requested sector placed, at finite coordinates, and every pinned one
where the request has it.
-/

namespace LaneChart.Layout

/-- Why a layout could not be used. -/
inductive Failure where
  | invalidGraph (reason : String)
  | missingPinnedPosition (id : SectorId)
  | pinnedMoved (id : SectorId)
  | missingPosition (id : SectorId)
  | notConverged (reason : String)
  | provider (reason : String)
deriving DecidableEq

/-- A failure in words. -/
def Failure.message : Failure → String
  | invalidGraph reason => "Invalid graph: " ++ reason
  | missingPinnedPosition id => s!"Pinned node {id} has no position"
  | pinnedMoved id => s!"Provider moved pinned node {id}"
  | missingPosition id => s!"Provider returned no position for node {id}"
  | notConverged reason => "Layout did not converge: " ++ reason
  | provider reason => "Layout provider failed: " ++ reason

/-- One sector of a request, with its position if it has one. -/
structure Node where
  id : SectorId
  position : Option Position

/-- What a provider is asked. -/
structure Request where
  nodes : List Node
  lanes : List Lane
  pinned : IdSet

namespace Request

/-- A request for some ids and lanes, with some positions to be kept. -/
def ofPinned (ids : List SectorId) (lanes : List Lane) (pinned : Placement) : Request :=
  { nodes := ids.map fun id => ⟨id, pinned.get? id⟩
    lanes
    pinned := pinned.mapValues fun _ _ => () }

/-- The requested ids, in order. -/
def ids (r : Request) : List SectorId := r.nodes.map (·.id)

/-- Whether an id has to stay where it is. -/
def isPinned (r : Request) (id : SectorId) : Bool := r.pinned.contains id

/-- The ids that are to be placed, in order. -/
def freeIds (r : Request) : List SectorId := r.ids.filter (!r.isPinned ·)

/-- What a lane with an unknown end is called in a failure. -/
def unknownEnd (l : Lane) : String := s!"edge {l.start}-{l.stop} references an unknown node"

/-- Refuse a request that no provider can honour: a pinned sector without a position, or a lane
with an end that is not requested. -/
def validate (r : Request) : Except Failure Unit :=
  match r.nodes.find? (fun n => r.isPinned n.id && n.position.isNone) with
  | some n => .error (.missingPinnedPosition n.id)
  | none =>
    let known := IdSet.ofList r.ids
    match r.lanes.find? (fun l => !known.contains l.start || !known.contains l.stop) with
    | some l => .error (.invalidGraph (unknownEnd l))
    | none => .ok ()

end Request

/-- What a provider answers: positions, and how many steps it took to find them. -/
structure Solution where
  positions : Placement
  iterations : UInt32

namespace Solution

/-- Why a solution breaks the contract for one sector, if it does. -/
def breach? (s : Solution) (r : Request) (n : Node) : Option Failure :=
  match s.positions.get? n.id with
  | none => some (.missingPosition n.id)
  | some p =>
    if !p.isFinite then some (.notConverged s!"node {n.id} has a non-finite position")
    else if r.isPinned n.id && !n.position.any (·.same p) then some (.pinnedMoved n.id)
    else none

/-- Hold a solution to the request; the first sector that breaks the contract decides. -/
def verify (s : Solution) (r : Request) : Except Failure Unit :=
  match r.nodes.findSome? (s.breach? r) with
  | some failure => .error failure
  | none => .ok ()

end Solution

/-- What a provider gives back for a request. -/
abbrev Answer := Except Failure Solution

end LaneChart.Layout
