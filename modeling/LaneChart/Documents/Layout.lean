import LaneChart.Documents.Sector
import LaneChart.Layout.Pass

/-!
# Documents of the layout

How positions, requests, solutions and outcomes are written as JSON. Coordinates that are not
finite are written as null, which no reader of a coordinate accepts.
-/

namespace LaneChart

open Json (ofMembers)

namespace Position

/-- Read a position. -/
def ofJson? (j : Json) : Option Position := do
  let r ← j.record? ["x", "y"]
  return ⟨← r.required 0 Json.single?, ← r.required 1 Json.single?⟩

/-- Write a position. -/
def toJson (p : Position) : Json := ofMembers [("x", Json.ofSingle p.x), ("y", Json.ofSingle p.y)]

end Position

namespace Placed

/-- Read a position with its mark. -/
def ofJson? (j : Json) : Option Placed := do
  let r ← j.record? ["x", "y", "pinned"]
  return ⟨⟨← r.required 0 Json.single?, ← r.required 1 Json.single?⟩, ← r.required 2 Json.bool?⟩

/-- Write a position with its mark. -/
def toJson (p : Placed) : Json :=
  ofMembers [("x", Json.ofSingle p.position.x), ("y", Json.ofSingle p.position.y),
    ("pinned", .bool p.pinned)]

end Placed

namespace Layout

namespace Node

/-- Read a requested sector. -/
def ofJson? (j : Json) : Option Node := do
  let r ← j.record? ["id", "position"]
  return ⟨← r.required 0 Json.word64?, ← r.nullable 1 Position.ofJson?⟩

/-- Write a requested sector; without a position it says so. -/
def toJson (n : Node) : Json :=
  ofMembers [("id", Json.ofId n.id),
    ("position", match n.position with
      | none => .null
      | some p => Position.toJson p)]

end Node

namespace Request

/-- Read a request. -/
def ofJson? (j : Json) : Option Request := do
  let r ← j.record? ["nodes", "edges", "pinned_ids"]
  return {
    nodes := ← r.required 0 (Json.list? Node.ofJson?)
    lanes := ← r.required 1 (Json.list? Lane.ofJson?)
    pinned := IdSet.ofList (← r.required 2 (Json.list? Json.word64?)) }

/-- Write a request. -/
def toJson (r : Request) : Json :=
  ofMembers [("nodes", Json.ofList Node.toJson r.nodes), ("edges", Json.ofList Lane.toJson r.lanes),
    ("pinned_ids", Json.ofList Json.ofId r.pinned.keys)]

end Request

namespace Solution

/-- Read a solution. -/
def ofJson? (j : Json) : Option Solution := do
  let r ← j.record? ["positions", "iterations"]
  return ⟨← r.required 0 (Json.idMap? Position.ofJson?), ← r.required 1 Json.word32?⟩

/-- Write a solution. -/
def toJson (s : Solution) : Json :=
  ofMembers [("positions", Json.ofIdMap Position.toJson s.positions),
    ("iterations", Json.ofNat s.iterations.toNat)]

end Solution

namespace Status

/-- Write how a pass went. -/
def toJson : Status → Json
  | complete placed iterations =>
    ofMembers [("status", Json.ofText "complete"), ("placed", Json.ofNat placed),
      ("iterations", Json.ofNat iterations.toNat)]
  | skipped failure =>
    ofMembers [("status", Json.ofText "skipped"), ("error", Json.ofText failure.message)]

end Status

namespace Outcome

/-- Write one entry of the list of styles. -/
def styleToJson (e : SectorId × Style) : Json := .array [Json.ofId e.1, e.2.toJson]

/-- Write the result of a pass. -/
def toJson (o : Outcome) : Json :=
  ofMembers [("focus", Json.ofId o.focus), ("positions", Json.ofIdMap Placed.toJson o.positions),
    ("added", Json.ofList Json.ofId o.added), ("removed", Json.ofList Json.ofId o.removed),
    ("placed", Json.ofList Json.ofId o.placed), ("styles", Json.ofList styleToJson o.styles),
    ("status", o.status.toJson)]

end Outcome

end Layout

end LaneChart
