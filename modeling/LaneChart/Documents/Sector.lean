import LaneChart.Json.Record
import LaneChart.Neighborhood.Style

/-!
# Documents of the travel graph

How sectors, maps, lanes and neighbourhoods are written as JSON. For each type there is a reader
`ofJson?` and a writer `toJson`; members that hold nothing are left out, and read as nothing.
-/

namespace LaneChart

open Json (Record ofMembers optionalMember)

namespace Sector

/-- The fields of a sector, in order. -/
def fields : List String := ["adjacent", "visited", "last_visited_at", "port_code"]

/-- Read a sector; every field may be left out. -/
def ofJson? (j : Json) : Option Sector := do
  let r ← j.record? fields
  return {
    adjacent := ← r.orElse 0 (Json.list? Json.word64?) []
    visited := ← r.orElse 1 Json.bool? false
    lastVisit := ← r.optional 2 Json.word64?
    port := ← r.optional 3 Json.text? }

/-- Write a sector. -/
def toJson (s : Sector) : Json :=
  ofMembers
    ([("adjacent", Json.ofList Json.ofId s.adjacent), ("visited", .bool s.visited)]
      ++ optionalMember "last_visited_at" Json.ofId s.lastVisit
      ++ optionalMember "port_code" Json.ofText s.port)

end Sector

namespace SectorMap

/-- Read a sector map, an object keyed by ids. -/
def ofJson? (j : Json) : Option SectorMap := j.idMap? Sector.ofJson?

/-- Write a sector map. -/
def toJson (m : SectorMap) : Json := Json.ofIdMap Sector.toJson m

/-- The sector map that a text spells. -/
def parse? (text : String) : Option SectorMap := (Json.read? text).bind ofJson?

end SectorMap

namespace Lane

/-- Read a lane, either way round. -/
def ofJson? (j : Json) : Option Lane := do
  let r ← j.record? ["from", "to"]
  return ⟨← r.required 0 Json.word64?, ← r.required 1 Json.word64?⟩

/-- Write a lane. -/
def toJson (l : Lane) : Json :=
  ofMembers [("from", Json.ofId l.start), ("to", Json.ofId l.stop)]

end Lane

namespace Shown

/-- The fields of a displayed sector, in order. -/
def fields : List String := ["id", "adjacent", "visited", "port_marker", "frontier"]

/-- Read a displayed sector. -/
def ofJson? (j : Json) : Option Shown := do
  let r ← j.record? fields
  return {
    id := ← r.required 0 Json.word64?
    adjacent := ← r.required 1 (Json.list? Json.word64?)
    visited := ← r.required 2 Json.bool?
    port := ← r.optional 3 Json.text?
    frontier := ← r.orElse 4 Json.bool? false }

/-- Write a displayed sector. -/
def toJson (s : Shown) : Json :=
  ofMembers
    ([("id", Json.ofId s.id), ("adjacent", Json.ofList Json.ofId s.adjacent),
        ("visited", .bool s.visited)]
      ++ optionalMember "port_marker" Json.ofText s.port
      ++ [("frontier", .bool s.frontier)])

end Shown

namespace Neighborhood

/-- Read a neighbourhood. -/
def ofJson? (j : Json) : Option Neighborhood := do
  let r ← j.record? ["center", "nodes"]
  return ⟨← r.required 0 Json.word64?, ← r.required 1 (Json.list? Shown.ofJson?)⟩

/-- Write a neighbourhood. -/
def toJson (n : Neighborhood) : Json :=
  ofMembers [("center", Json.ofId n.center), ("nodes", Json.ofList Shown.toJson n.sectors)]

end Neighborhood

namespace Style

/-- Read a style by its name. -/
def ofJson? (j : Json) : Option Style := j.alternative?.bind ofLabel?

/-- Write a style. -/
def toJson (s : Style) : Json := Json.ofText s.label

end Style

end LaneChart
