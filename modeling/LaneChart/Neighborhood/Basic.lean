import LaneChart.Sector
import LaneChart.Lane

/-!
# Neighbourhoods

The part of the travel graph that is displayed: a center and the displayed sectors in the order in
which they were found. Lanes are not stored; `lanes` reads them off the displayed sectors, each
one once, at its first mention.
-/

namespace LaneChart

/-- A sector selected for display. -/
structure Shown where
  id : SectorId
  adjacent : List SectorId
  visited : Bool
  port : Option String := none
  /-- Known only as the far end of a lane, not from the map. -/
  frontier : Bool := false
deriving DecidableEq

namespace Shown

/-- A discovered sector, as its record describes it. -/
def ofSector (id : SectorId) (s : Sector) : Shown := ⟨id, s.adjacent, s.visited, s.port, false⟩

/-- A stand-in for a sector that is known only through a lane. -/
def placeholder (id : SectorId) : Shown := ⟨id, [], false, none, true⟩

end Shown

/-- The displayed part of the travel graph. -/
structure Neighborhood where
  center : SectorId
  sectors : List Shown
deriving DecidableEq

namespace Neighborhood

/-- A neighbourhood with nothing to display. -/
def empty (center : SectorId) : Neighborhood := ⟨center, []⟩

/-- How many sectors are displayed. -/
def size (n : Neighborhood) : Nat := n.sectors.length

/-- Whether nothing is displayed. -/
def isEmpty (n : Neighborhood) : Bool := n.sectors.isEmpty

/-- The displayed ids, in the order in which they were found. -/
def ids (n : Neighborhood) : List SectorId := n.sectors.map (·.id)

/-- The displayed ids as a set. -/
def idSet (n : Neighborhood) : IdSet := IdSet.ofList n.ids

/-- The first displayed sector with an id. -/
def get? (n : Neighborhood) (id : SectorId) : Option Shown := n.sectors.find? (·.id == id)

/-- Whether an id is displayed. -/
def contains (n : Neighborhood) (id : SectorId) : Bool := n.sectors.any (·.id == id)

/-- The lanes that one displayed sector mentions: those to another displayed sector. -/
def mentioned (displayed : IdSet) (s : Shown) : List Lane :=
  (s.adjacent.filter fun other => other != s.id && displayed.contains other).map
    (Lane.between s.id ·)

/-- The lanes between displayed sectors, each once, in the order of first mention. -/
def lanes (n : Neighborhood) : List Lane :=
  (n.sectors.flatMap (mentioned n.idSet)).eraseDups

end Neighborhood

end LaneChart
