import LaneChart.IdMap

/-!
# Sectors and the sector map

What is known of the travel graph: for each discovered sector the lanes that leave it, whether it
has been visited, and its port. References to sectors that are not in the map are allowed; they
are how a sector that has not been discovered yet is known.
-/

namespace LaneChart

/-- What is known of one discovered sector. -/
structure Sector where
  /-- The sectors that its lanes lead to. -/
  adjacent : List SectorId := []
  visited : Bool := false
  /-- The time of the latest visit, in seconds. -/
  lastVisit : Option UInt64 := none
  /-- The class of its trading port. -/
  port : Option String := none
deriving DecidableEq, Inhabited

/-- Everything known of the travel graph. -/
abbrev SectorMap := IdMap Sector

end LaneChart
