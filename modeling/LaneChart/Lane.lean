import LaneChart.IdMap

/-!
# Lanes

A lane joins two sectors and has no direction. `Lane.between` writes it with the lesser id first,
so that one lane has one form; lanes that come from outside may be written either way round.
-/

namespace LaneChart

/-- A lane, by the ids of its two ends. -/
structure Lane where
  start : SectorId
  stop : SectorId
deriving DecidableEq

namespace Lane

/-- The lane between two sectors, the lesser id first. -/
def between (a b : SectorId) : Lane := if a ≤ b then ⟨a, b⟩ else ⟨b, a⟩

/-- Both ends, the start first. -/
def ends (l : Lane) : List SectorId := [l.start, l.stop]

/-- Whether two lanes have an end in common. -/
def sharesEnd (l m : Lane) : Bool :=
  l.start == m.start || l.start == m.stop || l.stop == m.start || l.stop == m.stop

/-- Whether a lane joins two given sectors, in either direction. -/
def joins (l : Lane) (a b : SectorId) : Bool :=
  (l.start == a && l.stop == b) || (l.start == b && l.stop == a)

/-- Whether some lane of a list joins two given sectors. -/
def anyJoins (lanes : List Lane) (a b : SectorId) : Bool := lanes.any (·.joins a b)

/-- The order by start, then by stop. -/
def le (l m : Lane) : Bool :=
  decide (l.start < m.start) || (l.start == m.start && decide (l.stop ≤ m.stop))

/-- The lanes in their order, each once. -/
def sorted (lanes : List Lane) : List Lane := (lanes.mergeSort le).eraseReps

/-- How many sectors and how many lanes the graph of some ids and lanes has: ends of lanes count
as sectors, and lanes that join the same two sectors count once. -/
def graphSize (ids : List SectorId) (lanes : List Lane) : Nat × Nat :=
  ((IdSet.ofList (ids ++ lanes.flatMap ends)).size,
    (lanes.map fun l => between l.start l.stop).eraseDups.length)

end Lane

end LaneChart
