import LaneChart.Neighborhood.Basic

/-!
# Styles of displayed sectors

How a sector looks depends on the focus, on whether it has been visited, and on whether it is a
dead end.
-/

namespace LaneChart

/-- The look of a displayed sector. -/
inductive Style where
  /-- The focus. -/
  | center
  /-- Visited, with exactly one lane. -/
  | visitedLeaf
  | visited
  | unvisited
deriving DecidableEq

namespace Style

/-- The name by which the rendering surface knows a style. -/
def label : Style → String
  | center => "center"
  | visitedLeaf => "visited-leaf"
  | visited => "visited"
  | unvisited => "unvisited"

/-- All styles. -/
def all : List Style := [center, visitedLeaf, visited, unvisited]

/-- The style with a name. -/
def ofLabel? (name : String) : Option Style := all.find? (·.label == name)

/-- The style of a sector when a given one is in focus. -/
def ofShown (focus : SectorId) (s : Shown) : Style :=
  if s.id = focus then center
  else if s.visited && s.adjacent.length == 1 then visitedLeaf
  else if s.visited then visited
  else unvisited

end Style

end LaneChart
