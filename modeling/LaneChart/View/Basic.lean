import LaneChart.Settings
import LaneChart.View.Command
import LaneChart.View.Tap

/-!
# The view of a map

A view is what a user interface keeps while it shows a map: the positions of every sector it ever
placed, what is displayed, and what the rendering surface was last told. It changes by three
operations, each a function from view to view:

* `render` moves the focus: extract, lay out, and tell the surface the difference;
* `refine` searches for fewer crossings among what is displayed;
* `reset` forgets everything.

A `render` whose layout is skipped leaves the view as it was.
-/

namespace LaneChart

/-- The state of a view. -/
structure View where
  settings : Settings
  /-- The position of every sector placed since the last reset. -/
  cache : Placement := IdMap.empty
  /-- The neighbourhood of the last complete render. -/
  displayed : Option Neighborhood := none
  /-- The sectors on the surface. -/
  displayedIds : IdSet := IdMap.empty
  /-- The positions that the surface was given. -/
  rendered : Placement := IdMap.empty

/-- What a render comes to. -/
structure Frame where
  neighborhood : Neighborhood
  outcome : Layout.Outcome
  commands : List Command

/-- Whether the focus is not in the map. -/
def Frame.isNoData (f : Frame) : Bool := f.neighborhood.isEmpty

/-- What a refinement comes to. -/
structure RefineFrame where
  report : Crossing.Report
  commands : List Command

namespace View

/-- A view that shows nothing yet, with settings that can be used. -/
def new (settings : Settings) : Except ChartError View :=
  match settings.validate with
  | .ok () => .ok { settings }
  | .error e => .error e

/-- The neighbourhood that a render with a focus shows. -/
def hood (v : View) (map : SectorMap) (focus : SectorId) : Neighborhood :=
  .extract map focus v.settings.limits

/-- The request that a render puts to the provider, if it needs one. -/
def request? (v : View) (map : SectorMap) (focus : SectorId) : Option Layout.Request :=
  Layout.Pass.request? v.cache (v.hood map focus)

/-- Show the neighbourhood of a focus. -/
def render (v : View) (map : SectorMap) (focus : SectorId)
    (answer : Layout.Request → Layout.Answer) : Frame × View :=
  let hood := v.hood map focus
  let (outcome, cache) := Layout.Pass.run v.cache hood v.displayedIds answer
  if outcome.isComplete then
    (⟨hood, outcome, Command.ofOutcome v.rendered hood outcome⟩,
      { v with
        cache
        displayed := some hood
        displayedIds := hood.idSet
        rendered := outcome.positions.mapValues fun _ p => p.position })
  else (⟨hood, outcome, []⟩, { v with cache })

/-- Search for fewer crossings among what is displayed, and keep the new positions. -/
def refine (v : View) : Option RefineFrame × View :=
  match v.displayed with
  | none => (none, v)
  | some hood =>
    if hood.isEmpty then (none, v)
    else
      let found := Crossing.refine v.rendered hood.lanes v.settings.minimizer
      let moved := found.moved
      (some
        { report := found.report
          commands := moved.entries.map fun e => .reposition e.1 ⟨e.2, false⟩ },
        { v with rendered := v.rendered.extend moved, cache := v.cache.extend moved })

/-- Report a tap on a sector to a listener. -/
def tap (v : View) (l : Listener) (id : SectorId) : Bool × Listener :=
  l.tap v.displayedIds.keys id

/-- Forget everything but the settings. -/
def reset (v : View) : View := { settings := v.settings }

end View

end LaneChart
