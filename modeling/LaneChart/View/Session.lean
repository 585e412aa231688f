import LaneChart.View.Basic
import LaneChart.Layout.Force.Solver

/-!
# A view with the force layout

The view asks whatever provider it is given; a session gives it the force layout, with the
constants of the view's own settings, for as long as it lasts.
-/

namespace LaneChart

/-- A view and the solver that answers it. -/
structure Session where
  view : View
  solver : Layout.Force.Solver

namespace Session

/-- A session that shows nothing yet, with settings that can be used. -/
def new (settings : Settings) : Except ChartError Session :=
  match View.new settings with
  | .ok view => .ok { view, solver := { settings := settings.layout } }
  | .error e => .error e

/-- Show the neighbourhood of a focus. The solver is asked if there is a sector to place. -/
def render (s : Session) (map : SectorMap) (focus : SectorId) : Frame × Session :=
  match s.view.request? map focus with
  | none =>
    let (frame, view) := s.view.render map focus fun r => (s.solver.solve r).1
    (frame, { s with view })
  | some r =>
    let (answer, solver) := s.solver.solve r
    let (frame, view) := s.view.render map focus fun _ => answer
    (frame, { view, solver })

/-- Search for fewer crossings among what is displayed. -/
def refine (s : Session) : Option RefineFrame × Session :=
  let (frame, view) := s.view.refine
  (frame, { s with view })

end Session

/-- A step of a walk: the focus, why it was skipped if it was, and the commands for the surface. -/
structure WalkStep where
  focus : SectorId
  failure : Option Layout.Failure
  commands : List Command

/-- Whether the step was not skipped. -/
def WalkStep.isComplete (s : WalkStep) : Bool := s.failure.isNone

namespace Session

/-- Move the focus to a sector, and search for fewer crossings there if that is asked for and the
step was not skipped. -/
def walkStep (s : Session) (map : SectorMap) (refine : Bool) (focus : SectorId) :
    WalkStep × Session :=
  let (frame, s) := s.render map focus
  let failure := frame.outcome.failure?
  if refine && failure.isNone then
    let (refined, s) := s.refine
    let more := match refined with
      | none => []
      | some f => f.commands
    (⟨focus, failure, frame.commands ++ more⟩, s)
  else (⟨focus, failure, frame.commands⟩, s)

/-- Move the focus along a route. -/
def walk (s : Session) (map : SectorMap) (refine : Bool) : List SectorId → List WalkStep
  | [] => []
  | focus :: route =>
    let (step, s) := s.walkStep map refine focus
    step :: walk s map refine route

end Session

end LaneChart
