import LaneChart.Neighborhood.Extract
import LaneChart.Layout.Force.Settings
import LaneChart.Crossing.Search

/-!
# Settings of a chart

How much is displayed, how long the search for fewer crossings may take, and the constants of the
layout. Only the constants can be refused.
-/

namespace LaneChart

/-- Why an operation of the chart failed. -/
inductive ChartError where
  | layout (failure : Layout.Failure)
  | invalidSettings (reason : String)
deriving DecidableEq

/-- An error in words. -/
def ChartError.message : ChartError → String
  | layout failure => "layout error: " ++ failure.message
  | invalidSettings reason => "invalid configuration: " ++ reason

/-- The settings of a chart. -/
structure Settings where
  limits : Limits := {}
  minimizer : Crossing.Budget := {}
  layout : Layout.Force.Settings := {}
deriving DecidableEq

namespace Settings

/-- Refuse settings whose layout constants cannot be used. -/
def validate (s : Settings) : Except ChartError Unit :=
  match s.layout.validate with
  | .ok () => .ok ()
  | .error failure => .error (.invalidSettings failure.message)

end Settings

end LaneChart
