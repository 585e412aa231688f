import LaneChart.Layout.Request
import LaneChart.Decimal.Text

/-!
# Constants of the force layout

The physics constants with their defaults, and the check that they can be used. The angle of the
approximation and the threshold of rest are not checked.
-/

namespace LaneChart.Layout.Force

/-- The constants of a force layout. -/
structure Settings where
  /-- The greatest number of steps. -/
  iterations : UInt32 := 300
  /-- The time that a step takes. -/
  dt : Float32 := 0.05
  /-- What is left of a velocity after a step. -/
  damping : Float32 := 0.85
  repulsion : Float32 := 5000
  attraction : Float32 := 0.05
  /-- The length at which a lane is at rest, and the greatest travel of one step. -/
  idealLength : Float32 := 100
  /-- The pull towards the origin. -/
  gravity : Float32 := 0.02
  /-- How small a cell has to look to be taken for one body. -/
  theta : Float32 := 0.8
  /-- Whether repulsion is approximated with a quadtree. -/
  approximate : Bool := false
  /-- The greatest depth of the quadtree. -/
  maxTreeDepth : Nat := 12
  /-- The radius of the ring on which sectors start that have no placed neighbour. -/
  seedRadius : Float32 := 100
  /-- The travel below which a layout is at rest. -/
  restThreshold : Float32 := 0.01
deriving DecidableEq

namespace Settings

/-- The constants that have to be finite and positive, with the names they are known by. -/
def positives (s : Settings) : List (String × Float32) :=
  [("dt", s.dt), ("repulsion", s.repulsion), ("attraction", s.attraction),
    ("ideal_length", s.idealLength), ("seed_radius", s.seedRadius)]

/-- Whether a value is finite and positive. -/
def isPositive (x : Float32) : Bool := x.isFinite && !decide (x ≤ 0)

/-- Whether a value lies between zero and one. -/
def isShare (x : Float32) : Bool := decide (0 ≤ x) && decide (x ≤ 1)

/-- Whether a value is finite and not negative. -/
def isNonNegative (x : Float32) : Bool := x.isFinite && !decide (x < 0)

/-- Why constants cannot be used, if they cannot; the first reason counts. -/
def objection? (s : Settings) : Option String :=
  match s.positives.find? (fun c => !isPositive c.2) with
  | some c => some (c.1 ++ " must be positive, got " ++ Decimal.plain c.2)
  | none =>
    if !isShare s.damping then
      some ("damping must be within 0..=1, got " ++ Decimal.plain s.damping)
    else if !isNonNegative s.gravity then
      some ("gravity must be non-negative, got " ++ Decimal.plain s.gravity)
    else if s.iterations = 0 then some "iterations must be at least 1"
    else none

/-- Refuse constants that cannot be used. -/
def validate (s : Settings) : Except Failure Unit :=
  match s.objection? with
  | some reason => .error (.invalidGraph reason)
  | none => .ok ()

end Settings

end LaneChart.Layout.Force
