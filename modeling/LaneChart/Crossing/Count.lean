import LaneChart.Lane
import LaneChart.Plane.Position

/-!
# Crossing lanes

Two lanes cross when their segments do. Lanes with a common end never cross, and a lane with an
end that has no position crosses nothing. Like the geometry it rests on, the test of two lanes is
written for any arithmetic; crossings are counted in single precision.
-/

namespace LaneChart.Crossing

section AnyArithmetic

variable {K : Type}

/-- The points at both ends of a lane, if both are placed. -/
@[specialize] def segment? (p : IdMap (Point K)) (l : Lane) : Option (Point K × Point K) := do
  return (← p.get? l.start, ← p.get? l.stop)

variable [Scalar K]

/-- Whether two lanes cross. -/
@[specialize] def lanesCross (p : IdMap (Point K)) (l m : Lane) : Bool :=
  if l.sharesEnd m then false
  else
    match segment? p l, segment? p m with
    | some (a₁, a₂), some (b₁, b₂) => Point.segmentsCross a₁ a₂ b₁ b₂
    | _, _ => false

end AnyArithmetic

/-- The numbers of the lanes that a lane crosses, when these lanes are numbered from `i`. -/
def crossedFrom (p : Placement) (l : Lane) (lanes : List Lane) (i : Nat) : List Nat :=
  (lanes.zipIdx i).filterMap fun (m, j) => if lanesCross p l m then some j else none

/-- The crossing pairs of lanes that are numbered from `i`. -/
def pairsFrom (p : Placement) : List Lane → Nat → List (Nat × Nat)
  | [], _ => []
  | l :: rest, i => (crossedFrom p l rest (i + 1)).map (i, ·) ++ pairsFrom p rest (i + 1)

/-- The pairs of crossing lanes by their numbers, the lesser number first, in lexicographic
order. -/
def pairs (p : Placement) (lanes : List Lane) : List (Nat × Nat) := pairsFrom p lanes 0

/-- The number of pairs of crossing lanes. -/
def count (p : Placement) (lanes : List Lane) : Nat := (pairs p lanes).length

end LaneChart.Crossing
