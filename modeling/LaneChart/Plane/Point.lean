/-!
# Points of the plane

Orientation, proper crossing of segments, and reflection in a line, over any arithmetic that has
the four operations and an order. The program runs them in single precision; the same formulas
over the rationals are exact, and that is where the identities of plane geometry can be stated
without rounding.
-/

namespace LaneChart

/-- The arithmetic that plane geometry asks for. No law is assumed of it, so rounded arithmetic
qualifies. -/
class Scalar (K : Type) extends Add K, Sub K, Mul K, Div K, LT K, LE K, BEq K where
  zero : K
  two : K
  /-- Squared lengths up to this one are taken for zero. -/
  tiny : K
  decLt : DecidableLT K
  decLe : DecidableLE K

instance Scalar.instDecidableLT {K : Type} [Scalar K] : DecidableLT K := Scalar.decLt

instance Scalar.instDecidableLE {K : Type} [Scalar K] : DecidableLE K := Scalar.decLe

/-- A point of the plane, or a vector in it. -/
structure Point (K : Type) where
  x : K
  y : K
deriving DecidableEq

instance {K : Type} [Inhabited K] : Inhabited (Point K) := ⟨⟨default, default⟩⟩

namespace Point

variable {K : Type} [Scalar K]

/-- Whether two points are equal coordinate by coordinate, in the equality of the arithmetic,
under which a zero equals its negative and a value that is no number equals nothing. -/
@[specialize] def same (p q : Point K) : Bool := p.x == q.x && p.y == q.y

/-- Twice the signed area of the triangle `a b c`: positive when the turn at `b` is to the left,
negative when it is to the right. -/
@[specialize] def orientation (a b c : Point K) : K :=
  (b.x - a.x) * (c.y - a.y) - (b.y - a.y) * (c.x - a.x)

/-- Whether two numbers are on different sides of zero. -/
@[specialize] def opposite (s t : K) : Bool :=
  (decide (Scalar.zero < s) && decide (t < Scalar.zero))
    || (decide (s < Scalar.zero) && decide (Scalar.zero < t))

/-- Whether the segments `a₁ a₂` and `b₁ b₂` cross in a point inside both: each has the ends of
the other on different sides. Touching and overlapping segments do not cross. -/
@[specialize] def segmentsCross (a₁ a₂ b₁ b₂ : Point K) : Bool :=
  opposite (orientation a₁ a₂ b₁) (orientation a₁ a₂ b₂)
    && opposite (orientation b₁ b₂ a₁) (orientation b₁ b₂ a₂)

/-- The mirror image of `p` in the line through `a` and `b`: as far beyond the foot of the
perpendicular as `p` is before it. A line through two points that are too close to give a
direction leaves `p` where it is. -/
@[specialize] def reflect (p a b : Point K) : Point K :=
  let dx := b.x - a.x
  let dy := b.y - a.y
  let squaredLength := dx * dx + dy * dy
  if squaredLength ≤ Scalar.tiny then p
  else
    let t := ((p.x - a.x) * dx + (p.y - a.y) * dy) / squaredLength
    let footX := a.x + t * dx
    let footY := a.y + t * dy
    ⟨Scalar.two * footX - p.x, Scalar.two * footY - p.y⟩

end Point

end LaneChart
