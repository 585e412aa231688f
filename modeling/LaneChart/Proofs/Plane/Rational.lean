import Mathlib.Algebra.Order.Field.Rat
import Mathlib.Tactic.LinearCombination
import Mathlib.Tactic.Linarith
import Mathlib.Tactic.Ring
import LaneChart.Plane.Position
import LaneChart.Proofs.Plane.Turns

/-!
# Plane geometry without rounding

The formulas of the plane ask for no particular arithmetic. Over the rationals they are exact, and
there a mirror image is what its name says:

> `orientation_reflect`: it lies as far on the other side of the line.
> `reflect_reflect`: its own mirror image is the point it came from.

Both rest on `reflect_eq`: the foot of the perpendicular is known by how far along the line it
stands, and of that number only its product with the squared length of the line is ever used. For
two segments that cross it follows that mirroring an end of one in the line of the other takes the
crossing away (`mirrored_of_segmentsCross`). In singles all of this is lost to rounding.
-/

namespace LaneChart

/-- Exact arithmetic. A line is too short to have a direction if it is in singles. -/
instance Rational.instScalar : Scalar ℚ where
  zero := 0
  two := 2
  tiny := 1 / 8388608
  decLt := Rat.instDecidableLt
  decLe := Rat.instDecidableLe

example : Single.epsilon = 1 / 8388608 := by decide +kernel

namespace Point

/-- The squared distance of two points, as mirror images take it. -/
def squaredLength {K : Type} [Scalar K] (a b : Point K) : K :=
  (b.x - a.x) * (b.x - a.x) + (b.y - a.y) * (b.y - a.y)

variable {a b p q : Point ℚ}

/-! ## The formulas, in the operations of the rationals -/

theorem orientation_eq (a b c : Point ℚ) :
    orientation a b c = (b.x - a.x) * (c.y - a.y) - (b.y - a.y) * (c.x - a.x) := rfl

theorem squaredLength_eq (a b : Point ℚ) :
    squaredLength a b = (b.x - a.x) * (b.x - a.x) + (b.y - a.y) * (b.y - a.y) := rfl

theorem opposite_iff {s t : ℚ} : opposite s t = true ↔ 0 < s ∧ t < 0 ∨ s < 0 ∧ 0 < t := by
  show (decide (0 < s) && decide (t < 0) || decide (s < 0) && decide (0 < t)) = true ↔ _
  rw [Bool.or_eq_true, Bool.and_eq_true, Bool.and_eq_true]
  simp only [decide_eq_true_iff]

theorem same_iff {p q : Point ℚ} : p.same q = true ↔ p = q := by
  show (p.x == q.x && p.y == q.y) = true ↔ _
  rw [Bool.and_eq_true, beq_iff_eq, beq_iff_eq]
  cases p
  cases q
  rw [mk.injEq]

/-- A line that has a direction has a length. -/
theorem squaredLength_ne_zero (h : Scalar.tiny < squaredLength a b) : squaredLength a b ≠ 0 := by
  have htiny : (1 / 8388608 : ℚ) < squaredLength a b := h
  linarith

/-! ## Mirror images -/

/-- **A mirror image** is as far beyond a foot on the line as the point is before it, and
the line to the foot is perpendicular. -/
theorem reflect_eq (p : Point ℚ) (h : Scalar.tiny < squaredLength a b) :
    ∃ t : ℚ,
      t * squaredLength a b = (p.x - a.x) * (b.x - a.x) + (p.y - a.y) * (b.y - a.y) ∧
      reflect p a b =
        ⟨2 * (a.x + t * (b.x - a.x)) - p.x, 2 * (a.y + t * (b.y - a.y)) - p.y⟩ := by
  refine ⟨((p.x - a.x) * (b.x - a.x) + (p.y - a.y) * (b.y - a.y)) / squaredLength a b, ?_, ?_⟩
  · exact div_mul_cancel₀ _ (squaredLength_ne_zero h)
  · have hlong : ¬ squaredLength a b ≤ Scalar.tiny := not_le.2 h
    exact if_neg hlong

/-- **A mirror image lies on the other side** of the line, as far from it. -/
theorem orientation_reflect (p : Point ℚ) (h : Scalar.tiny < squaredLength a b) :
    orientation a b (reflect p a b) = -orientation a b p := by
  obtain ⟨t, -, hmirror⟩ := reflect_eq p h
  rw [hmirror, orientation_eq, orientation_eq]
  ring

/-- **Mirroring twice** leads back. -/
theorem reflect_reflect (p : Point ℚ) (h : Scalar.tiny < squaredLength a b) :
    reflect (reflect p a b) a b = p := by
  obtain ⟨t, ht, hmirror⟩ := reflect_eq p h
  obtain ⟨u, hu, hback⟩ := reflect_eq (reflect p a b) h
  rw [hmirror] at hu hback
  -- the foot of the mirror image is the foot of the point
  have hfoot : u = t := by
    refine mul_right_cancel₀ (squaredLength_ne_zero h) ?_
    rw [squaredLength_eq] at ht hu ⊢
    linear_combination hu + ht
  rw [hmirror, hback, hfoot]
  show mk _ _ = mk p.x p.y
  congr 1 <;> ring

/-! ## Crossing segments -/

/-- A point has no two sides. -/
theorem opposite_self (s : ℚ) : opposite s s = false := by
  rw [← Bool.not_eq_true, opposite_iff]
  rintro (⟨h, h'⟩ | ⟨h, h'⟩) <;> linarith

theorem opposite_neg (s t : ℚ) : opposite (-s) (-t) = opposite s t := by
  rw [Bool.eq_iff_iff, opposite_iff, opposite_iff]
  constructor
  · rintro (⟨h, h'⟩ | ⟨h, h'⟩)
    · exact .inr ⟨by linarith, by linarith⟩
    · exact .inl ⟨by linarith, by linarith⟩
  · rintro (⟨h, h'⟩ | ⟨h, h'⟩)
    · exact .inr ⟨by linarith, by linarith⟩
    · exact .inl ⟨by linarith, by linarith⟩

/-- **It does not matter from which end a segment is written.** -/
theorem segmentsCross_swap (p q a b : Point ℚ) : segmentsCross q p a b = segmentsCross p q a b := by
  have hturn (c : Point ℚ) : orientation q p c = -orientation p q c := by
    rw [orientation_eq, orientation_eq]
    ring
  rw [Bool.eq_iff_iff, segmentsCross_eq_true_iff, segmentsCross_eq_true_iff, hturn, hturn,
    opposite_neg, opposite_comm (orientation a b q)]

/-- The mirror image of one end of a segment passes for a place to move it to, the other end being
an anchor: it is another place, and from there the segment does not cross the line's. -/
structure Mirrored (p anchor a b : Point ℚ) : Prop where
  moves : (reflect p a b).same p = false
  clears : segmentsCross (reflect p a b) anchor a b = false

/-- Two points on different sides of a line: either one, mirrored, comes to the side of
the other. -/
theorem mirrored_of_opposite (h : Scalar.tiny < squaredLength a b)
    (hsides : opposite (orientation a b p) (orientation a b q) = true) : Mirrored p q a b := by
  have hmirror := orientation_reflect p h
  rw [opposite_iff] at hsides
  constructor
  · rw [← Bool.not_eq_true, same_iff]
    intro hsame
    rw [hsame] at hmirror
    rcases hsides with ⟨hp, -⟩ | ⟨hp, -⟩ <;> linarith
  · rw [← Bool.not_eq_true, segmentsCross_eq_true_iff, hmirror]
    rintro ⟨-, hstill⟩
    rw [opposite_iff] at hstill
    rcases hsides with ⟨hp, hq⟩ | ⟨hp, hq⟩ <;>
      rcases hstill with ⟨hp', hq'⟩ | ⟨hp', hq'⟩ <;> linarith

/-- **Of two segments that cross**, either end of one passes when it is mirrored in the
line of the other. -/
theorem mirrored_of_segmentsCross (h : Scalar.tiny < squaredLength a b)
    (hcross : segmentsCross p q a b = true) : Mirrored p q a b ∧ Mirrored q p a b := by
  obtain ⟨-, hsides⟩ := segmentsCross_eq_true_iff.1 hcross
  exact ⟨mirrored_of_opposite h hsides, mirrored_of_opposite h ((opposite_comm _ _).trans hsides)⟩

end Point

end LaneChart
