import LaneChart.Plane.Point

/-!
# Sides and crossings

What holds of the tests of plane geometry over any arithmetic, rounded or not: they only ask which
numbers are on different sides of zero, and it does not matter in which order they ask.
-/

namespace LaneChart.Point

variable {K : Type} [Scalar K]

/-- It does not matter which of two numbers comes first. -/
theorem opposite_comm (s t : K) : opposite s t = opposite t s := by
  unfold opposite
  rw [Bool.or_comm]
  congr 1 <;> exact Bool.and_comm ..

/-- Two segments cross if the ends of each are on different sides of the other. -/
theorem segmentsCross_eq_true_iff {a₁ a₂ b₁ b₂ : Point K} :
    segmentsCross a₁ a₂ b₁ b₂ = true ↔
      opposite (orientation a₁ a₂ b₁) (orientation a₁ a₂ b₂) = true ∧
      opposite (orientation b₁ b₂ a₁) (orientation b₁ b₂ a₂) = true :=
  Bool.and_eq_true_iff

/-- Crossing of segments is symmetric. -/
theorem segmentsCross_comm (a₁ a₂ b₁ b₂ : Point K) :
    segmentsCross a₁ a₂ b₁ b₂ = segmentsCross b₁ b₂ a₁ a₂ :=
  Bool.and_comm ..

end LaneChart.Point
