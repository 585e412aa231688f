import Mathlib.Data.Prod.Lex
import LaneChart.Proofs.Plane.Packing

/-!
# The order of singles

Singles that are numbers are ordered by their sign, then by their exponent, then by their mantissa
(`rank`), and what is no number is neither less nor greater than anything. So a running maximum that
passes over what is no number is below a bound exactly if everything in it that is a number is:

> `lt_iff_rank_lt`: the order of numbers is that of their places.
> `greater_lt_iff`: one step of such a maximum.
-/

namespace LaneChart

namespace Single

open Float.Model (Format UnpackedFloat)

variable {x y z : Float32} {m n : Nat} {e k : Int}

/-- The place of a number in the order: on which side of zero it is and whether it is finite,
then its exponent, then its mantissa. -/
def rank : UnpackedFloat → Int ×ₗ Int ×ₗ Int
  | .infinity .negative => toLex (-2, toLex (0, 0))
  | .finite .negative m e _ => toLex (-1, toLex (-e, -(m : Int)))
  | .zero _ => toLex (0, toLex (0, 0))
  | .finite .positive m e _ => toLex (1, toLex (e, (m : Int)))
  | .infinity .positive => toLex (2, toLex (0, 0))
  | .notANumber => toLex (0, toLex (0, 0))

/-- The first coordinates decide if they differ. -/
theorem toLex_lt_of_lt {i j : Int} (h : i < j) (p q : Int ×ₗ Int) :
    (toLex (i, p) : Int ×ₗ Int ×ₗ Int) < toLex (j, q) :=
  Prod.Lex.toLex_lt_toLex.2 (.inl h)

theorem not_toLex_lt_of_lt {i j : Int} (h : j < i) (p q : Int ×ₗ Int) :
    ¬ (toLex (i, p) : Int ×ₗ Int ×ₗ Int) < toLex (j, q) :=
  lt_asymm (toLex_lt_of_lt h q p)

theorem toLex_lt_iff {i : Int} {p q : Int × Int} :
    (toLex (i, toLex p) : Int ×ₗ Int ×ₗ Int) < toLex (i, toLex q) ↔
      p.1 < q.1 ∨ p.1 = q.1 ∧ p.2 < q.2 := by
  rw [Prod.Lex.toLex_lt_toLex, or_iff_right (lt_irrefl i), and_iff_right rfl,
    Prod.Lex.toLex_lt_toLex]

theorem lt_negative {hm : 0 < m} {hn : 0 < n} :
    UnpackedFloat.lt (.finite .negative m e hm) (.finite .negative n k hn) = true ↔
      k < e ∨ e = k ∧ n < m := by
  show (some ((compare e k).then (compare m n)).swap == some .lt) = true ↔ _
  rw [beq_iff_eq, Option.some_inj, Ordering.swap_eq_lt, Ordering.then_eq_gt, Int.compare_eq_gt,
    Int.compare_eq_eq, Nat.compare_eq_gt]

theorem lt_unpacked_iff_rank {u v : UnpackedFloat} (hu : u.isNaN = false) (hv : v.isNaN = false) :
    u.lt v = true ↔ rank u < rank v := by
  cases u with
  | notANumber => exact absurd hu.symm Bool.false_ne_true
  | infinity s =>
    cases v with
    | notANumber => exact absurd hv.symm Bool.false_ne_true
    | infinity t => cases s <;> cases t <;> decide
    | zero t | finite t =>
      cases s with
      | negative => cases t <;> exact iff_of_true rfl (toLex_lt_of_lt (by omega) _ _)
      | positive =>
        cases t <;> exact iff_of_false Bool.false_ne_true (not_toLex_lt_of_lt (by omega) _ _)
  | zero s =>
    cases v with
    | notANumber => exact absurd hv.symm Bool.false_ne_true
    | zero t => exact iff_of_false Bool.false_ne_true (lt_irrefl _)
    | infinity t | finite t =>
      cases t with
      | negative => exact iff_of_false Bool.false_ne_true (not_toLex_lt_of_lt (by omega) _ _)
      | positive => exact iff_of_true rfl (toLex_lt_of_lt (by omega) _ _)
  | finite s m e hm =>
    cases v with
    | notANumber => exact absurd hv.symm Bool.false_ne_true
    | infinity t =>
      cases t with
      | negative =>
        cases s <;> exact iff_of_false Bool.false_ne_true (not_toLex_lt_of_lt (by omega) _ _)
      | positive => cases s <;> exact iff_of_true rfl (toLex_lt_of_lt (by omega) _ _)
    | zero t =>
      cases s with
      | negative => exact iff_of_true rfl (toLex_lt_of_lt (by omega) _ _)
      | positive => exact iff_of_false Bool.false_ne_true (not_toLex_lt_of_lt (by omega) _ _)
    | finite t n k hn =>
      -- exponents and mantissas count only on the same side of zero
      cases s <;> cases t
      · refine lt_negative.trans (Iff.trans ?_ toLex_lt_iff.symm)
        show _ ↔ -e < -k ∨ -e = -k ∧ -(m : Int) < -(n : Int)
        omega
      · exact iff_of_true rfl (toLex_lt_of_lt (by omega) _ _)
      · exact iff_of_false Bool.false_ne_true (not_toLex_lt_of_lt (by omega) _ _)
      · refine lt_positive.trans (Iff.trans ?_ toLex_lt_iff.symm)
        show _ ↔ e < k ∨ e = k ∧ (m : Int) < (n : Int)
        omega

/-- **The order of numbers.** -/
theorem lt_iff_rank_lt (hx : x.isNaN = false) (hy : y.isNaN = false) :
    x < y ↔ rank (unpacked x) < rank (unpacked y) :=
  lt_iff.trans (lt_unpacked_iff_rank hx hy)

/-- Nothing is less than what is no number. -/
theorem isNaN_eq_false_of_lt (h : x < y) : y.isNaN = false := by
  rw [lt_iff] at h
  show (unpacked y).isNaN = false
  revert h
  cases unpacked y with
  | notANumber =>
    cases unpacked x with
    | notANumber | infinity s | zero s | finite s => exact fun h => absurd h Bool.false_ne_true
  | infinity s => exact fun _ => rfl
  | zero s => exact fun _ => rfl
  | finite s m e hm => exact fun _ => rfl

/-! ## Running maxima -/

theorem isNaN_greater (hx : x.isNaN = false) : (greater x y).isNaN = false := by
  unfold greater
  rw [hx, if_neg Bool.false_ne_true]
  by_cases hy : y.isNaN = true
  · rw [if_pos hy]
    exact hx
  · rw [if_neg hy]
    split
    · exact Bool.not_eq_true _ ▸ hy
    · exact hx

/-- **The greater of a number and any value** is below a bound exactly if the number is, and
the value too unless it is no number. -/
theorem greater_lt_iff (hx : x.isNaN = false) :
    greater x y < z ↔ x < z ∧ (y.isNaN = true ∨ y < z) := by
  by_cases hz : z.isNaN = true
  · have hnothing (w : Float32) : ¬ w < z := by
      intro h
      rw [isNaN_eq_false_of_lt h] at hz
      exact Bool.false_ne_true hz
    exact iff_of_false (hnothing _) fun h => hnothing _ h.1
  rw [Bool.not_eq_true] at hz
  unfold greater
  rw [hx, if_neg Bool.false_ne_true]
  by_cases hy : y.isNaN = true
  · rw [if_pos hy, and_iff_left (.inl hy)]
  · rw [if_neg hy, or_iff_right hy]
    rw [Bool.not_eq_true] at hy
    rw [lt_iff_rank_lt hx hz, lt_iff_rank_lt hy hz]
    by_cases hxy : x < y
    · rw [if_pos hxy, lt_iff_rank_lt hy hz]
      rw [lt_iff_rank_lt hx hy] at hxy
      exact ⟨fun h => ⟨hxy.trans h, h⟩, And.right⟩
    · rw [if_neg hxy, lt_iff_rank_lt hx hz]
      rw [lt_iff_rank_lt hx hy, not_lt] at hxy
      exact ⟨fun h => ⟨h, hxy.trans_lt h⟩, And.left⟩

end Single

end LaneChart
