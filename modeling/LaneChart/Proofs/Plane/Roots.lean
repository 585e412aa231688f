import Mathlib.Data.Nat.Sqrt
import LaneChart.Proofs.Plane.Range

/-!
# Roots that are at least one half

Two guards for bodies that are close ask about a distance and about its square. They agree on what
is well apart: where the root is at least one half, the lower bound of the distance does nothing
(`greater_half`), and the square is above the epsilon of the other guard (`not_le_epsilon`).

The second takes some arithmetic. Up to epsilon, which is 2⁻²³, the root is below 2⁻¹¹ before it is
rounded (`sqrtCore_lt`), and rounding cannot carry it as far as one half (`within_round`).
-/

namespace LaneChart

namespace Single

open Float.Model (Format UnpackedFloat)
open Float.Model.UnpackedFloat (Sign)

variable {x : Float32} {s : Sign} {m n : Nat} {e k : Int}

theorem unpacked_half : unpacked 0.5 = .finite .positive (2 ^ 23) (-24) (by decide) := by rfl

theorem unpacked_epsilon :
    unpacked epsilon = .finite .positive (2 ^ 23) (-46) (by decide) := by rfl

/-- The greater of one half and what is not less. -/
theorem greater_half (h : 0.5 ≤ x) : greater x 0.5 = x := by
  rw [le_iff, unpacked_half] at h
  have hnumber : x.isNaN = false := by
    show (unpacked x).isNaN = false
    revert h
    cases unpacked x with
    | notANumber => exact fun h => absurd h Bool.false_ne_true
    | infinity s => exact fun _ => rfl
    | zero s => exact fun _ => rfl
    | finite s m e hm => exact fun _ => rfl
  have hnotLess : ¬ x < 0.5 := by
    rw [lt_iff, unpacked_half]
    revert h
    cases unpacked x with
    | notANumber => exact fun _ => Bool.false_ne_true
    | zero s => exact fun h => absurd h Bool.false_ne_true
    | infinity s =>
      cases s with
      | positive => exact fun _ => Bool.false_ne_true
      | negative => exact fun h => absurd h Bool.false_ne_true
    | finite s m e hm =>
      cases s with
      | negative => exact fun h => absurd h Bool.false_ne_true
      | positive =>
        intro h
        rw [le_positive] at h
        rw [lt_positive]
        omega
  have hhalf : (0.5 : Float32).isNaN = false := rfl
  unfold greater
  rw [hnumber, hhalf, if_neg Bool.false_ne_true, if_neg Bool.false_ne_true, if_neg hnotLess]

theorem not_half_le_of_within (h : Within (-25) x) : ¬ 0.5 ≤ x := by
  rw [le_iff, unpacked_half]
  rcases h with ⟨s, hx⟩ | ⟨s, m, e, hm, hx, he⟩
  · rw [hx]
    exact Bool.false_ne_true
  · rw [hx]
    cases s with
    | negative => exact Bool.false_ne_true
    | positive =>
      rw [le_positive]
      omega

/-! ## Roots -/

/-- The root of what is below 2⁻²² is below 2⁻¹¹. -/
theorem sqrtCore_lt (hm : m < 2 ^ 24) (he : e ≤ -46) :
    ∃ b : Nat, (UnpackedFloat.sqrtCore Format.binary32 m e).1 < 2 ^ b ∧
      b + (UnpackedFloat.sqrtCore Format.binary32 m e).2.1 ≤ -11 ∧
      (UnpackedFloat.sqrtCore Format.binary32 m e).2.1 ≤ -34 := by
  have hlog : m.log2 ≤ 24 := log2_le_of_le (Nat.le_of_lt hm)
  have htarget :
      Format.binary32.targetExponent ((Float.Model.totalExponent m e + 1).ediv 2) ≤ -34 := by
    show max (((m.log2 : Int) + 1 + e + 1) / 2 - (24 : Nat)) (-149) ≤ -34
    omega
  unfold UnpackedFloat.sqrtCore
  simp only
  generalize Format.binary32.targetExponent ((Float.Model.totalExponent m e + 1).ediv 2) = t
    at htarget ⊢
  have hhalf : e.ediv 2 = e / 2 := rfl
  rw [hhalf, Nat.shiftLeft_eq]
  generalize hleast : min (e / 2) t = t'
  have hroot (j : Nat) : Nat.sqrt (m * 2 ^ j) < 2 ^ ((25 + j) / 2) := by
    refine Nat.sqrt_lt'.2 ?_
    have hprod : m * 2 ^ j < 2 ^ (24 + j) := by
      rw [Nat.pow_add]
      exact Nat.mul_lt_mul_of_pos_right hm (Nat.two_pow_pos j)
    rw [← Nat.pow_mul]
    exact Nat.lt_of_lt_of_le hprod (Nat.pow_le_pow_right Nat.two_pos (by omega))
  refine ⟨(25 + (e - 2 * t').toNat) / 2, hroot _, ?_, ?_⟩
  · omega
  · omega

/-- **A root of at least one half** is not the root of anything up to epsilon. -/
theorem not_le_epsilon (h : 0.5 ≤ x.sqrt) : ¬ x ≤ epsilon := by
  have hnan : ¬ 0.5 ≤ ofUnpacked .notANumber := by decide
  have hzero (s : Sign) : ¬ 0.5 ≤ ofUnpacked (.zero s) := by cases s <;> decide
  rw [le_iff, unpacked_epsilon]
  revert h
  show 0.5 ≤ ofUnpacked (UnpackedFloat.sqrt Format.binary32 (unpacked x)) → _
  cases hx : unpacked x with
  | notANumber => exact fun _ => Bool.false_ne_true
  | zero s => exact fun h => absurd h (hzero s)
  | infinity s =>
    cases s with
    | positive => exact fun _ => Bool.false_ne_true
    | negative => exact fun h => absurd h hnan
  | finite s m e hm =>
    cases s with
    | negative => exact fun h => absurd h hnan
    | positive =>
      intro h hsmall
      rw [le_positive] at hsmall
      have he : e ≤ -46 := by omega
      obtain ⟨b, hroot, hbound, hexponent⟩ := sqrtCore_lt (canonical_unpacked hx).below he
      have hround := within_round .positive (UnpackedFloat.sqrtCore Format.binary32 m e).2.2 hroot
        hbound hexponent (by omega) (by omega)
      exact not_half_le_of_within (hround.mono (by omega)) h

end Single

end LaneChart
