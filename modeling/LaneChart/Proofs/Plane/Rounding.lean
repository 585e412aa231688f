import LaneChart.Proofs.Plane.Packing

/-!
# How far rounding goes

Rounding cuts off the bits by which a mantissa is too long (`cut`), rounds what is left (`kept`),
and cuts once more in case that has become too long. What is rounded changes by less than one in its
last place, so rounding carries nothing past a power of two that it was not beyond before:

> `exponent_round_le`: what is below a power of two has no greater exponent than that power.
> `le_exponent_round`: the exponent is at least the one that the length of the mantissa asks for.
> `exponent_round_le_greatest`: what is less than half a place above the greatest single
> is rounded to a single.
> `roundWithAccuracy_bounds`: what has no digits below the least exponent is not rounded to zero.
-/

namespace LaneChart

namespace Single

open Float.Model (Format UnpackedFloat)
open Float.Model.UnpackedFloat (Sign Accuracy ExtendedMantissa)

variable {s t : Sign} {m n b : Nat} {e k : Int} {a : Accuracy}

/-! ## What is cut off and what is kept -/

/-- How many bits of a mantissa are too many. -/
def cut (m : Nat) (e : Int) : Nat :=
  (Format.binary32.targetExponent (Float.Model.totalExponent m e) - e).toNat

/-- The mantissa after the cut, rounded. -/
def kept (m : Nat) (e : Int) (a : Accuracy) : Nat :=
  (ExtendedMantissa.ofMantissaAndAccuracy m a >>> cut m e).roundedMantissa

theorem cut_eq (m : Nat) (e : Int) :
    cut m e = (max ((m.log2 : Int) + 1 + e - (24 : Nat)) (-149) - e).toNat := rfl

theorem roundedMantissa_le (x : ExtendedMantissa) : x.roundedMantissa ≤ x.mantissa + 1 := by
  unfold ExtendedMantissa.roundedMantissa
  cases x.accuracy with
  | exact => exact Nat.le_succ _
  | inexact o =>
    cases o with
    | lt => exact Nat.le_succ _
    | gt => exact Nat.le_refl _
    | eq =>
      show x.mantissa + x.mantissa % 2 ≤ x.mantissa + 1
      omega

theorem le_roundedMantissa (x : ExtendedMantissa) : x.mantissa ≤ x.roundedMantissa := by
  unfold ExtendedMantissa.roundedMantissa
  cases x.accuracy with
  | exact => exact Nat.le_refl _
  | inexact o =>
    cases o with
    | lt => exact Nat.le_refl _
    | gt => exact Nat.le_succ _
    | eq => exact Nat.le_add_right _ _

theorem kept_le (m : Nat) (e : Int) (a : Accuracy) : kept m e a ≤ m / 2 ^ cut m e + 1 := by
  have hrounded := roundedMantissa_le (ExtendedMantissa.ofMantissaAndAccuracy m a >>> cut m e)
  rw [mantissa_shift] at hrounded
  exact hrounded

theorem le_kept (m : Nat) (e : Int) (a : Accuracy) : m / 2 ^ cut m e ≤ kept m e a := by
  have hrounded := le_roundedMantissa (ExtendedMantissa.ofMantissaAndAccuracy m a >>> cut m e)
  rw [mantissa_shift] at hrounded
  exact hrounded

/-- **Rounding** in terms of the two cuts. -/
theorem roundWithAccuracy_eq_cut (s : Sign) (m : Nat) (e : Int) (a : Accuracy) :
    let e' := e + cut m e
    let j := cut (kept m e a) e'
    UnpackedFloat.roundWithAccuracy Format.binary32 s m e a =
      if h : kept m e a / 2 ^ j = 0 then .zero s
      else .finite s (kept m e a / 2 ^ j) (e' + j) (Nat.pos_of_ne_zero h) := by
  intro e' j
  have hfirst : UnpackedFloat.shiftToTargetExponent Format.binary32 m e a =
      (ExtendedMantissa.ofMantissaAndAccuracy m a >>> cut m e, e') := rfl
  have hagain : UnpackedFloat.shiftToTargetExponent Format.binary32 (kept m e a) e' .exact =
      (ExtendedMantissa.ofMantissaAndAccuracy (kept m e a) .exact >>> j, e' + j) := rfl
  have hmantissa : (ExtendedMantissa.ofMantissaAndAccuracy (kept m e a) .exact >>> j).mantissa =
      kept m e a / 2 ^ j := mantissa_shift (kept m e a) .exact j
  rw [roundWithAccuracy_eq Format.binary32 s m e a hfirst hagain, hmantissa]

theorem exponent_eq_of_round {hn : 0 < n}
    (h : UnpackedFloat.roundWithAccuracy Format.binary32 s m e a = .finite t n k hn) :
    k = e + cut m e + cut (kept m e a) (e + cut m e) := by
  rw [roundWithAccuracy_eq_cut] at h
  by_cases hzero : kept m e a / 2 ^ cut (kept m e a) (e + cut m e) = 0
  · rw [dif_pos hzero] at h
    cases h
  · rw [dif_neg hzero] at h
    injection h with _ _ hk
    exact hk.symm

/-! ## Bounds of the exponent -/

theorem log2_le_of_lt {r c : Nat} (hr : r < 2 ^ (c + 1)) : r.log2 ≤ c := by
  rcases Nat.eq_zero_or_pos r with hzero | hpos
  · rw [hzero]
    exact Nat.zero_le c
  · exact Nat.le_of_lt_succ ((Nat.log2_lt (Nat.ne_of_gt hpos)).2 hr)

theorem log2_le_of_le {r c : Nat} (hr : r ≤ 2 ^ c) : r.log2 ≤ c :=
  log2_le_of_lt (Nat.lt_of_le_of_lt hr (Nat.pow_lt_pow_right Nat.one_lt_two (Nat.lt_succ_self c)))

/-- After the cut a mantissa fits its bits. -/
theorem div_cut_lt (m : Nat) (e : Int) : m / 2 ^ cut m e < 2 ^ 24 := by
  have hcut := cut_eq m e
  refine Nat.div_lt_of_lt_mul (Nat.lt_of_lt_of_le (Nat.lt_log2_self (n := m)) ?_)
  rw [← Nat.pow_add]
  exact Nat.pow_le_pow_right Nat.two_pos (by omega)

/-- **What is below a power of two is rounded to a mantissa of 24 bits with the exponent
of that power**, or to less. -/
theorem exponent_round_le {c : Int} {hn : 0 < n} (hm : m < 2 ^ b) (hsmall : b + e ≤ c)
    (he : e ≤ c - 23) (hc : -126 ≤ c)
    (h : UnpackedFloat.roundWithAccuracy Format.binary32 s m e a = .finite t n k hn) :
    k ≤ c - 23 := by
  have hcut := cut_eq m e
  have hlog := log2_le_of_le (Nat.le_of_lt hm)
  have hkept : kept m e a ≤ 2 ^ (b - cut m e) := by
    have hdiv : m / 2 ^ cut m e < 2 ^ (b - cut m e) := by
      refine Nat.div_lt_of_lt_mul (Nat.lt_of_lt_of_le hm ?_)
      rw [← Nat.pow_add]
      exact Nat.pow_le_pow_right Nat.two_pos (by omega)
    exact Nat.le_trans (kept_le m e a) hdiv
  have hagain := cut_eq (kept m e a) (e + cut m e)
  have hlogKept := log2_le_of_le hkept
  rw [exponent_eq_of_round h]
  omega

/-- The exponent is at least the one that the length of the mantissa asks for. -/
theorem le_exponent_round {hn : 0 < n}
    (h : UnpackedFloat.roundWithAccuracy Format.binary32 s m e a = .finite t n k hn) :
    (m.log2 : Int) - 23 + e ≤ k := by
  have hcut := cut_eq m e
  rw [exponent_eq_of_round h]
  omega

/-- A mantissa that is less than half a place above another one when its last bits are cut
off is rounded to that one at most. -/
theorem roundedMantissa_shift_le {c i : Nat} (h : m < (2 * c + 1) * 2 ^ i) :
    (ExtendedMantissa.ofMantissaAndAccuracy m .exact >>> (i + 1)).roundedMantissa ≤ c := by
  let x := ExtendedMantissa.ofMantissaAndAccuracy m .exact >>> i
  have hx : x.mantissa ≤ 2 * c := by
    have hmantissa : x.mantissa = m / 2 ^ i := mantissa_shift m .exact i
    rw [hmantissa]
    exact Nat.le_of_lt_succ (Nat.div_lt_of_lt_mul (Nat.mul_comm _ _ ▸ h))
  show x.shiftRightOne.roundedMantissa ≤ c
  rcases Nat.lt_or_eq_of_le hx with hlt | heq
  · have hrounded := roundedMantissa_le x.shiftRightOne
    have hhalf : x.shiftRightOne.mantissa = x.mantissa / 2 := rfl
    omega
  · -- the bit that is cut off last is zero, so this is rounded down
    have hdown : x.shiftRightOne = ⟨c, false, x.roundBit || x.stickyBit⟩ := by
      unfold ExtendedMantissa.shiftRightOne
      rw [heq, Nat.mul_div_cancel_left c Nat.two_pos, Nat.mul_mod_right]
      rfl
    rw [hdown]
    cases x.roundBit || x.stickyBit <;> exact Nat.le_refl c

/-- **What is less than half a place above the greatest single** is rounded to a single. -/
theorem exponent_round_le_greatest {i : Nat} {hn : 0 < n} (hm : m < (2 * (2 ^ 24 - 1) + 1) * 2 ^ i)
    (hi : e + i = 103)
    (h : UnpackedFloat.roundWithAccuracy Format.binary32 s m e .exact = .finite t n k hn) :
    k ≤ 104 := by
  have hcut := cut_eq m e
  have hlog : m.log2 ≤ i + 24 := by
    have hlt : m < 2 ^ (i + 25) := by
      rw [Nat.pow_add]
      omega
    exact log2_le_of_lt hlt
  have hagain := cut_eq (kept m e .exact) (e + cut m e)
  rw [exponent_eq_of_round h]
  rcases Nat.lt_or_ge i (cut m e) with hlt | hge
  · -- this is the last place of the greatest single, and there it is rounded down
    have hlast : cut m e = i + 1 := by omega
    have hkept : kept m e .exact < 2 ^ 24 := by
      have hhalf := roundedMantissa_shift_le hm
      unfold kept
      rw [hlast]
      omega
    have hlogKept := log2_le_of_lt hkept
    omega
  · have hkept : kept m e .exact ≤ 2 ^ 24 :=
      Nat.le_trans (kept_le m e .exact) (div_cut_lt m e)
    have hlogKept := log2_le_of_le hkept
    omega

/-! ## What is not lost -/

/-- The cut leaves something of a mantissa with no digits below the least exponent. -/
theorem div_cut_pos (hm : 0 < m) (he : -149 ≤ e) : 0 < m / 2 ^ cut m e := by
  have hcut := cut_eq m e
  refine Nat.div_pos (Nat.le_trans ?_ (Nat.log2_self_le (Nat.ne_of_gt hm))) (Nat.two_pow_pos _)
  exact Nat.pow_le_pow_right Nat.two_pos (by omega)

/-- What has no digits below the least exponent is not rounded to zero. -/
theorem roundWithAccuracy_bounds (s : Sign) (hm : 0 < m) (he : -149 ≤ e) (a : Accuracy) :
    ∃ n k hn, UnpackedFloat.roundWithAccuracy Format.binary32 s m e a = .finite s n k hn ∧
      n < 2 ^ 24 ∧ -149 ≤ k := by
  -- neither the first cut, nor rounding, nor the second cut can make it zero
  have hkept : 0 < kept m e a := Nat.lt_of_lt_of_le (div_cut_pos hm he) (le_kept m e a)
  have hpos := div_cut_pos (e := e + cut m e) hkept (by omega)
  have hround := (roundWithAccuracy_eq_cut s m e a).trans (dif_neg (Nat.ne_of_gt hpos))
  exact ⟨_, _, _, hround, div_cut_lt _ _, by omega⟩

theorem round_bounds (s : Sign) (hm : 0 < m) (he : -149 ≤ e) :
    ∃ n k hn, UnpackedFloat.round Format.binary32 s m e = .finite s n k hn ∧
      n < 2 ^ 24 ∧ -149 ≤ k := by
  have htarget : -149 ≤ Format.binary32.targetExponent (Float.Model.totalExponent m e) :=
    Int.le_max_right _ _
  refine roundWithAccuracy_bounds s ?_ ?_ .exact
  · show 0 < m <<< _
    rw [Nat.shiftLeft_eq]
    exact Nat.mul_pos hm (Nat.two_pow_pos _)
  · show -149 ≤ e - ((e - _).toNat : Int)
    omega

end Single

end LaneChart
