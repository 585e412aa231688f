import LaneChart.Proofs.Plane.Exact
import LaneChart.Proofs.Plane.Rounding

/-!
# Sums that start at zero

A sum of singles that starts at zero never comes to minus zero: adding two numbers cancels
to zero, and what does not cancel is not rounded away, since no single has digits below
the least exponent (`roundWithAccuracy_bounds`). So it does not matter to such a sum which
sign a zero has that is added to it:

> `add_ne_minusZero`: only minus zero plus minus zero is minus zero.
> `add_alike`: adding values that differ in the sign of a zero comes to the same.
-/

namespace LaneChart

namespace Single

open Float.Model (Format UnpackedFloat)
open Float.Model.UnpackedFloat (Sign unpackExponent unpackMantissa)

variable {x y z : Float32} {s : Sign} {m n : Nat} {e k : Int}

/-! ## What is not too small -/

/-- What is not too small is not stored as a zero. -/
theorem ofUnpacked_ne_zero (s t : Sign) (hn : 0 < n) (hlt : n < 2 ^ 24) (hk : -149 ≤ k) :
    ofUnpacked (.finite s n k hn) ≠ ofUnpacked (.zero t) := by
  intro h
  have hbits : UnpackedFloat.pack Format.binary32 (.finite s n k hn) =
      UnpackedFloat.packedZero Format.binary32 t :=
    congrArg (fun x : Float32 => x.toModel.toBits.toBitVec) h
  have hexponent := congrArg unpackExponent hbits
  have hmantissa := congrArg unpackMantissa hbits
  unfold UnpackedFloat.packedZero at hexponent hmantissa
  rw [UnpackedFloat.unpackExponent_packComponents] at hexponent
  rw [UnpackedFloat.unpackMantissa_packComponents] at hmantissa
  have hbiased : (k + Format.binary32.exponentBias +
      Format.binary32.mantissaBitsWithoutImplicit).toNat = (k + 150).toNat := by
    show (k + 127 + 23).toNat = _
    omega
  unfold UnpackedFloat.pack at hexponent hmantissa
  simp only [hbiased] at hexponent hmantissa
  -- what is infinite or normal differs from zero in the exponent, what is subnormal in the mantissa
  by_cases hinfinite : 2 ^ Format.binary32.exponentBits ≤ (k + 150).toNat + 1
  · rw [if_pos hinfinite] at hexponent
    unfold UnpackedFloat.packedInfinity at hexponent
    rw [UnpackedFloat.unpackExponent_packComponents] at hexponent
    exact absurd hexponent (by decide)
  rw [if_neg hinfinite] at hexponent hmantissa
  by_cases hnormal : n.log2 + 1 = Format.binary32.mantissaBits
  · rw [if_pos hnormal, UnpackedFloat.unpackExponent_packComponents] at hexponent
    have hfield : (k + 150).toNat % 2 ^ 8 = 0 := congrArg BitVec.toNat hexponent
    have hroom : ¬ 2 ^ 8 ≤ (k + 150).toNat + 1 := hinfinite
    omega
  · rw [if_neg hnormal, UnpackedFloat.unpackMantissa_packComponents] at hmantissa
    have hfield : n % 2 ^ 23 = 0 := congrArg BitVec.toNat hmantissa
    have hlog : n.log2 + 1 ≠ 24 := hnormal
    have hlt24 : n.log2 < 24 := (Nat.log2_lt (Nat.ne_of_gt hn)).2 hlt
    have hsubnormal : n < 2 ^ 23 := (Nat.log2_lt (Nat.ne_of_gt hn)).1 (by omega)
    omega

/-- Rounding does not make a zero of what has no digits below the least exponent. -/
theorem ofUnpacked_round_ne (s : Sign) (hm : 0 < m) (he : -149 ≤ e) :
    ofUnpacked (UnpackedFloat.round Format.binary32 s m e) ≠ -0.0 := by
  obtain ⟨n, k, hn, hround, hlt, hk⟩ := round_bounds s hm he
  rw [hround]
  exact ofUnpacked_ne_zero s .negative hn hlt hk

/-- A sum is zero, and then not negative, or it is rounded to something else. -/
theorem ofUnpacked_normalize_ne {i : Int} (he : -149 ≤ e) :
    ofUnpacked (UnpackedFloat.normalize Format.binary32 i e .positive) ≠ -0.0 := by
  unfold UnpackedFloat.normalize
  rcases Int.lt_trichotomy i 0 with hi | rfl | hi
  · rw [Int.compare_eq_lt.2 hi]
    have hpos : 0 < (-i).toNat := by omega
    exact ofUnpacked_round_ne .negative hpos he
  · show ofUnpacked (.zero .positive) ≠ -0.0
    decide
  · rw [Int.compare_eq_gt.2 hi]
    have hpos : 0 < i.toNat := by omega
    exact ofUnpacked_round_ne .positive hpos he

/-! ## Sums -/

theorem ne_minusZero_of_finite {hm : 0 < m} (hx : unpacked x = .finite s m e hm) :
    ofUnpacked (.finite s m e hm) ≠ -0.0 := by
  have hcanonical := canonical_unpacked hx
  exact ofUnpacked_ne_zero s .negative hm hcanonical.below hcanonical.least

/-- **Only minus zero plus minus zero is minus zero.** -/
theorem add_ne_minusZero (h : x ≠ -0.0) (y : Float32) : x + y ≠ -0.0 := by
  have hnan : ofUnpacked .notANumber ≠ -0.0 := by decide
  have hinfinite (s : Sign) : ofUnpacked (.infinity s) ≠ -0.0 := by cases s <;> decide
  show ofUnpacked (UnpackedFloat.add Format.binary32 (unpacked x) (unpacked y)) ≠ -0.0
  cases hx : unpacked x with
  | notANumber => exact hnan
  | infinity s =>
    cases unpacked y with
    | notANumber => exact hnan
    | zero t => exact hinfinite s
    | finite t m e hm => exact hinfinite s
    | infinity t => cases s <;> cases t <;> decide
  | zero s =>
    cases s with
    | negative => exact absurd (eq_minusZero hx) h
    | positive =>
      cases hy : unpacked y with
      | notANumber => exact hnan
      | infinity t => exact hinfinite t
      | zero t => cases t <;> decide
      | finite t m e hm => exact ne_minusZero_of_finite hy
  | finite s m e hm =>
    cases hy : unpacked y with
    | notANumber => exact hnan
    | infinity t => exact hinfinite t
    | zero t => exact ne_minusZero_of_finite hx
    | finite t n k hn =>
      -- both are added at the lesser exponent of the two
      have hleast : -149 ≤ min e k :=
        Int.le_min.2 ⟨(canonical_unpacked hx).least, (canonical_unpacked hy).least⟩
      exact ofUnpacked_normalize_ne hleast

/-- **The sign of a zero does not matter** to a sum that it is added to. -/
theorem add_alike (h : x ≠ -0.0) (hyz : Alike y z) : x + y = x + z := by
  rcases hyz with rfl | ⟨hy, hz⟩
  · rfl
  obtain ⟨s, hs⟩ := isZero_iff.1 hy
  obtain ⟨t, ht⟩ := isZero_iff.1 hz
  show ofUnpacked (UnpackedFloat.add Format.binary32 (unpacked x) (unpacked y)) =
    ofUnpacked (UnpackedFloat.add Format.binary32 (unpacked x) (unpacked z))
  rw [hs, ht]
  cases hx : unpacked x with
  | notANumber => rfl
  | infinity r => rfl
  | finite r m e hm => rfl
  | zero r =>
    cases r with
    | negative => exact absurd (eq_minusZero hx) h
    | positive => cases s <;> cases t <;> rfl

end Single

end LaneChart
