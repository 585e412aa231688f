import Mathlib.Algebra.Group.Nat.Defs
import LaneChart.Proofs.Plane.Finite

/-!
# Packed and unpacked singles

An operation of singles unpacks its operands, computes with signs, mantissas and
exponents, rounds, and packs what it gets. To follow one from end to end it takes to know
what packing keeps and what rounding leaves alone:

> `ofUnpacked_unpacked`: packing undoes unpacking.
> `canonical_unpacked`: a single unpacks to a mantissa with the exponent that rounding
> would give it.
> `round_canonical`: such a mantissa is rounded to itself, however many zeros are put behind it.
-/

namespace LaneChart

namespace Single

open Float.Model (Format UnpackedFloat)
open Float.Model.UnpackedFloat (Sign packComponents unpackSign unpackExponent unpackMantissa
  ExtendedMantissa)

variable {x y : Float32} {s : Sign} {m n : Nat} {e k : Int}

/-- A single, unpacked. -/
def unpacked (x : Float32) : UnpackedFloat := x.toModel.unpack

/-- The single in which an unpacked value is stored. -/
def ofUnpacked (u : UnpackedFloat) : Float32 := .ofModel (.pack u)

/-! ## Bits -/

theorem unpackSign_eq {spec : Format} (b : BitVec spec.numBits) :
    unpackSign b = (b.extractLsb (spec.mantissaBitsWithoutImplicit + spec.exponentBits)
      (spec.mantissaBitsWithoutImplicit + spec.exponentBits)).cast (by omega) := rfl

theorem unpackSign_packComponents {spec : Format} (exponent : BitVec spec.exponentBits)
    (mantissa : BitVec spec.mantissaBitsWithoutImplicit) :
    unpackSign (packComponents spec s exponent mantissa) = s.toBitVec := by
  ext i hi
  obtain rfl : i = 0 := by omega
  simp [unpackSign_eq, packComponents, BitVec.getLsbD_append, BitVec.getElem_append,
    BitVec.getLsbD_eq_getElem]

theorem packComponents_unpack (b : BitVec Format.binary32.numBits) :
    packComponents Format.binary32 (Sign.ofBitVec (unpackSign b)) (unpackExponent b)
      (unpackMantissa b) = b := by
  have hsign : (Sign.ofBitVec (unpackSign b)).toBitVec = unpackSign b := by
    generalize unpackSign b = c
    revert c
    decide
  unfold packComponents
  rw [hsign]
  show (b.extractLsb' 31 1 ++ b.extractLsb' 23 8 ++ b.extractLsb' 0 23 : BitVec 32) = b
  have hhigh : 31 = 23 + 8 := rfl
  have hlow : 23 = 0 + 23 := rfl
  rw [BitVec.extractLsb'_append_extractLsb'_eq_extractLsb' hhigh,
    BitVec.extractLsb'_append_extractLsb'_eq_extractLsb' hlow]
  exact BitVec.extractLsb'_eq_self

/-- The first bit of a mantissa is not stored. -/
theorem toNat_implicit (mantissa : BitVec 23) :
    (1#1 ++ mantissa).toNat = 2 ^ 23 + mantissa.toNat := by
  rw [BitVec.toNat_append, ← Nat.shiftLeft_add_eq_or_of_lt mantissa.isLt]
  rfl

theorem pack_normal {j : Nat} (hm : 0 < m) (hlow : 2 ^ 23 ≤ m) (hhigh : m < 2 ^ 24)
    (hj : j + 1 < 2 ^ 8) (he : e = j - 150) :
    UnpackedFloat.pack Format.binary32 (.finite s m e hm) =
      packComponents Format.binary32 s (BitVec.ofNat 8 j) (BitVec.ofNat 23 m) := by
  have hlog : m.log2 = 23 := (Nat.log2_eq_iff (by omega)).2 ⟨hlow, hhigh⟩
  have hbiased : (e + Format.binary32.exponentBias +
      Format.binary32.mantissaBitsWithoutImplicit).toNat = j := by
    show (e + 127 + 23).toNat = j
    omega
  unfold UnpackedFloat.pack
  simp only [hbiased, hlog]
  rw [if_neg (Nat.not_le.2 hj)]
  rfl

theorem pack_subnormal (hm : 0 < m) (hhigh : m < 2 ^ 23) :
    UnpackedFloat.pack Format.binary32 (.finite s m (-149) hm) =
      packComponents Format.binary32 s 0#_ (BitVec.ofNat 23 m) := by
  have hlog : m.log2 + 1 ≠ Format.binary32.mantissaBits := by
    have hlt : m.log2 < 23 := (Nat.log2_lt (by omega)).2 hhigh
    show m.log2 + 1 ≠ 24
    omega
  unfold UnpackedFloat.pack
  simp only
  rw [if_neg hlog]
  rfl

theorem pack_unpack {b : BitVec Format.binary32.numBits} (hvalid : Format.binary32.Valid b) :
    UnpackedFloat.pack Format.binary32 (UnpackedFloat.unpack Format.binary32 b) = b := by
  have hparts := packComponents_unpack b
  unfold UnpackedFloat.unpack
  -- all ones, all zeros, or a normal exponent
  by_cases hexponent : unpackExponent b = -1#_
  · rw [if_pos hexponent]
    by_cases hmantissa : unpackMantissa b = 0#_
    · rw [if_pos hmantissa]
      rw [hexponent, hmantissa] at hparts
      exact hparts
    · -- the payload of what is no number is lost, so this takes that there is only one of them
      rw [if_neg hmantissa]
      exact (hvalid.eq_packedNaN hexponent hmantissa).symm
  rw [if_neg hexponent]
  by_cases hzero : unpackExponent b = 0#_
  · rw [if_pos hzero]
    rw [hzero] at hparts
    by_cases hmantissa : unpackMantissa b = 0#_
    · rw [dif_pos hmantissa]
      rw [hmantissa] at hparts
      exact hparts
    · rw [dif_neg hmantissa, hzero]
      refine (pack_subnormal _ (unpackMantissa b).isLt).trans ?_
      rw [BitVec.ofNat_toNat, BitVec.setWidth_eq]
      exact hparts
  · rw [if_neg hzero]
    have hm := toNat_implicit (unpackMantissa b)
    have hlt : (unpackMantissa b).toNat < 2 ^ 23 := (unpackMantissa b).isLt
    have hj : (unpackExponent b).toNat + 1 < 2 ^ 8 := by
      have hbound : (unpackExponent b).toNat < 2 ^ 8 := (unpackExponent b).isLt
      have hne : (unpackExponent b).toNat ≠ 255 := fun h => hexponent (BitVec.eq_of_toNat_eq h)
      omega
    have hback : BitVec.ofNat 23 (1#1 ++ unpackMantissa b).toNat = unpackMantissa b := by
      refine BitVec.eq_of_toNat_eq ?_
      rw [BitVec.toNat_ofNat, hm]
      omega
    refine (pack_normal _ (by rw [hm]; omega) (by rw [hm]; omega) hj rfl).trans ?_
    rw [hback, BitVec.ofNat_toNat, BitVec.setWidth_eq]
    exact hparts

/-- **Packing undoes unpacking.** -/
theorem ofUnpacked_unpacked (x : Float32) : ofUnpacked (unpacked x) = x := by
  have hbits : UnpackedFloat.pack Format.binary32 (unpacked x) = x.toModel.toBits.toBitVec :=
    pack_unpack x.toModel.valid
  have hmodel : Float32.Model.pack (unpacked x) = x.toModel :=
    (Float32.Model.mk.injEq _ _ _ _).mpr (congrArg UInt32.ofBitVec hbits)
  exact congrArg Float32.ofModel hmodel

theorem unpacked_zero (s : Sign) : unpacked (ofUnpacked (.zero s)) = .zero s := by
  cases s <;> rfl

theorem unpacked_notANumber : unpacked (ofUnpacked .notANumber) = .notANumber := rfl

/-! ## Canonical values -/

/-- A mantissa fills its bits, unless the exponent is the least one. -/
structure Canonical (m : Nat) (e : Int) : Prop where
  below : m < 2 ^ 24
  least : -149 ≤ e
  full : 2 ^ 23 ≤ m ∨ e = -149

/-- What a packed single can unpack to. The sign is the stored one, except for what is no number. -/
theorem unpack_cases (b : BitVec Format.binary32.numBits) :
    let u := UnpackedFloat.unpack Format.binary32 b
    let s := Sign.ofBitVec (unpackSign b)
    u = .notANumber ∨ (unpackExponent b = -1#_ ∧ u = .infinity s) ∨ u = .zero s ∨
      ∃ m e hm, Canonical m e ∧ e = max ((unpackExponent b).toNat : Int) 1 - 150 ∧
        u = .finite s m e hm := by
  intro u s
  have hlt : (unpackMantissa b).toNat < 2 ^ 23 := (unpackMantissa b).isLt
  have hu : u = UnpackedFloat.unpack Format.binary32 b := rfl
  unfold UnpackedFloat.unpack at hu
  by_cases hexponent : unpackExponent b = -1#_
  · rw [if_pos hexponent] at hu
    by_cases hmantissa : unpackMantissa b = 0#_
    · rw [if_pos hmantissa] at hu
      exact .inr (.inl ⟨hexponent, hu⟩)
    · rw [if_neg hmantissa] at hu
      exact .inl hu
  rw [if_neg hexponent] at hu
  by_cases hzero : unpackExponent b = 0#_
  · rw [if_pos hzero, hzero] at hu
    rw [hzero]
    by_cases hmantissa : unpackMantissa b = 0#_
    · rw [dif_pos hmantissa] at hu
      exact .inr (.inr (.inl hu))
    · rw [dif_neg hmantissa] at hu
      refine .inr (.inr (.inr ⟨_, _, _, ?_, rfl, hu⟩))
      exact ⟨Nat.lt_trans hlt (by decide), Int.le_refl _, .inr rfl⟩
  · rw [if_neg hzero] at hu
    have himplicit := toNat_implicit (unpackMantissa b)
    have hpos : (unpackExponent b).toNat ≠ 0 := fun h => hzero (BitVec.eq_of_toNat_eq h)
    refine .inr (.inr (.inr ⟨_, _, _, ⟨?_, ?_, .inl ?_⟩, ?_, hu⟩))
    · show (1#1 ++ unpackMantissa b).toNat < 2 ^ 24
      omega
    · show (-149 : Int) ≤ (unpackExponent b).toNat - (127 + 23)
      omega
    · show 2 ^ 23 ≤ (1#1 ++ unpackMantissa b).toNat
      omega
    · show ((unpackExponent b).toNat : Int) - (127 + 23) = _
      omega

theorem canonical_unpacked {hm : 0 < m} (h : unpacked x = .finite s m e hm) : Canonical m e := by
  have hu : UnpackedFloat.unpack Format.binary32 x.toModel.toBits.toBitVec = .finite s m e hm := h
  rcases unpack_cases x.toModel.toBits.toBitVec with
    hx | ⟨-, hx⟩ | hx | ⟨n, k, hn, hcanonical, -, hx⟩
  · cases hx.symm.trans hu
  · cases hx.symm.trans hu
  · cases hx.symm.trans hu
  · injection hx.symm.trans hu with _ hmantissa hexponent
    rw [← hmantissa, ← hexponent]
    exact hcanonical

theorem log2_mul_two_pow (hm : 0 < m) (j : Nat) : (m * 2 ^ j).log2 = m.log2 + j := by
  induction j with
  | zero => rw [Nat.pow_zero, Nat.mul_one, Nat.add_zero]
  | succ j ih =>
    have hpos : m * 2 ^ j ≠ 0 := Nat.ne_of_gt (Nat.mul_pos hm (Nat.two_pow_pos j))
    rw [Nat.pow_succ, ← Nat.mul_assoc, Nat.mul_comm, Nat.log2_two_mul hpos, ih]
    rfl

/-- Zeros behind a canonical mantissa do not change the exponent that it should have. -/
theorem Canonical.targetExponent (h : Canonical m e) (hm : 0 < m) (j : Nat) :
    Format.binary32.targetExponent (Float.Model.totalExponent (m * 2 ^ j) (e - j)) = e := by
  have hleast := h.least
  have hlog : m.log2 < 24 := (Nat.log2_lt (Nat.ne_of_gt hm)).2 h.below
  have hfull : m.log2 = 23 ∨ e = -149 := by
    rcases h.full with hfull | hleast
    · exact .inl ((Nat.log2_eq_iff (Nat.ne_of_gt hm)).2 ⟨hfull, h.below⟩)
    · exact .inr hleast
  show max ((((m * 2 ^ j).log2 : Nat) : Int) + 1 + (e - j) - (24 : Nat)) (-149) = e
  rw [log2_mul_two_pow hm]
  omega

/-- Shifting out zeros loses nothing. -/
theorem shiftRight_exact (m j : Nat) :
    ExtendedMantissa.ofMantissaAndAccuracy (m * 2 ^ j) .exact >>> j =
      ExtendedMantissa.ofMantissaAndAccuracy m .exact := by
  induction j generalizing m with
  | zero =>
    rw [Nat.pow_zero, Nat.mul_one]
    rfl
  | succ j ih =>
    have hdouble : m * 2 ^ (j + 1) = m * 2 * 2 ^ j := by
      rw [Nat.pow_succ, Nat.mul_assoc, Nat.mul_comm 2]
    show ExtendedMantissa.shiftRightOne
      (ExtendedMantissa.ofMantissaAndAccuracy (m * 2 ^ (j + 1)) .exact >>> j) = _
    rw [hdouble, ih]
    show (⟨m * 2 / 2, m * 2 % 2 != 0, false || false⟩ : ExtendedMantissa) = ⟨m, false, false⟩
    rw [Nat.mul_div_cancel _ Nat.two_pos, Nat.mul_mod_left]
    rfl

/-- Shifting a mantissa divides it, whatever is known of the bits behind it. -/
theorem mantissa_shift (m : Nat) (a : UnpackedFloat.Accuracy) (j : Nat) :
    (ExtendedMantissa.ofMantissaAndAccuracy m a >>> j).mantissa = m / 2 ^ j := by
  induction j with
  | zero =>
    rw [Nat.pow_zero, Nat.div_one]
    cases a with
    | exact => rfl
    | inexact o => cases o <;> rfl
  | succ j ih =>
    show (ExtendedMantissa.ofMantissaAndAccuracy m a >>> j).mantissa / 2 = _
    rw [ih, Nat.div_div_eq_div_mul, Nat.pow_succ]

/-- Rounding shifts a mantissa, rounds it, and shifts it again in case it has become too long. -/
theorem roundWithAccuracy_eq (spec : Format) (s : Sign) (m : Nat) (e : Int)
    (a : UnpackedFloat.Accuracy) {p q : ExtendedMantissa × Int}
    (hp : UnpackedFloat.shiftToTargetExponent spec m e a = p)
    (hq : UnpackedFloat.shiftToTargetExponent spec p.1.roundedMantissa p.2 .exact = q) :
    UnpackedFloat.roundWithAccuracy spec s m e a =
      if h : q.1.mantissa = 0 then .zero s
      else .finite s q.1.mantissa q.2 (Nat.pos_of_ne_zero h) := by
  subst hp hq
  rfl

/-- **A canonical value is rounded to itself**, however many zeros are put behind its mantissa. -/
theorem round_canonical (h : Canonical m e) (hm : 0 < m) (j : Nat) :
    UnpackedFloat.roundWithAccuracy Format.binary32 s (m * 2 ^ j) (e - j) .exact =
      .finite s m e hm := by
  have hshift (j : Nat) :
      UnpackedFloat.shiftToTargetExponent Format.binary32 (m * 2 ^ j) (e - j) .exact =
        (ExtendedMantissa.ofMantissaAndAccuracy m .exact, e) := by
    unfold UnpackedFloat.shiftToTargetExponent UnpackedFloat.shiftToExponent
    simp only [h.targetExponent hm]
    have hj : (e - (e - j)).toNat = j := by omega
    rw [hj, shiftRight_exact]
    congr 1
    omega
  have hagain := hshift 0
  have he : e - (0 : Nat) = e := by omega
  rw [Nat.pow_zero, Nat.mul_one, he] at hagain
  rw [roundWithAccuracy_eq Format.binary32 s _ _ _ (hshift j) hagain]
  exact dif_neg (Nat.ne_of_gt hm)

theorem roundWithAccuracy_cases (s : Sign) (m : Nat) (e : Int) (a : UnpackedFloat.Accuracy) :
    UnpackedFloat.roundWithAccuracy Format.binary32 s m e a = .zero s ∨
      ∃ n k hn, UnpackedFloat.roundWithAccuracy Format.binary32 s m e a = .finite s n k hn := by
  have hround := roundWithAccuracy_eq Format.binary32 s m e a rfl rfl
  by_cases hzero : (UnpackedFloat.shiftToTargetExponent Format.binary32
      (UnpackedFloat.shiftToTargetExponent Format.binary32 m e a).1.roundedMantissa
      (UnpackedFloat.shiftToTargetExponent Format.binary32 m e a).2 .exact).1.mantissa = 0
  · rw [dif_pos hzero] at hround
    exact .inl hround
  · rw [dif_neg hzero] at hround
    exact .inr ⟨_, _, _, hround⟩

/-! ## Order -/

theorem lt_iff : x < y ↔ (unpacked x).lt (unpacked y) = true := decide_eq_true_iff

theorem le_iff : x ≤ y ↔ (unpacked x).le (unpacked y) = true := decide_eq_true_iff

theorem lt_positive {hm : 0 < m} {hn : 0 < n} :
    UnpackedFloat.lt (.finite .positive m e hm) (.finite .positive n k hn) = true ↔
      e < k ∨ e = k ∧ m < n := by
  show (some ((compare e k).then (compare m n)) == some .lt) = true ↔ _
  rw [beq_iff_eq, Option.some_inj, Ordering.then_eq_lt, Int.compare_eq_lt, Int.compare_eq_eq,
    Nat.compare_eq_lt]

theorem le_positive {hm : 0 < m} {hn : 0 < n} :
    UnpackedFloat.le (.finite .positive m e hm) (.finite .positive n k hn) = true ↔
      e < k ∨ e = k ∧ m ≤ n := by
  show ((compare e k).then (compare m n)).isLE = true ↔ _
  rw [Ordering.isLE_then_iff_or, Int.compare_eq_lt, Int.compare_eq_eq, Nat.isLE_compare]

end Single

end LaneChart
