import LaneChart.Json.Number
import LaneChart.Proofs.Plane.Patterns

/-!
# Doubles near a value

A number of a document goes by way of a double: its digits are multiplied or divided by a power of
ten. It is enough here to know that each of these operations is off by one unit in the last place at
most (`Near`), as long as nothing comes near the ends of the range:

> `near_mul`, `near_div`, `near_ofNat`, `near_powerOfTen`: one operation on doubles of
> moderate size.
> `narrow_eq`: the double is then rounded to the single nearest to its value.
-/

namespace LaneChart

namespace Double

open Float.Model (Format UnpackedFloat)
open Float.Model.UnpackedFloat (Sign Accuracy ExtendedMantissa unpackSign unpackExponent
  unpackMantissa packComponents)

variable {x y : Float} {v w r : ℚ} {m n b c : Nat} {e k : Int}

/-- A double, unpacked. -/
def unpacked (x : Float) : UnpackedFloat := x.toModel.unpack

/-- The double in which an unpacked value is stored. -/
def ofUnpacked (u : UnpackedFloat) : Float := .ofModel (.pack u)

/-- A positive double with a full mantissa stores a value, its exponent within some bounds. -/
def Stores (b : Nat) (x : Float) (v : ℚ) : Prop :=
  ∃ m k hm, unpacked x = .finite .positive m k hm ∧ 2 ^ 52 ≤ m ∧ m < 2 ^ 53 ∧ k.natAbs ≤ b ∧
    v = m * 2 ^ k

/-- A positive double stores a value that is near to another one, up to a share of that one. -/
def Near (b : Nat) (ε : ℚ) (x : Float) (r : ℚ) : Prop := ∃ v, Stores b x v ∧ |v - r| ≤ ε * r

theorem Stores.mono (h : Stores b x v) (hb : b ≤ c) : Stores c x v := by
  obtain ⟨m, k, hm, hx, hlow, hhigh, hk, hv⟩ := h
  exact ⟨m, k, hm, hx, hlow, hhigh, Nat.le_trans hk hb, hv⟩

theorem Near.mono {ε δ : ℚ} (h : Near b ε x r) (hb : b ≤ c) (hδ : ε ≤ δ) (hr : 0 < r) :
    Near c δ x r := by
  obtain ⟨v, hv, hnear⟩ := h
  exact ⟨v, hv.mono hb, hnear.trans (mul_le_mul_of_nonneg_right hδ hr.le)⟩

/-! ## Packing -/

/-- What is stored for a full mantissa: its exponent with a bias, and all of its bits but
the first. -/
theorem pack_full (hm : 0 < m) (hlow : 2 ^ 52 ≤ m) (hhigh : m < 2 ^ 53) (hk : k.natAbs ≤ 900) :
    UnpackedFloat.pack Format.binary64 (.finite .positive m k hm) =
      packComponents Format.binary64 .positive (BitVec.ofNat 11 (k + 1075).toNat)
        (BitVec.ofNat 52 m) := by
  have hlog : m.log2 = 52 := (Nat.log2_eq_iff (by omega)).2 ⟨hlow, hhigh⟩
  have hbiased : (k + Format.binary64.exponentBias +
      Format.binary64.mantissaBitsWithoutImplicit).toNat = (k + 1075).toNat := by
    show (k + 1023 + 52).toNat = (k + 1075).toNat
    omega
  have hroom : ¬ 2 ^ Format.binary64.exponentBits ≤ (k + 1075).toNat + 1 := by
    show ¬ 2048 ≤ (k + 1075).toNat + 1
    omega
  unfold UnpackedFloat.pack
  dsimp only
  rw [hbiased, hlog, if_neg hroom]
  rfl

/-- What is stored with a full mantissa is unpacked again. -/
theorem unpacked_ofUnpacked (hm : 0 < m) (hlow : 2 ^ 52 ≤ m) (hhigh : m < 2 ^ 53)
    (hk : k.natAbs ≤ 900) :
    unpacked (ofUnpacked (.finite .positive m k hm)) = .finite .positive m k hm := by
  show UnpackedFloat.unpack Format.binary64 (UnpackedFloat.pack Format.binary64 _) = _
  rw [pack_full hm hlow hhigh hk]
  generalize hw : packComponents Format.binary64 .positive (BitVec.ofNat 11 (k + 1075).toNat)
    (BitVec.ofNat 52 m) = w
  have hfield : w.toNat / 2 ^ 52 % 2 ^ 11 = (k + 1075).toNat := by
    refine (Single.toNat_unpackExponent w).symm.trans ?_
    rw [← hw, UnpackedFloat.unpackExponent_packComponents, BitVec.toNat_ofNat]
    show (k + 1075).toNat % 2048 = (k + 1075).toNat
    omega
  have hstored : w.toNat % 2 ^ 52 + 2 ^ 52 = m := by
    have hmantissa : w.toNat % 2 ^ 52 = m % 2 ^ 52 := by
      refine (Single.toNat_unpackMantissa w).symm.trans ?_
      rw [← hw, UnpackedFloat.unpackMantissa_packComponents, BitVec.toNat_ofNat]
    omega
  have hsign : Sign.ofBitVec (unpackSign w) = .positive := by
    rw [← hw, Single.unpackSign_packComponents]
    rfl
  have hcases := Single.unpack_cases_toNat w
  dsimp only at hcases
  rw [hsign] at hcases
  obtain ⟨hlast, -⟩ | ⟨hfirst, -⟩ | ⟨-, -, hm', hx⟩ := hcases
  · replace hlast : w.toNat / 2 ^ 52 % 2 ^ 11 = 2047 := hlast
    omega
  · replace hfirst : w.toNat / 2 ^ 52 % 2 ^ 11 = 0 := hfirst
    omega
  · refine hx.trans ?_
    congr 1
    show ((w.toNat / 2 ^ 52 % 2 ^ 11 : Nat) : Int) - (1023 + 52 : Nat) = k
    omega

/-! ## Rounding -/

/-- A mantissa that is full, or longer than that, is cut to its first bits. -/
theorem shift_full (a : Accuracy) (hlow : 2 ^ 52 ≤ m) (he : -1000 ≤ e) :
    UnpackedFloat.shiftToTargetExponent Format.binary64 m e a =
      (ExtendedMantissa.ofMantissaAndAccuracy m a >>> (m.log2 - 52), e + (m.log2 - 52 : Nat)) := by
  have hlog : 52 ≤ m.log2 := (Nat.le_log2 (by omega)).2 hlow
  have hamount : (Format.binary64.targetExponent (Float.Model.totalExponent m e) - e).toNat =
      m.log2 - 52 := by
    show (max ((m.log2 : Int) + 1 + e - (53 : Nat)) (-1074) - e).toNat = _
    omega
  unfold UnpackedFloat.shiftToTargetExponent UnpackedFloat.shiftToExponent
  simp only [hamount]

theorem div_two_pow_bounds (hlow : 2 ^ 52 ≤ m) :
    2 ^ 52 ≤ m / 2 ^ (m.log2 - 52) ∧ m / 2 ^ (m.log2 - 52) < 2 ^ 53 := by
  have hlog : 52 ≤ m.log2 := (Nat.le_log2 (by omega)).2 hlow
  constructor
  · rw [Nat.le_div_iff_mul_le (Nat.two_pow_pos _), ← Nat.pow_add]
    refine Nat.le_trans (Nat.pow_le_pow_right Nat.two_pos ?_) (Nat.log2_self_le (by omega))
    omega
  · refine Nat.div_lt_of_lt_mul (Nat.lt_of_lt_of_le Nat.lt_log2_self ?_)
    rw [← Nat.pow_add]
    exact Nat.pow_le_pow_right Nat.two_pos (by omega)

theorem cut_bounds (m c : Nat) : m / 2 ^ c * 2 ^ c ≤ m ∧ m + 1 ≤ (m / 2 ^ c + 1) * 2 ^ c := by
  have hdiv := Nat.div_add_mod m (2 ^ c)
  have hmod := Nat.mod_lt m (Nat.two_pow_pos c)
  rw [Nat.add_mul, Nat.one_mul, Nat.mul_comm]
  omega

/-- Rounding takes what is left after the cut, or one more, which may make it one bit too long. -/
theorem round_full (a : Accuracy) (hlow : 2 ^ 52 ≤ m) (he : -1000 ≤ e) :
    ∃ kept n k hn, UnpackedFloat.roundWithAccuracy Format.binary64 .positive m e a =
        .finite .positive n k hn ∧
      m / 2 ^ (m.log2 - 52) ≤ kept ∧ kept ≤ m / 2 ^ (m.log2 - 52) + 1 ∧ 2 ^ 52 ≤ n ∧ n < 2 ^ 53 ∧
      e + (m.log2 - 52 : Nat) ≤ k ∧ k ≤ e + (m.log2 - 52 : Nat) + 1 ∧
      (n * 2 ^ k : ℚ) = kept * 2 ^ (e + (m.log2 - 52 : Nat)) := by
  obtain ⟨hqlow, hqhigh⟩ := div_two_pow_bounds hlow
  have hshift := shift_full a hlow he
  have hmantissa := Single.mantissa_shift m a (m.log2 - 52)
  generalize ExtendedMantissa.ofMantissaAndAccuracy m a >>> (m.log2 - 52) = x at hshift hmantissa
  have hfrom := Single.le_roundedMantissa x
  have hto := Single.roundedMantissa_le x
  rw [hmantissa] at hfrom hto
  have hfull := Nat.le_trans hqlow hfrom
  obtain ⟨hnlow, hnhigh⟩ := div_two_pow_bounds hfull
  have hround := Single.roundWithAccuracy_eq Format.binary64 .positive m e a hshift
    (shift_full .exact hfull (by show -1000 ≤ e + _; omega))
  dsimp only at hround
  rw [Single.mantissa_shift, dif_neg (by omega)] at hround
  -- rounding adds one bit at most, and then only zeros are behind it
  obtain hsame | hcarry : x.roundedMantissa < 2 ^ 53 ∨ x.roundedMantissa = 2 ^ 53 := by omega
  · have hlog : x.roundedMantissa.log2 = 52 := (Nat.log2_eq_iff (by omega)).2 ⟨hfull, hsame⟩
    refine ⟨_, _, _, _, hround, hfrom, hto, hnlow, hnhigh, by omega, by omega, ?_⟩
    rw [hlog]
    simp
  · have hlog : x.roundedMantissa.log2 = 53 := by rw [hcarry, Nat.log2_two_pow]
    refine ⟨_, _, _, _, hround, hfrom, hto, hnlow, hnhigh, by omega, by omega, ?_⟩
    have hhalf : 2 ^ 53 / 2 ^ (53 - 52) = 2 ^ 52 := by decide
    rw [hlog, hcarry, hhalf, zpow_add₀ two_ne_zero]
    push_cast
    ring

/-- **Rounding a mantissa that is full**, or longer than that: the result and what was rounded lie
between the same multiples of the last place. -/
theorem near_round (a : Accuracy) (hlow : 2 ^ 52 ≤ m) (hhigh : m < 2 ^ 106) (he : e.natAbs ≤ b)
    (hb : b ≤ 800) (hfrom : (m * 2 ^ e : ℚ) ≤ r) (hto : r ≤ (m + 1) * 2 ^ e) :
    Near (b + 55) (1 / 2 ^ 52)
      (ofUnpacked (UnpackedFloat.roundWithAccuracy Format.binary64 .positive m e a)) r := by
  obtain ⟨kept, n, k, hn, hround, hkeptFrom, hkeptTo, hnlow, hnhigh, hkfrom, hkto, hvalue⟩ :=
    round_full a hlow (by omega : -1000 ≤ e)
  obtain ⟨hqlow, -⟩ := div_two_pow_bounds hlow
  have hlog : m.log2 < 106 := (Nat.log2_lt (by omega)).2 hhigh
  have hk : k.natAbs ≤ b + 55 := by omega
  generalize hc : m.log2 - 52 = c at *
  generalize hq : m / 2 ^ c = q at *
  have hcut := cut_bounds m c
  rw [hq] at hcut
  have hunit : (2 : ℚ) ^ (e + (c : Int)) = 2 ^ c * 2 ^ e := by
    rw [zpow_add₀ two_ne_zero, zpow_natCast, mul_comm]
  have hpos : (0 : ℚ) < 2 ^ (e + (c : Int)) := by positivity
  have hepos : (0 : ℚ) < 2 ^ e := by positivity
  have hrfrom : (q : ℚ) * 2 ^ (e + (c : Int)) ≤ r := by
    rw [hunit, ← mul_assoc]
    refine le_trans ?_ hfrom
    gcongr
    exact_mod_cast hcut.1
  have hrto : r ≤ (q + 1 : ℚ) * 2 ^ (e + (c : Int)) := by
    rw [hunit, ← mul_assoc]
    refine hto.trans ?_
    gcongr
    exact_mod_cast hcut.2
  refine ⟨n * 2 ^ k, ⟨n, k, hn, ?_, hnlow, hnhigh, hk, rfl⟩, ?_⟩
  · rw [hround]
    exact unpacked_ofUnpacked hn hnlow hnhigh (by omega)
  · -- both are between these two multiples, and the lower one has a full mantissa
    rw [hvalue]
    have hkept : (q : ℚ) ≤ kept ∧ (kept : ℚ) ≤ q + 1 :=
      ⟨by exact_mod_cast hkeptFrom, by exact_mod_cast hkeptTo⟩
    have hfull : (2 ^ 52 : ℚ) ≤ q := by exact_mod_cast hqlow
    have hvfrom : (q : ℚ) * 2 ^ (e + (c : Int)) ≤ kept * 2 ^ (e + (c : Int)) :=
      mul_le_mul_of_nonneg_right hkept.1 hpos.le
    have hvto : (kept : ℚ) * 2 ^ (e + (c : Int)) ≤ (q + 1) * 2 ^ (e + (c : Int)) :=
      mul_le_mul_of_nonneg_right hkept.2 hpos.le
    have hlast : (2 : ℚ) ^ (e + (c : Int)) ≤ 1 / 2 ^ 52 * r := by
      rw [one_div_mul_eq_div, le_div_iff₀ (by norm_num)]
      refine le_trans ?_ hrfrom
      rw [mul_comm]
      gcongr
    rw [abs_le]
    constructor <;> linarith

/-! ## Operations -/

/-- Products of near values are near to the product. -/
theorem abs_mul_sub_le {v w r s ε δ : ℚ} (hv : |v - r| ≤ ε * r) (hw : |w - s| ≤ δ * s) (hr : 0 < r)
    (hs : 0 < s) (hε : 0 ≤ ε ∧ ε ≤ 1 / 4) (hδ : 0 ≤ δ ∧ δ ≤ 1 / 4) :
    |v * w - r * s| ≤ 2 * (ε + δ) * (r * s) := by
  have hexpand : v * w - r * s = (v - r) * s + r * (w - s) + (v - r) * (w - s) := by ring
  have hcross : |v - r| * |w - s| ≤ ε * r * (δ * s) :=
    mul_le_mul hv hw (abs_nonneg _) (mul_nonneg hε.1 hr.le)
  have hsmall : ε * δ ≤ ε * 1 := mul_le_mul_of_nonneg_left (by linarith) hε.1
  calc |v * w - r * s|
    _ ≤ |(v - r) * s| + |r * (w - s)| + |(v - r) * (w - s)| := by
      rw [hexpand]
      exact (abs_add_le _ _).trans (by gcongr; exact abs_add_le _ _)
    _ = |v - r| * s + r * |w - s| + |v - r| * |w - s| := by
      rw [abs_mul, abs_mul, abs_mul, abs_of_pos hr, abs_of_pos hs]
    _ ≤ ε * r * s + r * (δ * s) + ε * r * (δ * s) := by gcongr
    _ = (ε + δ + ε * δ) * (r * s) := by ring
    _ ≤ 2 * (ε + δ) * (r * s) := by
      gcongr
      linarith

/-- **A product**, rounded. -/
theorem near_mul {ε δ s : ℚ} (hx : Near b ε x r) (hy : Near c δ y s) (hr : 0 < r) (hs : 0 < s)
    (hbc : b + c ≤ 800) (hε : 0 ≤ ε ∧ ε ≤ 1 / 4) (hδ : 0 ≤ δ ∧ δ ≤ 1 / 4) :
    Near (b + c + 55) (2 * (ε + δ) + 1 / 2 ^ 51) (x * y) (r * s) := by
  obtain ⟨v, ⟨m, e, hm, hxu, hmlow, hmhigh, he, rfl⟩, hv⟩ := hx
  obtain ⟨w, ⟨n, k, hn, hyu, hnlow, hnhigh, hk, rfl⟩, hw⟩ := hy
  have hlow : 2 ^ 52 ≤ m * n := Nat.le_trans hmlow (Nat.le_mul_of_pos_right m hn)
  have hhigh : m * n < 2 ^ 53 * 2 ^ 53 := Nat.mul_lt_mul'' hmhigh hnhigh
  have hvalue : ((m * n : Nat) * 2 ^ (e + k) : ℚ) = m * 2 ^ e * (n * 2 ^ k) := by
    rw [zpow_add₀ two_ne_zero]
    push_cast
    ring
  have hstep : (0 : ℚ) ≤ 2 ^ (e + k) := by positivity
  obtain ⟨z, hz, hround⟩ := near_round .exact hlow hhigh (by omega : (e + k).natAbs ≤ b + c) hbc
    hvalue.le (by rw [← hvalue]; nlinarith)
  have hxy : x * y = ofUnpacked (UnpackedFloat.mul Format.binary64 (unpacked x) (unpacked y)) := rfl
  refine ⟨z, ?_, ?_⟩
  · rw [hxy, hxu, hyu]
    exact hz
  · have hexact := abs_mul_sub_le hv hw hr hs hε hδ
    have hpos : 0 < r * s := mul_pos hr hs
    rw [abs_le] at hround hexact ⊢
    constructor <;> nlinarith

/-- Quotients of near values are near to the quotient. -/
theorem abs_div_sub_le {v w r s ε δ : ℚ} (hv : |v - r| ≤ ε * r) (hw : |w - s| ≤ δ * s) (hr : 0 < r)
    (hs : 0 < s) (hε : 0 ≤ ε) (hδ : 0 ≤ δ ∧ δ ≤ 1 / 4) :
    |v / w - r / s| ≤ 2 * (ε + δ) * (r / s) := by
  have hhalf : s / 2 ≤ w := by
    have hbelow := (abs_le.1 hw).1
    have hshare : δ * s ≤ 1 / 4 * s := by gcongr; exact hδ.2
    linarith
  have hwpos : 0 < w := by linarith
  have hdifference : v / w - r / s = ((v - r) * s - r * (w - s)) / (w * s) := by
    field_simp
    ring
  have hnumerator : |(v - r) * s - r * (w - s)| ≤ (ε + δ) * (r * s) := by
    calc |(v - r) * s - r * (w - s)|
      _ ≤ |(v - r) * s| + |r * (w - s)| := abs_sub _ _
      _ = |v - r| * s + r * |w - s| := by rw [abs_mul, abs_mul, abs_of_pos hr, abs_of_pos hs]
      _ ≤ ε * r * s + r * (δ * s) := by gcongr
      _ = (ε + δ) * (r * s) := by ring
  rw [hdifference, abs_div, abs_of_pos (mul_pos hwpos hs), div_le_iff₀ (mul_pos hwpos hs)]
  refine hnumerator.trans ?_
  have hshare : 0 ≤ (ε + δ) * r := mul_nonneg (add_nonneg hε hδ.1) hr.le
  calc (ε + δ) * (r * s) = 2 * ((ε + δ) * r) * (s / 2) := by ring
    _ ≤ 2 * ((ε + δ) * r) * w := by gcongr
    _ = 2 * (ε + δ) * (r / s) * (w * s) := by field_simp

/-- Full mantissas are divided to a full mantissa. -/
theorem divCore_full {n : Nat} (hmlow : 2 ^ 52 ≤ m) (hmhigh : m < 2 ^ 53) (hnlow : 2 ^ 52 ≤ n)
    (hnhigh : n < 2 ^ 53) (hk : -1000 ≤ e - k) :
    ∃ a, UnpackedFloat.divCore Format.binary64 m e n k = (m * 2 ^ 53 / n, e - k - 53, a) := by
  have hmlog : m.log2 = 52 := (Nat.log2_eq_iff (by omega)).2 ⟨hmlow, hmhigh⟩
  have hnlog : n.log2 = 52 := (Nat.log2_eq_iff (by omega)).2 ⟨hnlow, hnhigh⟩
  have htarget : min (e - k) (Format.binary64.targetExponent
      (Float.Model.totalExponent m e - Float.Model.totalExponent n k)) = e - k - 53 := by
    show min (e - k)
      (max ((m.log2 : Int) + 1 + e - ((n.log2 : Int) + 1 + k) - (53 : Nat)) (-1074)) = _
    omega
  have hshift : (e - k - (e - k - 53)).toNat = 53 := by omega
  unfold UnpackedFloat.divCore
  simp only [htarget, hshift, Nat.shiftLeft_eq]
  exact ⟨_, rfl⟩

/-- Their quotient is full or longer than that, and the exact one is less than one above it. -/
theorem div_full {n : Nat} (hmlow : 2 ^ 52 ≤ m) (hmhigh : m < 2 ^ 53) (hnlow : 2 ^ 52 ≤ n)
    (hnhigh : n < 2 ^ 53) :
    2 ^ 52 ≤ m * 2 ^ 53 / n ∧ m * 2 ^ 53 / n < 2 ^ 106 ∧
      ((m * 2 ^ 53 / n : Nat) : ℚ) ≤ m * 2 ^ 53 / n ∧
      (m * 2 ^ 53 / n : ℚ) ≤ (m * 2 ^ 53 / n : Nat) + 1 := by
  have hn : 0 < n := by omega
  have hnpos : (0 : ℚ) < n := by exact_mod_cast hn
  have hdiv := Nat.div_add_mod (m * 2 ^ 53) n
  have hmod := Nat.mod_lt (m * 2 ^ 53) hn
  have hle : m * 2 ^ 53 / n * n ≤ m * 2 ^ 53 := by
    rw [Nat.mul_comm]
    omega
  have hlt : m * 2 ^ 53 ≤ (m * 2 ^ 53 / n + 1) * n := by
    rw [Nat.add_mul, Nat.mul_comm (_ / n)]
    omega
  refine ⟨?_, Nat.lt_of_le_of_lt (Nat.div_le_self _ _) (by omega), ?_, ?_⟩
  · rw [Nat.le_div_iff_mul_le hn]
    exact Nat.mul_le_mul hmlow hnhigh.le
  · rw [le_div_iff₀ hnpos]
    exact_mod_cast hle
  · rw [div_le_iff₀ hnpos]
    exact_mod_cast hlt

/-- **A quotient**, rounded. -/
theorem near_div {ε δ s : ℚ} (hx : Near b ε x r) (hy : Near c δ y s) (hr : 0 < r) (hs : 0 < s)
    (hbc : b + c + 53 ≤ 800) (hε : 0 ≤ ε ∧ ε ≤ 1 / 4) (hδ : 0 ≤ δ ∧ δ ≤ 1 / 4) :
    Near (b + c + 53 + 55) (2 * (ε + δ) + 1 / 2 ^ 51) (x / y) (r / s) := by
  obtain ⟨v, ⟨m, e, hm, hxu, hmlow, hmhigh, he, rfl⟩, hv⟩ := hx
  obtain ⟨w, ⟨n, k, hn, hyu, hnlow, hnhigh, hk, rfl⟩, hw⟩ := hy
  obtain ⟨a, hcore⟩ := divCore_full hmlow hmhigh hnlow hnhigh (by omega : -1000 ≤ e - k)
  obtain ⟨hlow, hhigh, hfrom, hto⟩ := div_full hmlow hmhigh hnlow hnhigh
  have hnpos : (0 : ℚ) < n := by exact_mod_cast hn
  have hvalue : (m * 2 ^ e / (n * 2 ^ k) : ℚ) = m * 2 ^ 53 / n * 2 ^ (e - k - 53) := by
    have hsplit : (2 : ℚ) ^ e = 2 ^ (e - k - 53) * 2 ^ k * 2 ^ 53 := by
      rw [← zpow_natCast (2 : ℚ) 53, ← zpow_add₀ two_ne_zero, ← zpow_add₀ two_ne_zero]
      congr 1
      show e = e - k - 53 + k + 53
      omega
    have hkpos : (0 : ℚ) < 2 ^ k := by positivity
    rw [hsplit]
    field_simp
  obtain ⟨z, hz, hround⟩ :=
    near_round a hlow hhigh (by omega : (e - k - 53).natAbs ≤ b + c + 53) hbc
    (r := m * 2 ^ e / (n * 2 ^ k)) (by rw [hvalue]; gcongr) (by rw [hvalue]; gcongr)
  have hxy : x / y = ofUnpacked (UnpackedFloat.div Format.binary64 (unpacked x) (unpacked y)) := rfl
  have hquotient : UnpackedFloat.div Format.binary64 (.finite .positive m e hm)
      (.finite .positive n k hn) =
        UnpackedFloat.roundWithAccuracy Format.binary64 .positive (m * 2 ^ 53 / n) (e - k - 53)
          a := by
    unfold UnpackedFloat.div
    dsimp only
    rw [hcore]
    rfl
  refine ⟨z, ?_, ?_⟩
  · rw [hxy, hxu, hyu, hquotient]
    exact hz
  · have hexact := abs_div_sub_le hv hw hr hs hε.1 hδ
    have hpos : 0 < r / s := div_pos hr hs
    rw [abs_le] at hround hexact ⊢
    constructor <;> nlinarith

/-! ## Naturals and powers of ten -/

theorem near_one : Near 52 0 Float.exactlyRepresentablePowersOfTen[0] 1 := by
  refine ⟨1, ⟨2 ^ 52, -52, by decide, by rfl, by decide, by decide, by decide, ?_⟩, by norm_num⟩
  norm_num

/-- **A natural number that fits a mantissa.** -/
theorem near_ofNat {n : Nat} (hpos : 0 < n) (hlt : n < 2 ^ 53) :
    Near 214 (1 / 2 ^ 50) (Float.ofNat n) n := by
  have hlog : n.log2 < 53 := (Nat.log2_lt (by omega)).2 hlt
  have hsize : n.toUInt64.toNat = n :=
    UInt64.toNat_ofNat_of_lt' (by show n < 18446744073709551616; omega)
  have hround : UnpackedFloat.ofUInt64 Format.binary64 n.toUInt64 =
      UnpackedFloat.roundWithAccuracy Format.binary64 .positive (n * 2 ^ (52 - n.log2))
        (-(52 - n.log2 : Nat)) .exact := by
    have hshift : (-Format.binary64.targetExponent (Float.Model.totalExponent n 0)).toNat =
        52 - n.log2 := by
      show (-max ((n.log2 : Int) + 1 + 0 - (53 : Nat)) (-1074)).toNat = _
      omega
    unfold UnpackedFloat.ofUInt64 UnpackedFloat.ofNat UnpackedFloat.ofInt UnpackedFloat.normalize
    rw [hsize, Int.compare_eq_gt.2 (by omega)]
    unfold UnpackedFloat.round UnpackedFloat.decreaseExponent
    simp only [Int.toNat_natCast, Nat.shiftLeft_eq, Int.zero_sub, hshift]
  have hlow : 2 ^ 52 ≤ n * 2 ^ (52 - n.log2) := by
    calc 2 ^ 52 = 2 ^ n.log2 * 2 ^ (52 - n.log2) := by
          rw [← Nat.pow_add]
          congr 1
          omega
      _ ≤ n * 2 ^ (52 - n.log2) := Nat.mul_le_mul_right _ (Nat.log2_self_le (by omega))
  have hhigh : n * 2 ^ (52 - n.log2) < 2 ^ 106 := by
    calc n * 2 ^ (52 - n.log2) ≤ n * 2 ^ 52 :=
          Nat.mul_le_mul_left _ (Nat.pow_le_pow_right Nat.two_pos (by omega))
      _ < 2 ^ 106 := by omega
  have hvalue : ((n * 2 ^ (52 - n.log2) : Nat) * 2 ^ (-(52 - n.log2 : Nat) : Int) : ℚ) = n := by
    push_cast
    rw [zpow_neg, zpow_natCast, mul_assoc, mul_inv_cancel₀ (by positivity), mul_one]
  have hstep : (0 : ℚ) ≤ 2 ^ (-(52 - n.log2 : Nat) : Int) := by positivity
  have hnear : Near 107 (1 / 2 ^ 52) n.toUInt64.toFloat n := by
    have hfloat : n.toUInt64.toFloat =
        ofUnpacked (UnpackedFloat.ofUInt64 Format.binary64 n.toUInt64) := rfl
    rw [hfloat, hround]
    exact near_round .exact hlow hhigh (by omega : _ ≤ 52) (by omega) hvalue.le (by linarith)
  -- the conversion goes on with a product by the first entry of the table of powers, which is one
  have hproduct :
      Float.ofNat n = n.toUInt64.toFloat * Float.exactlyRepresentablePowersOfTen[0] := by
    show Float.ofScientific n false 0 = _
    unfold Float.ofScientific
    rw [dif_pos ⟨hlt, by decide⟩]
    rfl
  have hmul := near_mul hnear near_one (by exact_mod_cast hpos) one_pos (by omega)
    (by norm_num) (by norm_num)
  rw [← hproduct, mul_one] at hmul
  exact hmul.mono (Nat.le_refl _) (by norm_num) (by exact_mod_cast hpos)

/-- Whether a positive value with a full mantissa is `10^k` up to half a place. -/
def isPowerOfTen (k : Nat) : UnpackedFloat → Bool
  | .finite .positive m e _ =>
    let p := Decimal.shiftRatio m 1 e
    decide (2 ^ 52 ≤ m ∧ m < 2 ^ 53 ∧ e.natAbs ≤ 150 ∧
      p.2 * 10 ^ k * (2 ^ 52 - 1) ≤ p.1 * 2 ^ 52 ∧ p.1 * 2 ^ 52 ≤ p.2 * 10 ^ k * (2 ^ 52 + 1))
  | _ => false

/-- The powers of ten that are needed are all of them right up to half a place. -/
theorem isPowerOfTen_of_le {k : Nat} (hk : k ≤ 60) :
    isPowerOfTen k (unpacked (Json.Number.powerOfTen k)) = true := by
  -- the first ones stand in a table and the others are computed, so they are tried one by one
  have hall : ∀ k ∈ List.range 61, isPowerOfTen k (unpacked (Json.Number.powerOfTen k)) = true := by
    decide +kernel
  exact hall k (List.mem_range.2 (by omega))

theorem near_of_isPowerOfTen {k : Nat} (h : isPowerOfTen k (unpacked x) = true) :
    Near 150 (1 / 2 ^ 52) x (10 ^ k) := by
  generalize hu : unpacked x = u at h
  unfold isPowerOfTen at h
  split at h
  · next m e hm =>
    obtain ⟨hlow, hhigh, he, hfrom, hto⟩ := of_decide_eq_true h
    refine ⟨m * 2 ^ e, ⟨m, e, hm, hu, hlow, hhigh, he, rfl⟩, ?_⟩
    have hvalue :
        ((Decimal.shiftRatio m 1 e).1 : ℚ) / (Decimal.shiftRatio m 1 e).2 = m * 2 ^ e := by
      refine (Decimal.ratio_shiftRatio m 1 e).trans ?_
      rw [Nat.cast_one, div_one]
    have hpos : (0 : ℚ) < (Decimal.shiftRatio m 1 e).2 := by
      exact_mod_cast Decimal.shiftRatio_pos m Nat.one_pos e
    rw [← hvalue]
    generalize Decimal.shiftRatio m 1 e = p at hfrom hto hpos
    have hbelow : (p.2 * 10 ^ k * (2 ^ 52 - 1) : ℚ) ≤ p.1 * 2 ^ 52 := by
      have hcast : ((p.2 * 10 ^ k * 4503599627370495 : Nat) : ℚ) ≤ (p.1 * 2 ^ 52 : Nat) := by
        exact_mod_cast hfrom
      push_cast at hcast
      linarith
    have habove : (p.1 * 2 ^ 52 : ℚ) ≤ p.2 * 10 ^ k * (2 ^ 52 + 1) := by exact_mod_cast hto
    have hfloor : (10 ^ k - 1 / 2 ^ 52 * 10 ^ k : ℚ) ≤ p.1 / p.2 := by
      rw [le_div_iff₀ hpos]
      linarith
    have hceil : (p.1 / p.2 : ℚ) ≤ 10 ^ k + 1 / 2 ^ 52 * 10 ^ k := by
      rw [div_le_iff₀ hpos]
      linarith
    rw [abs_le]
    constructor <;> linarith
  · exact absurd h Bool.false_ne_true

/-- **A power of ten.** -/
theorem near_powerOfTen {k : Nat} (hk : k ≤ 60) :
    Near 150 (1 / 2 ^ 52) (Json.Number.powerOfTen k) (10 ^ k) :=
  near_of_isPowerOfTen (isPowerOfTen_of_le hk)

/-! ## Rounding to a single -/

/-- What is near to a value is finite. -/
theorem Near.isInf_eq {ε : ℚ} (h : Near b ε x r) : x.isInf = false := by
  obtain ⟨-, ⟨m, k, hm, hu, -⟩, -⟩ := h
  show (unpacked x).isInf = false
  rw [hu]
  rfl

/-- A pattern without a sign is less than half of all of them. -/
theorem toNat_lt_of_positive {w : BitVec Format.binary64.numBits}
    (h : Sign.positive = Sign.ofBitVec (unpackSign w)) : w.toNat < 2 ^ 63 := by
  have hlt : w.toNat < 2 ^ 64 := w.isLt
  have htoNat : (unpackSign w).toNat = w.toNat / 2 ^ 63 % 2 := Single.toNat_unpackSign w
  unfold Sign.ofBitVec at h
  split at h
  · next hzero =>
    rw [hzero] at htoNat
    have hnone : (0#1).toNat = 0 := rfl
    omega
  · exact absurd h nofun

/-- A pattern with a full mantissa is taken apart into the same significand and last place. -/
theorem parts_of_unpack {w : BitVec Format.binary64.numBits} {hm : 0 < m}
    (h : UnpackedFloat.unpack Format.binary64 w = .finite .positive m k hm) (hfull : 2 ^ 52 ≤ m) :
    w.toNat < 2047 * 2 ^ 52 ∧ Decimal.Format.double.parts w.toNat = (m, k) := by
  have hcases := Single.unpack_cases_toNat w
  dsimp only at hcases
  rw [h] at hcases
  obtain ⟨-, ⟨-, hx⟩ | ⟨-, hx⟩⟩ | ⟨-, ⟨-, hx⟩ | ⟨hm', hx⟩⟩ | ⟨hfirst, hlast, hm', hx⟩ := hcases
  · exact absurd hx nofun
  · exact absurd hx nofun
  · exact absurd hx nofun
  · -- a full mantissa has its leading bit
    injection hx with hs hmantissa
    replace hmantissa : m = w.toNat % 2 ^ 52 := hmantissa
    omega
  · injection hx with hs hmantissa hexponent
    have hmagnitude := toNat_lt_of_positive hs
    replace hfirst : w.toNat / 2 ^ 52 % 2 ^ 11 ≠ 0 := hfirst
    replace hlast : w.toNat / 2 ^ 52 % 2 ^ 11 ≠ 2047 := hlast
    replace hmantissa : m = w.toNat % 2 ^ 52 + 2 ^ 52 := hmantissa
    replace hexponent : k = ((w.toNat / 2 ^ 52 % 2 ^ 11 : Nat) : Int) - (1023 + 52 : Nat) :=
      hexponent
    have hleast : Decimal.Format.double.leastUnit = -1074 := by decide
    refine ⟨by omega, ?_⟩
    unfold Decimal.Format.parts
    rw [hleast]
    show (if w.toNat / 2 ^ 52 % 2 ^ 11 = 0 then _ else
      (w.toNat % 2 ^ 52 + 2 ^ 52, (-1074 : Int) + (w.toNat / 2 ^ 52 % 2 ^ 11 - 1 : Nat))) = _
    rw [if_neg hfirst]
    exact Prod.ext hmantissa.symm (by show _ = k; omega)

/-- **What is stored is rounded to the single nearest to it.** -/
theorem Stores.narrow_eq (h : Stores b x v) :
    ∃ num den : Nat, 0 < num ∧ 0 < den ∧ (num / den : ℚ) = v ∧
      Decimal.narrow x =
        Decimal.singleOfBits false (Decimal.Format.single.nearestBits num den) := by
  obtain ⟨m, k, hm, hu, hmlow, -, -, rfl⟩ := h
  let p := Decimal.shiftRatio m 1 k
  have hp : (p.1 / p.2 : ℚ) = m * 2 ^ k := by
    refine (Decimal.ratio_shiftRatio m 1 k).trans ?_
    rw [Nat.cast_one, div_one]
  have hden : 0 < p.2 := Decimal.shiftRatio_pos m Nat.one_pos k
  have hnum : 0 < p.1 := by
    have hpos : (0 : ℚ) < p.1 / p.2 := by
      rw [hp]
      positivity
    exact_mod_cast (div_pos_iff_of_pos_right (by exact_mod_cast hden)).1 hpos
  refine ⟨p.1, p.2, hnum, hden, hp, ?_⟩
  obtain ⟨hlt, hparts⟩ := parts_of_unpack hu hmlow
  have hnan : x.isNaN = false := by
    show (unpacked x).isNaN = false
    rw [hu]
    rfl
  have hbits : x.toBits.toNat = x.toModel.toBits.toBitVec.toNat := rfl
  generalize x.toModel.toBits.toBitVec.toNat = w at hlt hparts hbits
  have hinfinity : Decimal.Format.double.infinityBits = 2047 * 2 ^ 52 := by decide
  have hmagnitude : w < Nat.pow 2 63 := by
    show w < 2 ^ 63
    omega
  unfold Decimal.narrow
  simp only [hnan, hbits, hinfinity, Nat.mod_eq_of_lt hmagnitude,
    decide_eq_false (Nat.not_le.2 hmagnitude), hparts]
  rw [if_neg Bool.false_ne_true, if_neg (by omega)]

end Double

end LaneChart
