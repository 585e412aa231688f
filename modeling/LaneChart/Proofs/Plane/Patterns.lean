import LaneChart.Decimal.Text
import LaneChart.Layout.Force.Settings
import LaneChart.Proofs.Decimal.Binary
import LaneChart.Proofs.Plane.Range

/-!
# Singles and their patterns

The arithmetic of singles unpacks bits, and the text of a single is made from its pattern as a
natural number. Both take the same pattern apart (`unpack_cases_toNat`, for any format), so what a
check says of a single can be said of its pattern:

> `isFinite_iff_kind`: the finite singles are those with a pattern below infinity.
> `isPositive_iff`, `isNonNegative_iff`, `isShare_iff`: the checks of constants, on patterns.
-/

namespace LaneChart

namespace Single

open Float.Model (Format UnpackedFloat)
open Float.Model.UnpackedFloat (Sign unpackSign unpackExponent unpackMantissa)
open Decimal (Kind kind isNegative singleOfBits)

variable {spec : Format} {x : Float32} {magnitude : Nat}

/-! ## The parts of a pattern -/

theorem toNat_unpackMantissa (b : BitVec spec.numBits) :
    (unpackMantissa b).toNat = b.toNat % 2 ^ spec.mantissaBitsWithoutImplicit := by
  have hwidth : spec.mantissaBitsWithoutImplicit - 1 + 1 = spec.mantissaBitsWithoutImplicit :=
    Nat.sub_add_cancel spec.hm
  simp [unpackMantissa, BitVec.extractLsb, hwidth]

theorem toNat_unpackExponent (b : BitVec spec.numBits) :
    (unpackExponent b).toNat =
      b.toNat / 2 ^ spec.mantissaBitsWithoutImplicit % 2 ^ spec.exponentBits := by
  have hwidth : spec.mantissaBitsWithoutImplicit + spec.exponentBits - 1 -
      spec.mantissaBitsWithoutImplicit + 1 = spec.exponentBits := by
    have hpos := spec.he
    omega
  simp [unpackExponent, BitVec.extractLsb, Nat.shiftRight_eq_div_pow, hwidth]

theorem toNat_unpackSign (b : BitVec spec.numBits) :
    (unpackSign b).toNat =
      b.toNat / 2 ^ (spec.mantissaBitsWithoutImplicit + spec.exponentBits) % 2 := by
  simp [unpackSign_eq, BitVec.extractLsb, Nat.shiftRight_eq_div_pow]

/-- The leading bit stands before those that are stored. -/
theorem toNat_leading_unpackMantissa (b : BitVec spec.numBits) :
    (1#1 ++ unpackMantissa b).toNat =
      b.toNat % 2 ^ spec.mantissaBitsWithoutImplicit + 2 ^ spec.mantissaBitsWithoutImplicit := by
  have hone : (1#1).toNat = 1 := rfl
  rw [BitVec.toNat_append, ← Nat.shiftLeft_add_eq_or_of_lt (unpackMantissa b).isLt,
    toNat_unpackMantissa, Nat.add_comm, Nat.shiftLeft_eq, hone, Nat.one_mul]

/-- **What a pattern unpacks to**, by its exponent and its mantissa as natural numbers. -/
theorem unpack_cases_toNat (b : BitVec spec.numBits) :
    let u := UnpackedFloat.unpack spec b
    let s := Sign.ofBitVec (unpackSign b)
    let bias : Int := spec.exponentBias + spec.mantissaBitsWithoutImplicit
    let field := b.toNat / 2 ^ spec.mantissaBitsWithoutImplicit % 2 ^ spec.exponentBits
    let stored := b.toNat % 2 ^ spec.mantissaBitsWithoutImplicit
    (field = 2 ^ spec.exponentBits - 1 ∧
      (stored = 0 ∧ u = .infinity s ∨ stored ≠ 0 ∧ u = .notANumber)) ∨
    (field = 0 ∧ (stored = 0 ∧ u = .zero s ∨ ∃ hm, u = .finite s stored (1 - bias) hm)) ∨
    (field ≠ 0 ∧ field ≠ 2 ^ spec.exponentBits - 1 ∧
      ∃ hm, u = .finite s (stored + 2 ^ spec.mantissaBitsWithoutImplicit) (field - bias) hm) := by
  intro u s bias field stored
  have hfield : (unpackExponent b).toNat = field := toNat_unpackExponent b
  have hstored : (unpackMantissa b).toNat = stored := toNat_unpackMantissa b
  have hzero {n : Nat} {v : BitVec n} : v = 0#n ↔ v.toNat = 0 := by
    rw [← BitVec.toNat_inj, BitVec.toNat_ofNat, Nat.zero_mod]
  have hones {n : Nat} {v : BitVec n} : v = -1#n ↔ v.toNat = 2 ^ n - 1 := by
    rw [BitVec.neg_one_eq_allOnes, ← BitVec.toNat_inj, BitVec.toNat_allOnes]
  have hu : u = UnpackedFloat.unpack spec b := rfl
  unfold UnpackedFloat.unpack at hu
  dsimp only at hu
  by_cases hlast : field = 2 ^ spec.exponentBits - 1
  · refine .inl ⟨hlast, ?_⟩
    rw [if_pos (hones.2 (hfield.trans hlast))] at hu
    by_cases hnone : stored = 0
    · rw [if_pos (hzero.2 (hstored.trans hnone))] at hu
      exact .inl ⟨hnone, hu⟩
    · rw [if_neg fun h => hnone (hstored.symm.trans (hzero.1 h))] at hu
      exact .inr ⟨hnone, hu⟩
  rw [if_neg fun h => hlast (hfield.symm.trans (hones.1 h))] at hu
  by_cases hfirst : field = 0
  · refine .inr (.inl ⟨hfirst, ?_⟩)
    rw [if_pos (hzero.2 (hfield.trans hfirst))] at hu
    by_cases hnone : stored = 0
    · rw [dif_pos (hzero.2 (hstored.trans hnone))] at hu
      exact .inl ⟨hnone, hu⟩
    · rw [dif_neg fun h => hnone (hstored.symm.trans (hzero.1 h))] at hu
      refine .inr ⟨Nat.pos_of_ne_zero hnone, hu.trans ?_⟩
      congr 1
      rw [hfield, hfirst]
      omega
  · refine .inr (.inr ⟨hfirst, hlast, ?_⟩)
    rw [if_neg fun h => hfirst (hfield.symm.trans (hzero.1 h))] at hu
    refine ⟨by positivity, hu.trans ?_⟩
    congr 1
    · exact toNat_leading_unpackMantissa b
    · rw [hfield]

/-! ## Singles -/

/-- The sign that is stored with a single. -/
def sign (x : Float32) : Sign := if isNegative x then .negative else .positive

theorem ofBitVec_unpackSign (x : Float32) : Sign.ofBitVec (unpackSign (bits x)) = sign x := by
  have hlt : (bits x).toNat < 2 ^ 32 := (bits x).isLt
  have hsign : (unpackSign (bits x)).toNat = (bits x).toNat / 2 ^ 31 % 2 :=
    toNat_unpackSign (bits x)
  have hnegative : isNegative x = decide (2 ^ 31 ≤ (bits x).toNat) := rfl
  unfold Sign.ofBitVec sign
  rw [hnegative]
  by_cases hset : 2 ^ 31 ≤ (bits x).toNat
  · rw [decide_eq_true hset, if_pos rfl]
    refine if_neg fun hzero => ?_
    rw [hzero] at hsign
    have hnone : (0#1).toNat = 0 := rfl
    omega
  · rw [decide_eq_false hset, if_neg Bool.false_ne_true]
    refine if_pos (BitVec.eq_of_toNat_eq ?_)
    rw [hsign]
    show (bits x).toNat / 2 ^ 31 % 2 = 0
    omega

theorem kind_eq (x : Float32) : kind x =
    if 255 * 2 ^ 23 < (bits x).toNat % 2 ^ 31 then .nan
    else if (bits x).toNat % 2 ^ 31 = 255 * 2 ^ 23 then .infinite
    else .finite ((bits x).toNat % 2 ^ 31) := by
  have hinfinity : Decimal.Format.single.infinityBits = 255 * 2 ^ 23 := by decide
  unfold kind
  rw [hinfinity]
  rfl

/-- **A single and its kind.** -/
theorem kind_cases (x : Float32) :
    (∃ b < Decimal.Format.single.infinityBits, kind x = .finite b ∧
      (b = 0 ∧ unpacked x = .zero (sign x) ∨ 0 < b ∧ ∃ hm, unpacked x =
        .finite (sign x) (Decimal.Format.single.parts b).1 (Decimal.Format.single.parts b).2 hm)) ∨
    kind x = .infinite ∧ unpacked x = .infinity (sign x) ∨
    kind x = .nan ∧ unpacked x = .notANumber := by
  have hinfinity : Decimal.Format.single.infinityBits = 255 * 2 ^ 23 := by decide
  have hcases := unpack_cases_toNat (bits x)
  dsimp only at hcases
  rw [ofBitVec_unpackSign] at hcases
  have hunpacked : UnpackedFloat.unpack Format.binary32 (bits x) = unpacked x := rfl
  rw [hunpacked] at hcases
  have hkind := kind_eq x
  generalize (bits x).toNat = w at hcases hkind
  -- the exponent is all ones, all zeros, or neither
  obtain ⟨hlast, hcases⟩ | ⟨hfirst, hcases⟩ | ⟨hfirst, hlast, hm, hx⟩ := hcases
  · replace hlast : w / 2 ^ 23 % 256 = 255 := hlast
    obtain ⟨hnone, hx⟩ | ⟨hsome, hx⟩ := hcases
    · replace hnone : w % 2 ^ 23 = 0 := hnone
      refine .inr (.inl ⟨?_, hx⟩)
      rw [hkind, if_neg (by omega), if_pos (by omega)]
    · replace hsome : w % 2 ^ 23 ≠ 0 := hsome
      refine .inr (.inr ⟨?_, hx⟩)
      rw [hkind, if_pos (by omega)]
  · replace hfirst : w / 2 ^ 23 % 256 = 0 := hfirst
    have hlt : w % 2 ^ 31 < Decimal.Format.single.infinityBits := by omega
    obtain ⟨-, hparts⟩ | ⟨hlarge, -⟩ := Decimal.parts_single hlt
    · refine .inl ⟨w % 2 ^ 31, hlt, ?_, ?_⟩
      · rw [hkind, if_neg (by omega), if_neg (by omega)]
      obtain ⟨hnone, hx⟩ | ⟨hm, hx⟩ := hcases
      · replace hnone : w % 2 ^ 23 = 0 := hnone
        exact .inl ⟨by omega, hx⟩
      · replace hm : 0 < w % 2 ^ 23 := hm
        have hsmall : w % 2 ^ 23 = w % 2 ^ 31 := by omega
        rw [hparts]
        refine .inr ⟨by omega, by omega, hx.trans ?_⟩
        congr 1
    · omega
  · replace hfirst : w / 2 ^ 23 % 256 ≠ 0 := hfirst
    replace hlast : w / 2 ^ 23 % 256 ≠ 255 := hlast
    have hlt : w % 2 ^ 31 < Decimal.Format.single.infinityBits := by omega
    obtain ⟨hsmall, -⟩ | ⟨-, hparts⟩ := Decimal.parts_single hlt
    · omega
    · refine .inl ⟨w % 2 ^ 31, hlt, ?_, .inr ⟨by omega, ?_⟩⟩
      · rw [hkind, if_neg (by omega), if_neg (by omega)]
      have hstored : w % 2 ^ 31 % 2 ^ 23 = w % 2 ^ 23 := by omega
      have hfield : w % 2 ^ 31 / 2 ^ 23 = w / 2 ^ 23 % 256 := by omega
      rw [hparts]
      show ∃ hm, unpacked x = .finite (sign x) (w % 2 ^ 31 % 2 ^ 23 + 2 ^ 23)
        (((w % 2 ^ 31 / 2 ^ 23 : Nat) : Int) - 150) hm
      rw [hstored, hfield]
      exact ⟨hm, hx⟩

theorem isFinite_iff_kind : x.isFinite = true ↔ ∃ b, kind x = .finite b := by
  show (unpacked x).isFinite = true ↔ _
  obtain ⟨b, -, hkind, ⟨-, hx⟩ | ⟨-, hm, hx⟩⟩ | ⟨hkind, hx⟩ | ⟨hkind, hx⟩ := kind_cases x <;>
    rw [hkind, hx]
  · exact iff_of_true rfl ⟨b, rfl⟩
  · exact iff_of_true rfl ⟨b, rfl⟩
  · exact iff_of_false Bool.false_ne_true nofun
  · exact iff_of_false Bool.false_ne_true nofun

/-! ## Checks of constants -/

open Layout.Force.Settings (isPositive isNonNegative isShare)

/-- A single that is finite and positive has a pattern above zero and no sign. -/
theorem isPositive_iff :
    isPositive x = true ↔ ∃ b, 0 < b ∧ kind x = .finite b ∧ isNegative x = false := by
  unfold isPositive
  rw [Bool.and_eq_true, isFinite_iff_kind, Bool.not_eq_true', decide_eq_false_iff_not, le_iff]
  obtain ⟨b, -, hkind, ⟨rfl, hx⟩ | ⟨hb, hm, hx⟩⟩ | ⟨hkind, hx⟩ | ⟨hkind, hx⟩ := kind_cases x <;>
    rw [hkind, hx]
  · refine iff_of_false (fun h => h.2 ?_) ?_
    · cases sign x <;> rfl
    · rintro ⟨b, hb, heq, -⟩
      injection heq with heq
      omega
  · unfold sign
    cases isNegative x with
    | true => exact iff_of_false (fun h => h.2 rfl) fun ⟨_, _, _, h⟩ => Bool.false_ne_true h.symm
    | false => exact iff_of_true ⟨⟨b, rfl⟩, Bool.false_ne_true⟩ ⟨b, hb, rfl, rfl⟩
  · exact iff_of_false (fun ⟨⟨_, h⟩, _⟩ => nomatch h) fun ⟨_, _, h, _⟩ => nomatch h
  · exact iff_of_false (fun ⟨⟨_, h⟩, _⟩ => nomatch h) fun ⟨_, _, h, _⟩ => nomatch h

/-- A single that is finite and not negative is a zero, or has no sign. -/
theorem isNonNegative_iff :
    isNonNegative x = true ↔ ∃ b, kind x = .finite b ∧ (b = 0 ∨ isNegative x = false) := by
  unfold isNonNegative
  rw [Bool.and_eq_true, isFinite_iff_kind, Bool.not_eq_true', decide_eq_false_iff_not, lt_iff]
  obtain ⟨b, -, hkind, ⟨rfl, hx⟩ | ⟨hb, hm, hx⟩⟩ | ⟨hkind, hx⟩ | ⟨hkind, hx⟩ := kind_cases x <;>
    rw [hkind, hx]
  · refine iff_of_true ⟨⟨0, rfl⟩, ?_⟩ ⟨0, rfl, .inl rfl⟩
    cases sign x <;> exact Bool.false_ne_true
  · unfold sign
    cases isNegative x with
    | true =>
      refine iff_of_false (fun h => h.2 rfl) ?_
      rintro ⟨c, heq, hzero | hsign⟩
      · injection heq with heq
        omega
      · exact Bool.false_ne_true hsign.symm
    | false => exact iff_of_true ⟨⟨b, rfl⟩, Bool.false_ne_true⟩ ⟨b, rfl, .inr rfl⟩
  · exact iff_of_false (fun ⟨⟨_, h⟩, _⟩ => nomatch h) fun ⟨_, h, _⟩ => nomatch h
  · exact iff_of_false (fun ⟨⟨_, h⟩, _⟩ => nomatch h) fun ⟨_, h, _⟩ => nomatch h

/-- Up to one, patterns are ordered like the singles. -/
theorem parts_le_one {b : Nat} (h : b < Decimal.Format.single.infinityBits) :
    ((Decimal.Format.single.parts b).2 < -23 ∨ (Decimal.Format.single.parts b).2 = -23 ∧
      (Decimal.Format.single.parts b).1 ≤ 2 ^ 23) ↔ b ≤ 127 * 2 ^ 23 := by
  obtain ⟨hsmall, hparts⟩ | ⟨hlarge, hparts⟩ := Decimal.parts_single h <;> rw [hparts] <;>
    simp only <;> omega

/-- A single between zero and one is a zero, or has no sign and a pattern up to that of one. -/
theorem isShare_iff : isShare x = true ↔
    ∃ b, kind x = .finite b ∧ (b = 0 ∨ isNegative x = false ∧ b ≤ 127 * 2 ^ 23) := by
  unfold isShare
  rw [Bool.and_eq_true, decide_eq_true_iff, decide_eq_true_iff, le_iff, le_iff, unpacked_one]
  obtain ⟨b, hlt, hkind, ⟨rfl, hx⟩ | ⟨hb, hm, hx⟩⟩ | ⟨hkind, hx⟩ | ⟨hkind, hx⟩ := kind_cases x <;>
    rw [hkind, hx]
  · refine iff_of_true ?_ ⟨0, rfl, .inl rfl⟩
    cases sign x <;> exact ⟨rfl, rfl⟩
  · unfold sign
    cases isNegative x with
    | true =>
      refine iff_of_false (fun h => Bool.false_ne_true h.1) ?_
      rintro ⟨c, heq, hzero | ⟨hsign, -⟩⟩
      · injection heq with heq
        omega
      · exact Bool.false_ne_true hsign.symm
    | false =>
      rw [if_neg Bool.false_ne_true, le_positive, parts_le_one hlt]
      constructor
      · exact fun h => ⟨b, rfl, .inr ⟨rfl, h.2⟩⟩
      · rintro ⟨c, heq, hc⟩
        injection heq with heq
        subst heq
        exact ⟨rfl, by omega⟩
  · refine iff_of_false ?_ fun ⟨_, h, _⟩ => nomatch h
    cases sign x with
    | negative => exact fun h => Bool.false_ne_true h.1
    | positive => exact fun h => Bool.false_ne_true h.2
  · exact iff_of_false (fun h => Bool.false_ne_true h.1) fun ⟨_, h, _⟩ => nomatch h

/-! ## Singles by their patterns -/

/-- A pattern below infinity is the one of its single. -/
theorem kind_singleOfBits {b : Nat} (h : b < Decimal.Format.single.infinityBits) :
    kind (singleOfBits false b) = .finite b ∧ isNegative (singleOfBits false b) = false := by
  have hinfinity : Decimal.Format.single.infinityBits = 255 * 2 ^ 23 := by decide
  let w : BitVec Format.binary32.numBits := BitVec.ofNat 32 b
  have htoNat : w.toNat = b := by
    show (BitVec.ofNat 32 b).toNat = b
    rw [BitVec.toNat_ofNat]
    omega
  have hvalid : Format.binary32.Valid w := by
    refine ⟨fun hones _ => ?_⟩
    have hexponent : (unpackExponent w).toNat = w.toNat / 2 ^ 23 % 256 := toNat_unpackExponent w
    have hlast : (-1#(Format.binary32.exponentBits)).toNat = 255 := rfl
    rw [hones, hlast, htoNat] at hexponent
    omega
  have hbits : bits (singleOfBits false b) = w := pack_unpack hvalid
  have hmagnitude : (bits (singleOfBits false b)).toNat = b := by rw [hbits, htoNat]
  have hkind : kind (singleOfBits false b) =
      if Decimal.Format.single.infinityBits < (bits (singleOfBits false b)).toNat % 2 ^ 31 then .nan
      else if (bits (singleOfBits false b)).toNat % 2 ^ 31 = Decimal.Format.single.infinityBits then
        .infinite
      else .finite ((bits (singleOfBits false b)).toNat % 2 ^ 31) := rfl
  constructor
  · rw [hkind, hmagnitude, if_neg (by omega), if_neg (by omega), Nat.mod_eq_of_lt (by omega)]
  · show decide (2 ^ 31 ≤ (bits (singleOfBits false b)).toNat) = false
    rw [hmagnitude]
    exact decide_eq_false (by omega)

end Single

end LaneChart
