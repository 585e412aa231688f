import LaneChart.Proofs.Plane.Exact
import LaneChart.Proofs.Plane.Rounding

/-!
# The range of singles

What is too large for a single is stored as an infinity, and from there no operation leads back to a
finite value but dividing by it. So a finite result tells of its operands: those of sums,
differences and roots were finite, and one that was squared was less than 2⁶⁴ (`within_of_square`).

`Within c` bounds the exponent of a finite single by `c`, hence its absolute value by 2 to
the `c + 24`:

> `within_div`: a quotient of a lesser by a greater single is at most one.
> `within_mul`: the bounds of the factors add up to one of the product.
> `isFinite_add_of_within`: adding something small to a finite single does not lead out of
> the range.
-/

namespace LaneChart

namespace Single

open Float.Model (Format UnpackedFloat)
open Float.Model.UnpackedFloat (Sign Accuracy unpackExponent)

variable {x y : Float32} {s t : Sign} {m n : Nat} {c d e k : Int}

/-! ## Finite operands -/

theorem isFinite_of_ofUnpacked {u : UnpackedFloat} (h : (ofUnpacked u).isFinite = true) :
    u.isFinite = true := by
  rw [← Bool.not_eq_false] at h ⊢
  exact fun hu => h (isFinite_pack_of_eq_false hu)

theorem isFinite_of_mul (h : (x * y).isFinite = true) : x.isFinite = true := by
  have hmul : (UnpackedFloat.mul Format.binary32 (unpacked x) (unpacked y)).isFinite = true :=
    isFinite_of_ofUnpacked h
  show (unpacked x).isFinite = true
  revert hmul
  cases unpacked x with
  | zero s => exact fun _ => rfl
  | finite s m e hm => exact fun _ => rfl
  | notANumber => exact id
  | infinity s =>
    cases unpacked y with
    | notANumber | infinity t | zero t | finite t => exact id

theorem isFinite_of_add (h : (x + y).isFinite = true) : x.isFinite = true ∧ y.isFinite = true := by
  have hadd : (UnpackedFloat.add Format.binary32 (unpacked x) (unpacked y)).isFinite = true :=
    isFinite_of_ofUnpacked h
  show (unpacked x).isFinite = true ∧ (unpacked y).isFinite = true
  revert hadd
  cases unpacked x with
  | notANumber => exact fun h => absurd h Bool.false_ne_true
  | infinity s =>
    cases unpacked y with
    | infinity t => cases s <;> cases t <;> exact fun h => absurd h Bool.false_ne_true
    | notANumber | zero t | finite t => exact fun h => absurd h Bool.false_ne_true
  | zero s | finite s =>
    cases unpacked y with
    | notANumber | infinity t => exact fun h => absurd h Bool.false_ne_true
    | zero t | finite t => exact fun _ => ⟨rfl, rfl⟩

theorem isFinite_of_sqrt (h : x.sqrt.isFinite = true) : x.isFinite = true := by
  have hsqrt : (UnpackedFloat.sqrt Format.binary32 (unpacked x)).isFinite = true :=
    isFinite_of_ofUnpacked h
  show (unpacked x).isFinite = true
  revert hsqrt
  cases unpacked x with
  | notANumber => exact id
  | infinity s => cases s <;> exact id
  | zero s | finite s => exact fun _ => rfl

/-! ## Bounded exponents -/

/-- **What is too large is stored as an infinity.** -/
theorem ofUnpacked_of_large (s : Sign) (hn : 0 < n) (hk : 105 ≤ k) :
    ofUnpacked (.finite s n k hn) = ofUnpacked (.infinity s) := by
  have hroom : 2 ^ Format.binary32.exponentBits ≤ (k + Format.binary32.exponentBias +
      Format.binary32.mantissaBitsWithoutImplicit).toNat + 1 := by
    show 256 ≤ (k + 127 + 23).toNat + 1
    omega
  have hpack : UnpackedFloat.pack Format.binary32 (.finite s n k hn) =
      UnpackedFloat.pack Format.binary32 (.infinity s) := by
    unfold UnpackedFloat.pack
    exact if_pos hroom
  exact congrArg Float32.ofModel
    ((Float32.Model.mk.injEq _ _ _ _).mpr (congrArg UInt32.ofBitVec hpack))

theorem unpackExponent_pack_le (s : Sign) (hn : 0 < n) (hk : k ≤ 104) :
    (unpackExponent (UnpackedFloat.pack Format.binary32 (.finite s n k hn))).toNat ≤
      (k + 150).toNat := by
  have hbiased : (k + Format.binary32.exponentBias +
      Format.binary32.mantissaBitsWithoutImplicit).toNat = (k + 150).toNat := by
    show (k + 127 + 23).toNat = _
    omega
  have hroom : ¬ 2 ^ Format.binary32.exponentBits ≤ (k + 150).toNat + 1 := by
    show ¬ 256 ≤ _ + 1
    omega
  unfold UnpackedFloat.pack
  simp only [hbiased]
  rw [if_neg hroom]
  split
  · rw [UnpackedFloat.unpackExponent_packComponents, BitVec.toNat_ofNat]
    exact Nat.mod_le _ _
  · rw [UnpackedFloat.unpackExponent_packComponents]
    exact Nat.zero_le _

/-- A finite single with an exponent that is not above a bound. -/
def Within (c : Int) (x : Float32) : Prop :=
  (∃ s, unpacked x = .zero s) ∨ ∃ s m e hm, unpacked x = .finite s m e hm ∧ e ≤ c

theorem Within.isFinite (h : Within c x) : x.isFinite = true := by
  show (unpacked x).isFinite = true
  rcases h with ⟨s, hx⟩ | ⟨s, m, e, hm, hx, -⟩ <;> rw [hx] <;> rfl

theorem isFinite_zero (s : Sign) : (ofUnpacked (.zero s)).isFinite = true :=
  Within.isFinite (c := 0) (.inl ⟨s, unpacked_zero s⟩)

theorem Within.mono (h : Within c x) (hcd : c ≤ d) : Within d x := by
  rcases h with hzero | ⟨s, m, e, hm, hx, he⟩
  · exact .inl hzero
  · exact .inr ⟨s, m, e, hm, hx, Int.le_trans he hcd⟩

/-- The bits of a single. -/
def bits (x : Float32) : BitVec Format.binary32.numBits := x.toModel.toBits.toBitVec

/-- The exponent of a single is told by the bits that are stored for it. -/
theorem within_of_unpackExponent {j : Nat} (hj : j ≤ 254) (h : (unpackExponent (bits x)).toNat ≤ j)
    (hjc : max (j : Int) 1 ≤ c + 150) : Within c x := by
  have hfinite : (unpacked x).isFinite = true := by
    rw [← Bool.not_eq_false]
    intro hinfinite
    have hones : unpackExponent (bits x) = -1#8 :=
      (isFinite_unpack_eq_false_iff (bits x)).1 hinfinite
    have hvalue : (-1#8).toNat = 255 := rfl
    rw [hones, hvalue] at h
    omega
  rcases unpack_cases (bits x) with hx | ⟨-, hx⟩ | hx | ⟨m, e, hm, -, he, hx⟩
  · rw [show unpacked x = .notANumber from hx] at hfinite
    exact absurd hfinite Bool.false_ne_true
  · rw [show unpacked x = .infinity _ from hx] at hfinite
    exact absurd hfinite Bool.false_ne_true
  · exact .inl ⟨_, hx⟩
  · exact .inr ⟨_, m, e, hm, hx, by omega⟩

theorem within_ofUnpacked (s : Sign) (hn : 0 < n) (hk : k ≤ c) (hleast : -149 ≤ c)
    (hgreatest : c ≤ 104) : Within c (ofUnpacked (.finite s n k hn)) := by
  have hstored := unpackExponent_pack_le s hn (Int.le_trans hk hgreatest)
  exact within_of_unpackExponent (x := ofUnpacked (.finite s n k hn)) (by omega) hstored (by omega)

/-- What is stored as a finite single has no greater exponent than the greatest single. -/
theorem le_of_isFinite_ofUnpacked {hn : 0 < n}
    (h : (ofUnpacked (.finite s n k hn)).isFinite = true) : k ≤ 104 := by
  rw [← Int.not_lt]
  intro hk
  rw [ofUnpacked_of_large s hn hk] at h
  exact Bool.false_ne_true (isFinite_of_ofUnpacked h)

theorem within_of_isFinite (h : x.isFinite = true) : Within 104 x := by
  have hnotAll : unpackExponent (bits x) ≠ -1#8 := by
    intro hones
    have hinfinite : x.isFinite = false := (isFinite_unpack_eq_false_iff (bits x)).2 hones
    rw [hinfinite] at h
    exact Bool.false_ne_true h
  have hvalue : (-1#8).toNat = 255 := rfl
  have hne : (unpackExponent (bits x)).toNat ≠ 255 := fun h => hnotAll (BitVec.eq_of_toNat_eq h)
  have hlt : (unpackExponent (bits x)).toNat < 256 := (unpackExponent (bits x)).isLt
  exact within_of_unpackExponent (j := 254) (Nat.le_refl _) (by omega) (by omega)

/-! ## Products, quotients and sums -/

/-- What is rounded to a bounded exponent is within the bound. -/
theorem within_round (s : Sign) (a : Accuracy) {b : Nat} (hm : m < 2 ^ b) (hsmall : b + e ≤ c + 23)
    (he : e ≤ c) (hleast : -149 ≤ c) (hgreatest : c ≤ 104) :
    Within c (ofUnpacked (UnpackedFloat.roundWithAccuracy Format.binary32 s m e a)) := by
  rcases roundWithAccuracy_cases s m e a with hzero | ⟨n, k, hn, hround⟩
  · rw [hzero]
    exact .inl ⟨s, unpacked_zero s⟩
  · have hk := exponent_round_le (c := c + 23) hm hsmall (by omega) (by omega) hround
    rw [hround]
    exact within_ofUnpacked s hn (by omega) hleast hgreatest

/-- **What is squared to a finite single** is less than 2⁶⁴. -/
theorem within_of_square (h : (x * x).isFinite = true) : Within 40 x := by
  rcases within_of_isFinite (isFinite_of_mul h) with hzero | ⟨s, m, e, hm, hx, -⟩
  · exact .inl hzero
  refine .inr ⟨s, m, e, hm, hx, ?_⟩
  rw [← Int.not_lt]
  intro he
  have hfull : 2 ^ 23 ≤ m := by
    rcases (canonical_unpacked hx).full with hfull | hleast
    · exact hfull
    · omega
  have hlog : 46 ≤ (m * m).log2 := by
    have hsquare : 2 ^ 23 * 2 ^ 23 ≤ m * m := Nat.mul_le_mul hfull hfull
    exact (Nat.le_log2 (Nat.ne_of_gt (Nat.mul_pos hm hm))).2 hsquare
  obtain ⟨n, k, hn, hround, -, -⟩ :=
    roundWithAccuracy_bounds (s * s) (Nat.mul_pos hm hm) (by omega : -149 ≤ e + e) .exact
  have hsquare :
      UnpackedFloat.mul Format.binary32 (unpacked x) (unpacked x) = .finite (s * s) n k hn := by
    rw [hx]
    exact hround
  have hk : k ≤ 104 := by
    have hfinite :
        (ofUnpacked (UnpackedFloat.mul Format.binary32 (unpacked x) (unpacked x))).isFinite =
          true := h
    rw [hsquare] at hfinite
    exact le_of_isFinite_ofUnpacked hfinite
  have hexponent := le_exponent_round hround
  omega

/-- **The exponents of factors** add up. -/
theorem within_mul (hx : Within c x) (hy : Within d y) (hleast : -174 ≤ c + d)
    (hgreatest : c + d ≤ 79) :
    Within (c + d + 25) (x * y) := by
  show Within _ (ofUnpacked (UnpackedFloat.mul Format.binary32 (unpacked x) (unpacked y)))
  rcases hx with ⟨s, hx⟩ | ⟨s, m, e, hm, hx, he⟩ <;>
    rcases hy with ⟨t, hy⟩ | ⟨t, n, k, hn, hy, hk⟩ <;> rw [hx, hy]
  · exact .inl ⟨_, unpacked_zero _⟩
  · exact .inl ⟨_, unpacked_zero _⟩
  · exact .inl ⟨_, unpacked_zero _⟩
  · have hbelow : m * n < 2 ^ 24 * 2 ^ 24 :=
      Nat.mul_lt_mul'' (canonical_unpacked hx).below (canonical_unpacked hy).below
    rw [← Nat.pow_add] at hbelow
    exact within_round _ _ hbelow (by omega) (by omega) (by omega) (by omega)

/-- The greater of two exponents is not the least one, so its mantissa fills its bits. -/
theorem Canonical.full_of_lt (hm : Canonical m e) (hn : Canonical n k) (h : e < k) :
    2 ^ 23 ≤ n := by
  have hleast := hm.least
  rcases hn.full with hfull | heq
  · exact hfull
  · omega

/-- Mantissas with their exponents, written out at an exponent that is no greater, compare
as they did. -/
theorem mul_two_pow_lt (hm : Canonical m e) (hn : Canonical n k) (h : e < k ∨ e = k ∧ m < n)
    {t : Int} (ht : t ≤ 0) (hte : t ≤ e - k) : m * 2 ^ (e - k - t).toNat < n * 2 ^ (-t).toNat := by
  rcases h with hlt | ⟨rfl, hlt⟩
  · have hfull := hm.full_of_lt hn hlt
    have hshift : (-t).toNat = (e - k - t).toNat + 1 + (k - e - 1).toNat := by omega
    generalize (e - k - t).toNat = j at hshift ⊢
    calc m * 2 ^ j
      _ < 2 ^ 24 * 2 ^ j := Nat.mul_lt_mul_of_pos_right hm.below (Nat.two_pow_pos j)
      _ = 2 ^ 23 * 2 ^ (j + 1) := by rw [Nat.pow_succ]; omega
      _ ≤ n * 2 ^ (j + 1) := Nat.mul_le_mul_right _ hfull
      _ ≤ n * 2 ^ (-t).toNat := by
        rw [hshift]
        exact Nat.mul_le_mul_left _ (Nat.pow_le_pow_right Nat.two_pos (Nat.le_add_right _ _))
  · have hshift : (e - e - t).toNat = (-t).toNat := by omega
    rw [hshift]
    exact Nat.mul_lt_mul_of_pos_right hlt (Nat.two_pow_pos _)

/-- The quotient of a lesser by a greater mantissa, both with their exponents, is less than one. -/
theorem divCore_lt (hm : Canonical m e) (hn : Canonical n k) (hmpos : 0 < m) (hnpos : 0 < n)
    (h : e < k ∨ e = k ∧ m < n) :
    ∃ b : Nat, (UnpackedFloat.divCore Format.binary32 m e n k).1 < 2 ^ b ∧
      b + (UnpackedFloat.divCore Format.binary32 m e n k).2.1 ≤ 0 ∧
      (UnpackedFloat.divCore Format.binary32 m e n k).2.1 ≤ -23 := by
  have htarget : Format.binary32.targetExponent
      (Float.Model.totalExponent m e - Float.Model.totalExponent n k) ≤ -23 := by
    show max (((m.log2 : Int) + 1 + e) - (n.log2 + 1 + k) - (24 : Nat)) (-149) ≤ -23
    rcases h with hlt | ⟨rfl, hlt⟩
    · have hmlog : m.log2 ≤ 23 := log2_le_of_lt hm.below
      have hnlog : 23 ≤ n.log2 := (Nat.le_log2 (Nat.ne_of_gt hnpos)).2 (hm.full_of_lt hn hlt)
      omega
    · have hle : 2 ^ m.log2 ≤ n :=
        Nat.le_trans (Nat.log2_self_le (Nat.ne_of_gt hmpos)) (Nat.le_of_lt hlt)
      have hlog : m.log2 ≤ n.log2 := (Nat.le_log2 (Nat.ne_of_gt hnpos)).2 hle
      omega
  unfold UnpackedFloat.divCore
  simp only
  generalize Format.binary32.targetExponent
    (Float.Model.totalExponent m e - Float.Model.totalExponent n k) = t at htarget ⊢
  generalize hleast : min (e - k) t = t'
  refine ⟨(-t').toNat, ?_, by omega, by omega⟩
  rw [Nat.shiftLeft_eq]
  exact Nat.div_lt_of_lt_mul (mul_two_pow_lt hm hn h (by omega) (by omega))

theorem unpacked_of_pos (h : 0 < x) :
    unpacked x = .infinity .positive ∨ ∃ m e hm, unpacked x = .finite .positive m e hm := by
  have hpositive : UnpackedFloat.lt (.zero .positive) (unpacked x) = true := lt_iff.1 h
  revert hpositive
  cases unpacked x with
  | notANumber | zero s => exact fun h => absurd h Bool.false_ne_true
  | infinity s =>
    cases s with
    | negative => exact fun h => absurd h Bool.false_ne_true
    | positive => exact fun _ => .inl rfl
  | finite s m e hm =>
    cases s with
    | negative => exact fun h => absurd h Bool.false_ne_true
    | positive => exact fun _ => .inr ⟨m, e, hm, rfl⟩

/-- A single between zero and a finite one is told from that by its exponent or its mantissa. -/
theorem unpacked_of_lt (hx : 0 < x) (hxy : x < y) (hy : y.isFinite = true) :
    ∃ m e hm n k hn, unpacked x = .finite .positive m e hm ∧ unpacked y = .finite .positive n k hn ∧
      (e < k ∨ e = k ∧ m < n) := by
  rw [lt_iff] at hxy
  have hfinite : (unpacked y).isFinite = true := hy
  revert hxy hfinite
  rcases unpacked_of_pos hx with hx | ⟨m, e, hm, hx⟩
  · rw [hx]
    cases unpacked y with
    | notANumber | infinity t => exact fun _ h => absurd h Bool.false_ne_true
    | zero t | finite t => exact fun h _ => absurd h Bool.false_ne_true
  · rw [hx]
    cases unpacked y with
    | notANumber | infinity t => exact fun _ h => absurd h Bool.false_ne_true
    | zero t => exact fun h _ => absurd h Bool.false_ne_true
    | finite t n k hn =>
      cases t with
      | negative => exact fun h _ => absurd h Bool.false_ne_true
      | positive => exact fun h _ => ⟨m, e, hm, n, k, hn, rfl, rfl, lt_positive.1 h⟩

/-- **A quotient of a lesser by a greater single** is at most one. -/
theorem within_div (hx : 0 < x) (hxy : x < y) (hy : y.isFinite = true) : Within (-23) (x / y) := by
  obtain ⟨m, e, hm, n, k, hn, hxu, hyu, hlt⟩ := unpacked_of_lt hx hxy hy
  obtain ⟨b, hquotient, hbound, hexponent⟩ :=
    divCore_lt (canonical_unpacked hxu) (canonical_unpacked hyu) hm hn hlt
  have hquot : x / y = ofUnpacked (UnpackedFloat.roundWithAccuracy Format.binary32 .positive
      (UnpackedFloat.divCore Format.binary32 m e n k).1
      (UnpackedFloat.divCore Format.binary32 m e n k).2.1
      (UnpackedFloat.divCore Format.binary32 m e n k).2.2) := by
    show ofUnpacked (UnpackedFloat.div Format.binary32 (unpacked x) (unpacked y)) = _
    rw [hxu, hyu]
    rfl
  rw [hquot]
  exact within_round _ _ hquotient hbound hexponent (by omega) (by omega)

/-- Rounding what is not above the greatest single by half a place or more leads to a single. -/
theorem isFinite_round {i : Nat} (s : Sign) (hm : m < (2 * (2 ^ 24 - 1) + 1) * 2 ^ i)
    (hi : e + i = 103) :
    (ofUnpacked (UnpackedFloat.round Format.binary32 s m e)).isFinite = true := by
  generalize hj : (e - Format.binary32.targetExponent (Float.Model.totalExponent m e)).toNat = j
  have hround : UnpackedFloat.round Format.binary32 s m e =
      UnpackedFloat.roundWithAccuracy Format.binary32 s (m * 2 ^ j) (e - j) .exact := by
    unfold UnpackedFloat.round UnpackedFloat.decreaseExponent
    simp only [hj, Nat.shiftLeft_eq]
  have hscaled : m * 2 ^ j < (2 * (2 ^ 24 - 1) + 1) * 2 ^ (i + j) := by
    rw [Nat.pow_add, ← Nat.mul_assoc]
    exact Nat.mul_lt_mul_of_pos_right hm (Nat.two_pow_pos j)
  rw [hround]
  rcases roundWithAccuracy_cases s (m * 2 ^ j) (e - j) .exact with hzero | ⟨n, k, hn, hfinite⟩
  · rw [hzero]
    exact isFinite_zero s
  · have hk : k ≤ 104 := exponent_round_le_greatest hscaled (by omega) hfinite
    rw [hfinite]
    exact (within_ofUnpacked s hn hk (by omega) (Int.le_refl _)).isFinite

theorem isFinite_normalize {i : Nat} {z : Int} (hz : z.natAbs < (2 * (2 ^ 24 - 1) + 1) * 2 ^ i)
    (hi : e + i = 103) :
    (ofUnpacked (UnpackedFloat.normalize Format.binary32 z e .positive)).isFinite = true := by
  unfold UnpackedFloat.normalize
  rcases Int.lt_trichotomy z 0 with hlt | rfl | hgt
  · rw [Int.compare_eq_lt.2 hlt]
    have habs : (-z).toNat = z.natAbs := by omega
    exact isFinite_round .negative (habs ▸ hz) hi
  · rw [Int.compare_eq_eq.2 rfl]
    exact isFinite_zero .positive
  · rw [Int.compare_eq_gt.2 hgt]
    have habs : z.toNat = z.natAbs := by omega
    exact isFinite_round .positive (habs ▸ hz) hi

/-- Two mantissas with their exponents, written out at the lesser of them and added: what the second
one adds is less than half a place of the greatest single. -/
theorem natAbs_sum_lt (hm : m < 2 ^ 24) (he : e ≤ 104) (hn : n < 2 ^ 24) (hk : k ≤ 79) :
    (s.apply ↑(m <<< (e - min e k).toNat) + t.apply ↑(n <<< (k - min e k).toNat)).natAbs <
      (2 * (2 ^ 24 - 1) + 1) * 2 ^ (103 - min e k).toNat := by
  generalize hi : (103 - min e k).toNat = i
  have hgreat : m <<< (e - min e k).toNat ≤ (2 ^ 24 - 1) * 2 ^ (i + 1) := by
    rw [Nat.shiftLeft_eq]
    exact Nat.mul_le_mul (by omega) (Nat.pow_le_pow_right Nat.two_pos (by omega))
  have hsmall : n <<< (k - min e k).toNat < 2 ^ i := by
    rw [Nat.shiftLeft_eq]
    calc n * 2 ^ (k - min e k).toNat
      _ < 2 ^ 24 * 2 ^ (k - min e k).toNat := Nat.mul_lt_mul_of_pos_right hn (Nat.two_pow_pos _)
      _ = 2 ^ (24 + (k - min e k).toNat) := (Nat.pow_add ..).symm
      _ ≤ 2 ^ i := Nat.pow_le_pow_right Nat.two_pos (by omega)
  rw [Nat.pow_succ] at hgreat
  have happly (s : Sign) (j : Nat) : (s.apply (j : Int)).natAbs = j := by
    cases s
    · exact Int.natAbs_neg j
    · rfl
  have hsum := Int.natAbs_add_le (s.apply ↑(m <<< (e - min e k).toNat))
    (t.apply ↑(n <<< (k - min e k).toNat))
  rw [happly, happly] at hsum
  omega

/-- **Adding something small** to a finite single leaves it finite. -/
theorem isFinite_add_of_within (hx : x.isFinite = true) (hy : Within 79 y) :
    (x + y).isFinite = true := by
  have hxy : x + y = ofUnpacked (UnpackedFloat.add Format.binary32 (unpacked x) (unpacked y)) := rfl
  rcases within_of_isFinite hx with ⟨s, hxu⟩ | ⟨s, m, e, hm, hxu, he⟩ <;>
    rcases hy with ⟨t, hyu⟩ | ⟨t, n, k, hn, hyu, hk⟩ <;> rw [hxy, hxu, hyu]
  · cases s <;> cases t <;> exact isFinite_zero _
  · show (ofUnpacked (.finite t n k hn)).isFinite = true
    exact (within_ofUnpacked t hn hk (by omega) (by omega)).isFinite
  · show (ofUnpacked (.finite s m e hm)).isFinite = true
    exact (within_ofUnpacked s hm he (by omega) (by omega)).isFinite
  · exact isFinite_normalize (natAbs_sum_lt (canonical_unpacked hxu).below he
      (canonical_unpacked hyu).below hk) (by omega)

/-! ## Roots that are no finite single -/

theorem isNaN_notANumber : (ofUnpacked .notANumber).isNaN = true := rfl

theorem unpacked_infinity (s : Sign) : unpacked (ofUnpacked (.infinity s)) = .infinity s := by
  cases s <;> rfl

/-- A root is a finite single, or plus infinity, or no number. -/
theorem sqrt_cases (x : Float32) :
    x.sqrt.isFinite = true ∨ unpacked x.sqrt = .infinity .positive ∨ x.sqrt.isNaN = true := by
  have hsqrt : x.sqrt = ofUnpacked (UnpackedFloat.sqrt Format.binary32 (unpacked x)) := rfl
  rw [hsqrt]
  cases unpacked x with
  | notANumber => exact .inr (.inr rfl)
  | zero s => exact .inl (isFinite_zero s)
  | infinity s =>
    cases s with
    | negative => exact .inr (.inr rfl)
    | positive => exact .inr (.inl rfl)
  | finite s m e hm =>
    cases s with
    | negative => exact .inr (.inr isNaN_notANumber)
    | positive =>
      let q := UnpackedFloat.sqrtCore Format.binary32 m e
      have hround : UnpackedFloat.sqrt Format.binary32 (.finite .positive m e hm) =
          UnpackedFloat.roundWithAccuracy Format.binary32 .positive q.1 q.2.1 q.2.2 := rfl
      rw [hround]
      rcases roundWithAccuracy_cases .positive q.1 q.2.1 q.2.2 with hzero | ⟨n, k, hn, hfinite⟩
      · rw [hzero]
        exact .inl (isFinite_zero _)
      rw [hfinite]
      by_cases hk : k ≤ 104
      · exact .inl (within_ofUnpacked .positive hn hk (by omega) (Int.le_refl 104)).isFinite
      · rw [ofUnpacked_of_large .positive hn (Int.not_le.1 hk)]
        exact .inr (.inl (unpacked_infinity .positive))

theorem lt_infinity (hx : x.isFinite = true) (hy : unpacked y = .infinity .positive) : x < y := by
  rw [lt_iff, hy]
  rcases within_of_isFinite hx with ⟨s, hxu⟩ | ⟨s, m, e, hm, hxu, -⟩ <;>
    rw [hxu] <;> cases s <;> rfl

/-- An infinity, multiplied with a finite value that is divided by it, is no number. -/
theorem isNaN_mul_div (hx : unpacked x = .infinity .positive) (hy : y.isFinite = true) :
    (x * (y / x)).isNaN = true := by
  have hzero : ∃ s, unpacked (y / x) = .zero s := by
    show ∃ s,
      unpacked (ofUnpacked (UnpackedFloat.div Format.binary32 (unpacked y) (unpacked x))) = _
    rw [hx]
    rcases within_of_isFinite hy with ⟨s, hyu⟩ | ⟨s, m, e, hm, hyu, -⟩ <;> rw [hyu] <;>
      exact ⟨_, unpacked_zero _⟩
  obtain ⟨s, hs⟩ := hzero
  have hmul : x * (y / x) =
      ofUnpacked (UnpackedFloat.mul Format.binary32 (unpacked x) (unpacked (y / x))) := rfl
  rw [hmul, hx, hs]
  exact isNaN_notANumber

end Single

end LaneChart
