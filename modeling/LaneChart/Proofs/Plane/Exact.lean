import LaneChart.Proofs.Plane.Packing

/-!
# Operations that do not round

Adding zero and multiplying or dividing by one give back what they were given, with one exception:
zero plus minus zero is zero. So what is computed in two ways can differ in the sign of a zero, and
`Alike` leaves that open. It is kept by products and quotients, and it is gone after squaring.

What is a zero or no number is on no side of zero (`Sideless`), and products and
differences of such values are so too. A square is never below zero, which is all the
order that is needed here (`not_square_lt`).
-/

namespace LaneChart

namespace Single

open Float.Model (Format UnpackedFloat)
open Float.Model.UnpackedFloat (Sign unpackSign)

variable {x y : Float32} {s : Sign} {m : Nat} {e : Int}

/-! ## One -/

theorem unpacked_one : unpacked 1 = .finite .positive (2 ^ 23) (-23) (by decide) := rfl

theorem mul_positive (s : Sign) : s * .positive = s := by cases s <;> rfl

theorem div_positive (s : Sign) : s / .positive = s := by cases s <;> rfl

theorem mul_one (x : Float32) : x * 1 = x := by
  have hone : UnpackedFloat.mul Format.binary32 (unpacked x) (unpacked 1) = unpacked x := by
    rw [unpacked_one]
    cases hx : unpacked x with
    | notANumber => rfl
    | infinity s => exact congrArg UnpackedFloat.infinity (mul_positive s)
    | zero s => exact congrArg UnpackedFloat.zero (mul_positive s)
    | finite s m e hm =>
      show UnpackedFloat.roundWithAccuracy Format.binary32 (s * .positive) (m * 2 ^ 23) (e + -23)
        .exact = _
      rw [mul_positive]
      exact round_canonical (canonical_unpacked hx) hm 23
  show ofUnpacked (UnpackedFloat.mul Format.binary32 (unpacked x) (unpacked 1)) = x
  rw [hone, ofUnpacked_unpacked]

/-- Division by one puts zeros behind the mantissa and does no more. -/
theorem divCore_one (h : Canonical m e) (hm : 0 < m) :
    ∃ j : Nat, UnpackedFloat.divCore Format.binary32 m e (2 ^ 23) (-23) =
      (m * 2 ^ j, e - j, .exact) := by
  have hlog : m.log2 < 24 := (Nat.log2_lt (Nat.ne_of_gt hm)).2 h.below
  have htotal : Float.Model.totalExponent m e - Float.Model.totalExponent (2 ^ 23) (-23) =
      m.log2 + e := by
    show (m.log2 + 1 + e : Int) - 1 = _
    omega
  have htarget : Format.binary32.targetExponent (m.log2 + e) ≤ e := by
    have hleast := h.least
    show max ((m.log2 + e : Int) - (24 : Nat)) (-149) ≤ e
    omega
  unfold UnpackedFloat.divCore
  simp only [htotal]
  -- the quotient is taken at an exponent `t` that is not above `e`, so nothing is left over
  generalize Format.binary32.targetExponent (m.log2 + e) = t at htarget ⊢
  refine ⟨(e - t).toNat, ?_⟩
  have hmin : min (e - -23) t = t := by omega
  have hshift : (e - -23 - t).toNat = (e - t).toNat + 23 := by omega
  have hexponent : e - ((e - t).toNat : Int) = t := by omega
  rw [hmin, hshift, hexponent, Nat.shiftLeft_eq, Nat.pow_add, ← Nat.mul_assoc,
    Nat.mul_div_cancel _ (Nat.two_pow_pos 23), Nat.mul_mod_left]
  rfl

theorem div_one (x : Float32) : x / 1 = x := by
  have hone : UnpackedFloat.div Format.binary32 (unpacked x) (unpacked 1) = unpacked x := by
    rw [unpacked_one]
    cases hx : unpacked x with
    | notANumber => rfl
    | infinity s => exact congrArg UnpackedFloat.infinity (div_positive s)
    | zero s => exact congrArg UnpackedFloat.zero (div_positive s)
    | finite s m e hm =>
      have hcanonical := canonical_unpacked hx
      obtain ⟨j, hj⟩ := divCore_one hcanonical hm
      show (let q := UnpackedFloat.divCore Format.binary32 m e (2 ^ 23) (-23)
        UnpackedFloat.roundWithAccuracy Format.binary32 (s / .positive) q.1 q.2.1 q.2.2) = _
      rw [hj, div_positive]
      exact round_canonical hcanonical hm j
  show ofUnpacked (UnpackedFloat.div Format.binary32 (unpacked x) (unpacked 1)) = x
  rw [hone, ofUnpacked_unpacked]

/-! ## Zero -/

theorem eq_minusZero (hx : unpacked x = .zero .negative) : x = -0.0 := by
  rw [← ofUnpacked_unpacked x, hx]
  rfl

theorem zero_add (h : x ≠ -0.0) : 0 + x = x := by
  have hsum : UnpackedFloat.add Format.binary32 (.zero .positive) (unpacked x) = unpacked x := by
    cases hx : unpacked x with
    | notANumber => rfl
    | infinity s => rfl
    | finite s m e hm => rfl
    | zero s =>
      cases s with
      | positive => rfl
      | negative => exact absurd (eq_minusZero hx) h
  show ofUnpacked (UnpackedFloat.add Format.binary32 (.zero .positive) (unpacked x)) = x
  rw [hsum, ofUnpacked_unpacked]

/-- A zero, of either sign. -/
def IsZero (x : Float32) : Prop := x.beq 0 = true

theorem isZero_iff : IsZero x ↔ ∃ s, unpacked x = .zero s := by
  show UnpackedFloat.beq (unpacked x) (.zero .positive) = true ↔ _
  cases unpacked x with
  | notANumber => exact ⟨fun h => absurd h Bool.false_ne_true, nofun⟩
  | zero s => exact ⟨fun _ => ⟨s, rfl⟩, fun _ => rfl⟩
  | infinity s =>
    refine ⟨fun h => ?_, nofun⟩
    cases s <;> exact absurd h Bool.false_ne_true
  | finite s m e hm =>
    refine ⟨fun h => ?_, nofun⟩
    cases s <;> exact absurd h Bool.false_ne_true

theorem isZero_ofUnpacked (s : Sign) : IsZero (ofUnpacked (.zero s)) :=
  isZero_iff.2 ⟨s, unpacked_zero s⟩

/-- Taking a finite single from itself leaves a zero. -/
theorem isZero_sub_self (hx : x.isFinite = true) : IsZero (x - x) := by
  have hfinite : (unpacked x).isFinite = true := hx
  revert hfinite
  show _ → IsZero (ofUnpacked (UnpackedFloat.sub Format.binary32 (unpacked x) (unpacked x)))
  cases unpacked x with
  | notANumber => exact fun h => absurd h Bool.false_ne_true
  | infinity s => exact fun h => absurd h Bool.false_ne_true
  | zero s => cases s <;> exact fun _ => rfl
  | finite s m e hm =>
    intro _
    have hnothing : UnpackedFloat.sub Format.binary32 (.finite s m e hm) (.finite s m e hm) =
        .zero .positive := by
      unfold UnpackedFloat.sub UnpackedFloat.normalize
      simp
    rw [hnothing]
    rfl

theorem square_of_isZero (hx : IsZero x) : x * x = 0 := by
  obtain ⟨s, hs⟩ := isZero_iff.1 hx
  show ofUnpacked (UnpackedFloat.mul Format.binary32 (unpacked x) (unpacked x)) = 0
  rw [hs]
  cases s <;> rfl

/-! ## Up to the sign of a zero -/

/-- Equal, or two zeros. -/
def Alike (x y : Float32) : Prop := x = y ∨ IsZero x ∧ IsZero y

theorem Alike.square (h : Alike x y) : x * x = y * y := by
  rcases h with rfl | ⟨hx, hy⟩
  · rfl
  · rw [square_of_isZero hx, square_of_isZero hy]

theorem Alike.mul (h : Alike x y) (z : Float32) : Alike (x * z) (y * z) := by
  rcases h with rfl | ⟨hx, hy⟩
  · exact .inl rfl
  obtain ⟨s, hs⟩ := isZero_iff.1 hx
  obtain ⟨t, ht⟩ := isZero_iff.1 hy
  show Alike (ofUnpacked (UnpackedFloat.mul Format.binary32 (unpacked x) (unpacked z)))
    (ofUnpacked (UnpackedFloat.mul Format.binary32 (unpacked y) (unpacked z)))
  rw [hs, ht]
  cases unpacked z with
  | notANumber => exact .inl rfl
  | infinity r => exact .inl rfl
  | zero r => exact .inr ⟨isZero_ofUnpacked _, isZero_ofUnpacked _⟩
  | finite r m e hm => exact .inr ⟨isZero_ofUnpacked _, isZero_ofUnpacked _⟩

theorem Alike.div (h : Alike x y) (z : Float32) : Alike (x / z) (y / z) := by
  rcases h with rfl | ⟨hx, hy⟩
  · exact .inl rfl
  obtain ⟨s, hs⟩ := isZero_iff.1 hx
  obtain ⟨t, ht⟩ := isZero_iff.1 hy
  show Alike (ofUnpacked (UnpackedFloat.div Format.binary32 (unpacked x) (unpacked z)))
    (ofUnpacked (UnpackedFloat.div Format.binary32 (unpacked y) (unpacked z)))
  rw [hs, ht]
  cases unpacked z with
  | notANumber => exact .inl rfl
  | zero r => exact .inl rfl
  | infinity r => exact .inr ⟨isZero_ofUnpacked _, isZero_ofUnpacked _⟩
  | finite r m e hm => exact .inr ⟨isZero_ofUnpacked _, isZero_ofUnpacked _⟩

/-- Adding zero to what is taken away makes no difference, unless minus zero is taken from
minus zero. -/
theorem sub_zero_add (h : x ≠ -0.0) (y : Float32) : x - (0 + y) = x - y := by
  by_cases hy : y = -0.0
  · rw [hy]
    have hsame : UnpackedFloat.sub Format.binary32 (unpacked x) (.zero .positive) =
        UnpackedFloat.sub Format.binary32 (unpacked x) (.zero .negative) := by
      cases hx : unpacked x with
      | notANumber => rfl
      | infinity s => rfl
      | finite s m e hm => rfl
      | zero s =>
        cases s with
        | positive => rfl
        | negative => exact absurd (eq_minusZero hx) h
    exact congrArg ofUnpacked hsame
  · rw [zero_add hy]

theorem alike_sub_zero_add (x y : Float32) : Alike (x - (0 + y)) (x - y) := by
  by_cases hx : x = -0.0
  · by_cases hy : y = -0.0
    · rw [hx, hy]
      exact .inr ⟨rfl, rfl⟩
    · rw [zero_add hy]
      exact .inl rfl
  · exact .inl (sub_zero_add hx y)

/-! ## On no side of zero -/

/-- A value that is on no side of zero: a zero, or no number. -/
def Sideless (x : Float32) : Prop := (∃ s, unpacked x = .zero s) ∨ unpacked x = .notANumber

theorem sideless_ofUnpacked {u : UnpackedFloat} (h : (∃ s, u = .zero s) ∨ u = .notANumber) :
    Sideless (ofUnpacked u) := by
  rcases h with ⟨s, rfl⟩ | rfl
  · exact .inl ⟨s, unpacked_zero s⟩
  · exact .inr unpacked_notANumber

theorem sideless_sub_self (x : Float32) : Sideless (x - x) := by
  by_cases hx : x.isFinite = true
  · exact .inl (isZero_iff.1 (isZero_sub_self hx))
  · rw [Bool.not_eq_true] at hx
    have hfinite : (unpacked x).isFinite = false := hx
    revert hfinite
    show _ → Sideless (ofUnpacked (UnpackedFloat.sub Format.binary32 (unpacked x) (unpacked x)))
    cases unpacked x with
    | zero s | finite s => exact fun h => absurd h.symm Bool.false_ne_true
    | notANumber => exact fun _ => sideless_ofUnpacked (.inr rfl)
    | infinity s => cases s <;> exact fun _ => sideless_ofUnpacked (.inr rfl)

theorem Sideless.mul (h : Sideless x) (y : Float32) : Sideless (x * y) := by
  show Sideless (ofUnpacked (UnpackedFloat.mul Format.binary32 (unpacked x) (unpacked y)))
  apply sideless_ofUnpacked
  rcases h with ⟨s, hx⟩ | hx
  · rw [hx]
    cases unpacked y with
    | notANumber | infinity t => exact .inr rfl
    | zero t | finite t => exact .inl ⟨_, rfl⟩
  · rw [hx]
    exact .inr rfl

theorem Sideless.sub (hx : Sideless x) (hy : Sideless y) : Sideless (x - y) := by
  show Sideless (ofUnpacked (UnpackedFloat.sub Format.binary32 (unpacked x) (unpacked y)))
  apply sideless_ofUnpacked
  rcases hx with ⟨s, hx⟩ | hx <;> rcases hy with ⟨t, hy⟩ | hy <;> rw [hx, hy]
  · cases s <;> cases t <;> exact .inl ⟨_, rfl⟩
  · exact .inr rfl
  · exact .inr rfl
  · exact .inr rfl

theorem Sideless.not_lt_zero (h : Sideless x) : ¬ x < 0 := by
  rw [lt_iff]
  rcases h with ⟨s, hx⟩ | hx <;> rw [hx] <;> exact Bool.false_ne_true

theorem Sideless.not_zero_lt (h : Sideless x) : ¬ 0 < x := by
  rw [lt_iff]
  rcases h with ⟨s, hx⟩ | hx <;> rw [hx] <;> exact Bool.false_ne_true

/-! ## Squares -/

theorem unpackSign_pack_finite (hm : 0 < m) :
    unpackSign (UnpackedFloat.pack Format.binary32 (.finite s m e hm)) = s.toBitVec := by
  unfold UnpackedFloat.pack
  simp only
  split
  · exact unpackSign_packComponents _ _
  · split <;> exact unpackSign_packComponents _ _

theorem not_lt_zero_unpack {b : BitVec Format.binary32.numBits} {t : Sign}
    (h : unpackSign b = 0#1) :
    UnpackedFloat.lt (UnpackedFloat.unpack Format.binary32 b) (.zero t) = false := by
  have hsign : Sign.ofBitVec (unpackSign b) = .positive := by
    rw [h]
    rfl
  have hcases := unpack_cases b
  rw [hsign] at hcases
  rcases hcases with hb | ⟨-, hb⟩ | hb | ⟨m, e, hm, -, -, hb⟩ <;> rw [hb] <;> rfl

theorem square_not_lt_zero (x : Float32) (t : Sign) :
    UnpackedFloat.lt (unpacked (x * x)) (.zero t) = false := by
  show UnpackedFloat.lt
    (unpacked (ofUnpacked (UnpackedFloat.mul Format.binary32 (unpacked x) (unpacked x)))) _ = _
  cases unpacked x with
  | notANumber => rfl
  | infinity s => cases s <;> rfl
  | zero s => cases s <;> rfl
  | finite s m e hm =>
    have hpositive : s * s = .positive := by cases s <;> rfl
    show UnpackedFloat.lt (unpacked (ofUnpacked
      (UnpackedFloat.roundWithAccuracy Format.binary32 (s * s) (m * m) (e + e) .exact))) _ = _
    rw [hpositive]
    rcases roundWithAccuracy_cases .positive (m * m) (e + e) .exact with hzero | ⟨n, k, hn, hround⟩
    · rw [hzero]
      rfl
    · rw [hround]
      exact not_lt_zero_unpack (unpackSign_pack_finite hn)

/-- **A square is not below a multiple of the square of zero**, whatever the multiple is. -/
theorem not_square_lt (hx : IsZero x) (w y : Float32) : ¬ w * w < x * x * y := by
  have hnothing : Sideless (0 * y) := Sideless.mul (.inl ⟨.positive, rfl⟩) y
  rw [square_of_isZero hx, lt_iff, Bool.not_eq_true]
  rcases hnothing with ⟨t, ht⟩ | hnan
  · rw [ht]
    exact square_not_lt_zero w t
  · rw [hnan]
    cases unpacked (w * w) <;> rfl

end Single

end LaneChart
