import LaneChart.Proofs.Decimal.Shortest
import LaneChart.Proofs.Json.Typed
import LaneChart.Proofs.Plane.Doubles

/-!
# Singles are read again

A finite single is written with the fewest digits that read back. The reader forms the number in
double precision, with a few roundings on the way (`scaled?_spec`), and rounds the double to a
single. Nothing is said here about which single that is; it is finite, and the checks that the first
one passed are passed by it as well (`Kept`):

> `ofSingle_spec`: a single is read again from what was written for it if and only if it is finite.
-/

namespace LaneChart.Json

open Decimal (Format Kind Scientific isNegative kind naturalText shortest singleOfBits)
open Layout.Force.Settings (isPositive isNonNegative isShare)

/-! ## Digits -/

namespace Number

variable {n : Number} {value : Nat} {ds : List Char}

/-- All digits of a number as one natural number. -/
def digits (n : Number) : Nat := Nat.ofDigitChars 10 n.places n.whole

/-- The power of ten that its digits are multiplied by. -/
def scale (n : Number) : Int := n.exponent.getD 0 - n.places.length

theorem le_ofDigitChars (value : Nat) (ds : List Char) : value ≤ Nat.ofDigitChars 10 ds value := by
  induction ds generalizing value with
  | nil => exact Nat.le_refl _
  | cons d ds ih =>
    rw [Nat.ofDigitChars_cons]
    exact Nat.le_trans (by omega) (ih _)

/-- A significand takes up all digits when there is room for them. -/
theorem extend_eq (h : Nat.ofDigitChars 10 ds value < UInt64.size) :
    Significand.extend value ds = ⟨Nat.ofDigitChars 10 ds value, []⟩ := by
  induction ds generalizing value with
  | nil => rfl
  | cons d ds ih =>
    rw [Nat.ofDigitChars_cons, Nat.mul_comm] at h ⊢
    rw [Significand.extend]
    simp only [if_pos (Nat.lt_of_le_of_lt (le_ofDigitChars _ ds) h)]
    exact ih h

/-- A number of few digits, none of which is dropped, with a small exponent and not
written as an integer. -/
structure Short (n : Number) (v : ℚ) : Prop where
  wellFormed : n.WellFormed
  notInteger : n.isInteger = false
  pos : 0 < n.digits
  lt : n.digits < 2 ^ 53
  fewPlaces : n.places.length ≤ 100
  exponent : (n.exponent.getD 0).natAbs ≤ 100
  scale : -60 ≤ n.scale ∧ n.scale ≤ 49
  value : (n.digits * 10 ^ n.scale : ℚ) = v

/-- The double of a short number is formed from all of its digits. -/
theorem Short.double?_eq {v : ℚ} (h : n.Short v) :
    n.double? = (scaled? n.digits n.scale).map fun x => if n.negative then -x else x := by
  have hlt := h.lt
  have hwhole : Significand.extend 0 (naturalText n.whole) = ⟨n.whole, []⟩ := by
    have hvalue : Nat.ofDigitChars 10 (naturalText n.whole) 0 = n.whole :=
      Nat.ofDigitChars_ten_toDigits
    have hle : n.whole ≤ n.digits := le_ofDigitChars _ _
    rw [extend_eq (by rw [hvalue]; show _ < 18446744073709551616; omega), hvalue]
  have hfull : Significand.extend n.whole n.places = ⟨n.digits, []⟩ :=
    extend_eq (by show n.digits < 18446744073709551616; omega)
  have hshift : ((([] : List Char).length : Int) -
      ((n.places.length - ([] : List Char).length : Nat) : Int)) = -n.places.length := by
    simp
  unfold double?
  simp only [hwhole, hfull, hshift, Option.bind_eq_bind]
  have hplaces := h.fewPlaces
  have hsmall := h.exponent
  have hscale : n.scale = n.exponent.getD 0 - n.places.length := rfl
  rw [Option.map_eq_bind]
  cases hexponent : n.exponent with
  | none =>
    rw [hexponent, Option.getD_none, Int.zero_sub] at hscale
    rw [hscale]
    rfl
  | some e =>
    rw [hexponent, Option.getD_some] at hscale hsmall
    have hlimit : exponentLimit = 2147483647 := rfl
    have hclamp :
        max (-exponentLimit - 1) (min exponentLimit (-n.places.length + e)) = n.scale := by
      omega
    simp only [hclamp]
    rw [if_neg (by omega), if_neg (by omega)]
    rfl

/-- **A double from digits and a power of ten.** -/
theorem scaled?_spec {e : Int} (hpos : 0 < value) (hlt : value < 2 ^ 53) (hfrom : -60 ≤ e)
    (hto : e ≤ 49) :
    ∃ x, scaled? value e = some x ∧ Double.Near 472 (1 / 2 ^ 48) x (value * 10 ^ e) := by
  have hnat := Double.near_ofNat hpos hlt
  have hcast : (0 : ℚ) < value := by exact_mod_cast hpos
  have hvalue : (0 : ℚ) < value * 10 ^ e := by positivity
  unfold scaled?
  by_cases hsign : 0 ≤ e
  · obtain ⟨k, rfl⟩ := Int.eq_ofNat_of_zero_le hsign
    have hpower := Double.near_powerOfTen (by omega : k ≤ 60)
    have hmul :=
      Double.near_mul hnat hpower hcast (by positivity) (by omega) (by norm_num) (by norm_num)
    refine ⟨Float.ofNat value * powerOfTen k, ?_, ?_⟩
    · rw [if_pos hsign, if_pos (by omega), Int.toNat_natCast]
      simp only [hmul.isInf_eq]
      rfl
    · rw [zpow_natCast] at hvalue ⊢
      exact hmul.mono (by omega) (by norm_num) hvalue
  · obtain ⟨k, rfl⟩ : ∃ k : Nat, e = -k := ⟨(-e).toNat, by omega⟩
    have hpower := Double.near_powerOfTen (by omega : k ≤ 60)
    have hdiv :=
      Double.near_div hnat hpower hcast (by positivity) (by omega) (by norm_num) (by norm_num)
    refine ⟨Float.ofNat value / powerOfTen k, ?_, ?_⟩
    · rw [if_neg hsign, if_pos (by omega), neg_neg, Int.toNat_natCast]
    · rw [zpow_neg, zpow_natCast, ← div_eq_mul_inv] at hvalue ⊢
      exact hdiv.mono (by omega) (by norm_num) hvalue

/-- **What a short number is read as**, without its sign: a value near to its own, rounded
to a single. -/
theorem Short.single?_eq {v : ℚ} (h : n.Short v) (hsign : n.negative = false) :
    ∃ num den : Nat, 0 < num ∧ 0 < den ∧ |(num / den : ℚ) - v| ≤ 1 / 2 ^ 48 * v ∧
      n.single? = some (singleOfBits false (Format.single.nearestBits num den)) := by
  obtain ⟨x, hx, w, hstores, hnear⟩ := scaled?_spec h.pos h.lt h.scale.1 h.scale.2
  obtain ⟨num, den, hnum, hden, hvalue, hnarrow⟩ := hstores.narrow_eq
  refine ⟨num, den, hnum, hden, ?_, ?_⟩
  · rw [hvalue, ← h.value]
    exact hnear
  · unfold single?
    rw [h.notInteger, h.double?_eq, hx, hsign]
    exact congrArg some hnarrow

theorem Short.isSome_single? {v : ℚ} (h : n.Short v) : n.single?.isSome = true := by
  obtain ⟨x, hx, -⟩ := scaled?_spec h.pos h.lt h.scale.1 h.scale.2
  unfold single?
  rw [h.notInteger, h.double?_eq, hx]
  rfl

/-! ## Scientific notation -/

theorem negative_ofScientific (negative : Bool) (s : Scientific) :
    (ofScientific negative s).negative = negative := by
  unfold ofScientific
  simp only
  split
  · rfl
  split
  · rfl
  split <;> rfl

/-- Digits taken apart at some place are the same digits. -/
theorem ofDigitChars_take_drop (ds : List Char) (k : Nat) :
    Nat.ofDigitChars 10 (ds.drop k) (Nat.ofDigitChars 10 (ds.take k) 0) =
      Nat.ofDigitChars 10 ds 0 := by
  rw [← Nat.ofDigitChars_append, List.take_append_drop]

theorem isInteger_of_places (h : 0 < n.places.length) : n.isInteger = false := by
  unfold isInteger
  rw [List.isEmpty_eq_false_iff.2 (List.ne_nil_of_length_pos h), Bool.false_and]

/-- A number that has the digits and the exponent as they are is short. -/
theorem Short.of_digits {s : Scientific} (hpos : 0 < s.digits) (hfew : s.digits ≤ 10 ^ 10)
    (hfrom : -60 ≤ s.exponent) (hto : s.exponent ≤ 49) (hplaces : ∀ c ∈ n.places, isDigit c = true)
    (hinteger : n.isInteger = false) (hlength : n.places.length ≤ 100)
    (hexponent : (n.exponent.getD 0).natAbs ≤ 100) (hdigits : n.digits = s.digits)
    (hscale : n.scale = s.exponent) : n.Short (s.digits * 10 ^ s.exponent) where
  wellFormed := hplaces
  notInteger := hinteger
  pos := hdigits ▸ hpos
  lt := by omega
  fewPlaces := hlength
  exponent := hexponent
  scale := by omega
  value := by rw [hdigits, hscale]

/-- So it is when the exponent is negative, and as many of the digits are behind the point. -/
theorem Short.of_places {s : Scientific} (negative : Bool) {whole : Nat} (hpos : 0 < s.digits)
    (hfew : s.digits ≤ 10 ^ 10) (hfrom : -60 ≤ s.exponent) (hneg : s.exponent < 0)
    (hplaces : ∀ c ∈ ds, isDigit c = true) (hlength : (ds.length : Int) = -s.exponent)
    (hdigits : Nat.ofDigitChars 10 ds whole = s.digits) :
    (Number.mk negative whole ds none).Short (s.digits * 10 ^ s.exponent) := by
  refine .of_digits hpos hfew hfrom (by omega) hplaces (isInteger_of_places ?_) ?_ (Nat.zero_le _)
    hdigits ?_
  · show 0 < ds.length
    omega
  · show ds.length ≤ 100
    omega
  · show (0 : Int) - (ds.length : Int) = s.exponent
    omega

/-- A number with zeros filled in up to the point and one behind it. -/
theorem Short.filled (negative : Bool) {d k : Nat} (hpos : 0 < d) (hlt : d * 10 ^ k < 10 ^ 13) :
    (Number.mk negative (d * Nat.pow 10 k) ['0'] none).Short (d * 10 ^ k) := by
  have hdigits :
      (Number.mk negative (d * Nat.pow 10 k) ['0'] none).digits = 10 * (d * 10 ^ k) := rfl
  have hscale : (Number.mk negative (d * Nat.pow 10 k) ['0'] none).scale = -1 := rfl
  have hfilled : 0 < d * 10 ^ k := Nat.mul_pos hpos (Nat.pow_pos (by decide))
  refine ⟨?_, rfl, by omega, by omega, (by decide : 1 ≤ 100), Nat.zero_le _,
    (by decide : (-60 : Int) ≤ -1 ∧ (-1 : Int) ≤ 49), ?_⟩
  · intro c hc
    obtain rfl := List.mem_singleton.1 hc
    rfl
  · rw [hdigits, hscale]
    push_cast
    ring

/-- **What is written for digits and an exponent** is a short number of the same value. -/
theorem short_ofScientific {s : Scientific} (negative : Bool) (hpos : 0 < s.digits)
    (hfew : s.digits ≤ 10 ^ 10) (hfrom : -60 ≤ s.exponent) (hto : s.exponent ≤ 49) :
    (ofScientific negative s).Short (s.digits * 10 ^ s.exponent) := by
  have hvalue : Nat.ofDigitChars 10 (naturalText s.digits) 0 = s.digits :=
    Nat.ofDigitChars_ten_toDigits
  have hisDigit : ∀ c ∈ naturalText s.digits, isDigit c = true := fun c =>
    isDigit_of_mem_naturalText
  have hlength : (naturalText s.digits).length ≤ 11 :=
    (Nat.length_toDigits_le_iff (by decide) (by decide)).2 (by omega)
  have hlengthPos : 0 < (naturalText s.digits).length := Nat.length_toDigits_pos
  have hsize : s.digits < 10 ^ (naturalText s.digits).length :=
    (Nat.length_toDigits_le_iff (by decide) hlengthPos).1 (Nat.le_refl _)
  unfold ofScientific
  simp only
  generalize naturalText s.digits = ds at *
  split
  · next hwhole =>
    -- the point is behind all digits
    obtain ⟨hnonneg, hpoint⟩ := hwhole
    generalize hk : s.exponent.toNat = k
    have hexponent : s.exponent = k := by omega
    rw [hexponent, zpow_natCast]
    refine .filled negative hpos ?_
    calc s.digits * 10 ^ k < 10 ^ ds.length * 10 ^ k :=
          Nat.mul_lt_mul_of_pos_right hsize (Nat.pow_pos (by decide))
      _ = 10 ^ (ds.length + k) := (Nat.pow_add 10 _ _).symm
      _ ≤ 10 ^ 13 := Nat.pow_le_pow_right (by decide) (by omega)
  next hwhole =>
  split
  · next hinside =>
    -- the point is among the digits
    refine .of_places negative hpos hfew hfrom (by omega) ?_ ?_ ?_
    · exact fun c hc => hisDigit c (List.mem_of_mem_drop hc)
    · rw [List.length_drop]
      omega
    · exact (ofDigitChars_take_drop ds _).trans hvalue
  split
  · next hbelow =>
    -- the point is before all digits, with some zeros between them
    refine .of_places negative hpos hfew hfrom (by omega) ?_ ?_ ?_
    · intro c hc
      rcases List.mem_append.1 hc with hzero | hdigit
      · obtain ⟨-, rfl⟩ := List.mem_replicate.1 hzero
        rfl
      · exact hisDigit c hdigit
    · rw [List.length_append, List.length_replicate]
      omega
    · rw [Nat.ofDigitChars_append, Nat.ofDigitChars_replicate_zero, Nat.mul_zero, hvalue]
  · -- the point is behind the first digit, and an exponent says where it belongs
    have hplaces : (ds.drop 1).length = ds.length - 1 := List.length_drop
    refine .of_digits hpos hfew hfrom hto ?_ (Bool.and_false _) ?_ ?_ ?_ ?_
    · exact fun c hc => hisDigit c (List.mem_of_mem_drop hc)
    · show (ds.drop 1).length ≤ 100
      omega
    · show (ds.length + s.exponent - 1).natAbs ≤ 100
      omega
    · exact (ofDigitChars_take_drop ds 1).trans hvalue
    · show ds.length + s.exponent - 1 - ((ds.drop 1).length : Int) = s.exponent
      omega

/-! ## Positive singles -/

theorem short_shortest (negative : Bool) {bits : Nat} (hpos : 0 < bits)
    (h : bits < Format.single.infinityBits) :
    (ofScientific negative (shortest .toEven bits)).Short
      ((shortest .toEven bits).digits * 10 ^ (shortest .toEven bits).exponent) := by
  obtain ⟨hdigits, hfew, hfrom, hto, -, -⟩ := Decimal.shortest_spec .toEven hpos h
  exact short_ofScientific negative hdigits hfew hfrom hto

/-- The least single, the greatest one and one are read as themselves. -/
theorem single?_edges : ∀ bits ∈ [1, 127 * 2 ^ 23, 255 * 2 ^ 23 - 1],
    (ofScientific false (shortest .toEven bits)).single? = some (singleOfBits false bits) := by
  decide +kernel

/-- **What is written for a positive single is read as a positive single**, and as one
that is one at most if the first one was. -/
theorem single?_shortest {bits : Nat} (hpos : 0 < bits) (h : bits < Format.single.infinityBits) :
    ∃ c, 0 < c ∧ c < Format.single.infinityBits ∧ (bits ≤ 127 * 2 ^ 23 → c ≤ 127 * 2 ^ 23) ∧
      (ofScientific false (shortest .toEven bits)).single? = some (singleOfBits false c) := by
  by_cases hedge : bits ∈ [1, 127 * 2 ^ 23, 255 * 2 ^ 23 - 1]
  · exact ⟨bits, hpos, h, id, single?_edges bits hedge⟩
  have hinfinity : Format.single.infinityBits = 255 * 2 ^ 23 := by decide
  simp only [List.mem_cons, List.not_mem_nil, or_false, not_or] at hedge
  obtain ⟨hleast, hone, hgreatest⟩ := hedge
  obtain ⟨-, -, -, -, hlow, hhigh⟩ := Decimal.shortest_spec .toEven hpos h
  have hshort := short_shortest false hpos h
  generalize ((shortest .toEven bits).digits * 10 ^ (shortest .toEven bits).exponent : ℚ) = v at *
  obtain ⟨num, den, hnum, hden, hnear, hread⟩ := hshort.single?_eq (negative_ofScientific false _)
  obtain ⟨hfrom, hto⟩ := abs_le.1 hnear
  -- the written decimal is half a place away at most, and the double misses it by far less than the
  -- half place that is then left up to the next edge
  refine ⟨_, Decimal.nearestBits_pos hnum hden ?_, Decimal.nearestBits_lt_infinity hnum hden ?_, ?_,
    hread⟩
  · have hbelow := Decimal.le_half_below (by omega) h
    have hhalf : (2 : ℚ) ^ (-150 : Int) < (1 - 1 / 2 ^ 48) * (3 / 2 * 2 ^ (-149 : Int)) := by
      norm_num
    linarith
  · have habove := Decimal.half_above_le_of_lt_greatest (by omega : bits < 255 * 2 ^ 23 - 1)
    have hhalf : (1 + 1 / 2 ^ 48) * ((2 ^ 24 - 3 / 2) * 2 ^ (104 : Int)) <
        ((2 ^ 24 - 1 / 2) * 2 ^ (104 : Int) : ℚ) := by norm_num
    linarith
  · intro hshare
    have habove := Decimal.half_above_le_of_lt_one (by omega : bits < 127 * 2 ^ 23)
    have hhalf : (1 + 1 / 2 ^ 48) * ((2 ^ 24 - 1 / 2) * 2 ^ (-24 : Int)) ≤ (1 : ℚ) := by norm_num
    refine Decimal.nearestBits_le_one hnum hden ?_
    linarith

/-- A zero is read as itself. -/
theorem single?_zero : ∀ negative,
    (Number.mk negative 0 ['0'] none).single? = some (singleOfBits negative 0) := by
  decide +kernel

end Number

/-! ## Documents -/

variable {x : Float32} {bits : Nat}

/-- The checks that a single passes are passed by another one. -/
structure Kept (x y : Float32) : Prop where
  positive : isPositive x = true → isPositive y = true
  share : isShare x = true → isShare y = true
  nonNegative : isNonNegative x = true → isNonNegative y = true

theorem kind_lt (h : kind x = .finite bits) : bits < Format.single.infinityBits := by
  obtain ⟨b, hlt, hkind, -⟩ | ⟨hkind, -⟩ | ⟨hkind, -⟩ := Single.kind_cases x
  · rw [hkind] at h
    injection h with h
    exact h ▸ hlt
  · exact absurd (hkind.symm.trans h) nofun
  · exact absurd (hkind.symm.trans h) nofun

theorem kept_zero (h : kind x = .finite 0) (negative : Bool) :
    Kept x (singleOfBits negative 0) where
  positive hx := by
    obtain ⟨b, hpos, hkind, -⟩ := Single.isPositive_iff.1 hx
    injection h.symm.trans hkind with hb
    omega
  share _ := by cases negative <;> decide +kernel
  nonNegative _ := by cases negative <;> decide +kernel

/-- A single without a sign that is positive, and one at most if the first one was. -/
theorem kept_singleOfBits {c : Nat} (h : kind x = .finite bits) (hbits : 0 < bits) (hpos : 0 < c)
    (hlt : c < Format.single.infinityBits) (hone : bits ≤ 127 * 2 ^ 23 → c ≤ 127 * 2 ^ 23) :
    Kept x (singleOfBits false c) := by
  obtain ⟨hkind, hsign⟩ := Single.kind_singleOfBits hlt
  refine ⟨fun _ => ?_, fun hx => ?_, fun _ => ?_⟩
  · exact Single.isPositive_iff.2 ⟨c, hpos, hkind, hsign⟩
  · obtain ⟨b, hb, hzero | ⟨-, hle⟩⟩ := Single.isShare_iff.1 hx <;>
      injection h.symm.trans hb with hsame
    · omega
    · exact Single.isShare_iff.2 ⟨c, hkind, .inr ⟨hsign, hone (hsame ▸ hle)⟩⟩
  · exact Single.isNonNegative_iff.2 ⟨c, hkind, .inr hsign⟩

/-- A negative single passes no check. -/
theorem kept_of_negative (h : kind x = .finite bits) (hpos : 0 < bits) (hsign : isNegative x = true)
    (y : Float32) : Kept x y := by
  refine ⟨fun hx => ?_, fun hx => ?_, fun hx => ?_⟩
  · obtain ⟨-, -, -, hpositive⟩ := Single.isPositive_iff.1 hx
    exact absurd (hsign.symm.trans hpositive) nofun
  · obtain ⟨b, hb, hzero | ⟨hpositive, -⟩⟩ := Single.isShare_iff.1 hx
    · injection h.symm.trans hb with hsame
      omega
    · exact absurd (hsign.symm.trans hpositive) nofun
  · obtain ⟨b, hb, hzero | hpositive⟩ := Single.isNonNegative_iff.1 hx
    · injection h.symm.trans hb with hsame
      omega
    · exact absurd (hsign.symm.trans hpositive) nofun

theorem ofSingle_of_kind (h : kind x = .finite bits) :
    ofSingle x = .number (if bits = 0 then ⟨isNegative x, 0, ['0'], none⟩
      else Number.ofScientific (isNegative x) (shortest .toEven bits)) := by
  unfold ofSingle Number.ofSingle?
  rw [h]
  by_cases hzero : bits = 0
  · simp only [if_pos hzero]
  · simp only [if_neg hzero]

/-- **A finite single is read again**, and the checks that it passed are passed once more. -/
theorem single?_ofSingle (h : x.isFinite = true) :
    ∃ y, single? (ofSingle x) = some y ∧ Kept x y := by
  obtain ⟨bits, hkind⟩ := Single.isFinite_iff_kind.1 h
  rw [ofSingle_of_kind hkind]
  show ∃ y, Number.single? _ = some y ∧ Kept x y
  split
  · next hzero =>
    subst hzero
    exact ⟨_, Number.single?_zero _, kept_zero hkind _⟩
  next hzero =>
  have hpos : 0 < bits := by omega
  cases hsign : isNegative x with
  | false =>
    obtain ⟨c, hc, hlt, hone, hread⟩ := Number.single?_shortest hpos (kind_lt hkind)
    exact ⟨_, hread, kept_singleOfBits hkind hpos hc hlt hone⟩
  | true =>
    obtain ⟨y, hread⟩ := Option.isSome_iff_exists.1
      (Number.short_shortest true hpos (kind_lt hkind)).isSome_single?
    exact ⟨y, hread, kept_of_negative hkind hpos hsign y⟩

/-- A single that is not finite is written as null. -/
theorem ofSingle_eq_null (h : x.isFinite = false) : ofSingle x = .null := by
  unfold ofSingle Number.ofSingle?
  obtain ⟨b, -, hkind, -⟩ | ⟨hkind, -⟩ | ⟨hkind, -⟩ := Single.kind_cases x
  · rw [Single.isFinite_iff_kind.2 ⟨b, hkind⟩] at h
    exact absurd h nofun
  · rw [hkind]
  · rw [hkind]

/-- **Only a finite single is read again.** -/
theorem isSome_single?_ofSingle (x : Float32) : (single? (ofSingle x)).isSome = x.isFinite := by
  cases h : x.isFinite with
  | true =>
    obtain ⟨y, hread, -⟩ := single?_ofSingle h
    rw [hread]
    rfl
  | false =>
    rw [ofSingle_eq_null h]
    rfl

theorem wellSpelled_ofSingle (x : Float32) : WellSpelled (ofSingle x) := by
  cases h : x.isFinite with
  | false =>
    rw [ofSingle_eq_null h]
    exact .null
  | true =>
    obtain ⟨bits, hkind⟩ := Single.isFinite_iff_kind.1 h
    rw [ofSingle_of_kind hkind]
    refine .number ?_
    split
    · intro c hc
      obtain rfl := List.mem_singleton.1 hc
      rfl
    · exact (Number.short_shortest _ (by omega) (kind_lt hkind)).wellFormed

end LaneChart.Json
