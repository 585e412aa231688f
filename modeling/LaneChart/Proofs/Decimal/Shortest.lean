import Mathlib.Algebra.Order.Floor.Semifield
import Mathlib.Data.Rat.Floor
import LaneChart.Decimal.Shortest
import LaneChart.Proofs.Decimal.Binary

/-!
# The shortest decimal is near

The search for the fewest digits looks at one grid of decimals after another. Whatever it finds on a
grid lies in the interval of the reals that round to the single (`candidate?_spec`), and on a grid
that is finer than the interval it finds something (`isSome_candidate?`). The search starts at the
leading digit, and nine digits further on the grid is fine enough (`search_spec`):

> `shortest_spec`: the shortest decimal of a single has at most ten digits before zeros are dropped,
> and it is no more than half a unit away.
-/

namespace LaneChart.Decimal

variable {r : RoundingInterval} {s : Scientific} {t : Tie} {k p : Int}

namespace RoundingInterval

/-! ## Comparisons -/

theorem scale_snd_pos (n : Nat) (unit : Int) {d : Nat} (hd : 0 < d) (k : Int) :
    0 < (scale n unit d k).2 := by
  have hpow : 0 < (decimalRatio d k).1 := by
    unfold decimalRatio
    split
    · exact Nat.mul_pos hd (Nat.pow_pos (by decide))
    · exact hd
  exact Nat.mul_pos hpow (shiftRatio_pos n Nat.one_pos unit)

/-- Both sides of a comparison over their common denominator. -/
theorem ratio_scale (n : Nat) (unit : Int) (d : Nat) (k : Int) :
    ratio (scale n unit d k) = n * 2 ^ unit / (d * 10 ^ k) := by
  have hunits : ratio (shiftRatio n 1 unit) = n * 2 ^ unit := by
    rw [ratio_shiftRatio, Nat.cast_one, div_one]
  rw [← hunits, ← ratio_decimalRatio]
  unfold ratio scale
  simp only [Nat.cast_mul]
  rw [div_div_div_eq, mul_comm (shiftRatio n 1 unit).2.cast]

theorem scale_le_iff (n : Nat) (unit : Int) {d : Nat} (hd : 0 < d) (k : Int) :
    (scale n unit d k).1 ≤ (scale n unit d k).2 ↔ (n * 2 ^ unit : ℚ) ≤ d * 10 ^ k := by
  have hright : (0 : ℚ) < d * 10 ^ k := by positivity
  have hsnd : (0 : ℚ) < (scale n unit d k).2 := by exact_mod_cast scale_snd_pos n unit hd k
  rw [← div_le_one hright, ← ratio_scale n unit d k, ratio, div_le_one hsnd, Nat.cast_le]

theorem le_scale_iff (n : Nat) (unit : Int) {d : Nat} (hd : 0 < d) (k : Int) :
    (scale n unit d k).2 ≤ (scale n unit d k).1 ↔ (d * 10 ^ k : ℚ) ≤ n * 2 ^ unit := by
  have hright : (0 : ℚ) < d * 10 ^ k := by positivity
  have hsnd : (0 : ℚ) < (scale n unit d k).2 := by exact_mod_cast scale_snd_pos n unit hd k
  rw [← one_le_div hright, ← ratio_scale n unit d k, ratio, one_le_div hsnd, Nat.cast_le]

/-- The ends and the middle of an interval come in order. -/
structure Ordered (r : RoundingInterval) : Prop where
  low : r.low < r.value
  high : r.value < r.high

/-- The value that an interval is about. -/
def center (r : RoundingInterval) : ℚ := r.value * 2 ^ r.unit

theorem le_of_holds {d : Nat} (hd : 0 < d) (h : r.holds d k = true) :
    (r.low * 2 ^ r.unit : ℚ) ≤ d * 10 ^ k ∧ (d * 10 ^ k : ℚ) ≤ r.high * 2 ^ r.unit := by
  rw [← scale_le_iff r.low r.unit hd k, ← le_scale_iff r.high r.unit hd k]
  unfold holds at h
  simp only at h
  split at h
  · simpa using h
  · have hstrict := Bool.and_eq_true_iff.1 h
    exact ⟨Nat.le_of_lt (of_decide_eq_true hstrict.1), Nat.le_of_lt (of_decide_eq_true hstrict.2)⟩

theorem holds_of_lt {d : Nat} (hd : 0 < d) (hlow : (r.low * 2 ^ r.unit : ℚ) < d * 10 ^ k)
    (hhigh : (d * 10 ^ k : ℚ) < r.high * 2 ^ r.unit) : r.holds d k = true := by
  rw [← not_le, ← le_scale_iff r.low r.unit hd k, Nat.not_le] at hlow
  rw [← not_le, ← scale_le_iff r.high r.unit hd k, Nat.not_le] at hhigh
  unfold holds
  simp only
  split
  · simp [Nat.le_of_lt hlow, Nat.le_of_lt hhigh]
  · simp [hlow, hhigh]

/-! ## The leading digit -/

/-- The search for the leading digit finds it between its bounds. -/
theorem leadingExponent_spec {steps : Nat} (hlow : (10 : ℚ) ^ (p - steps) ≤ r.center)
    (hhigh : r.center < 10 ^ (p + 1)) :
    let q := r.leadingExponent steps p
    p - steps ≤ q ∧ q ≤ p ∧ (10 : ℚ) ^ q ≤ r.center ∧ r.center < 10 ^ (q + 1) := by
  induction steps generalizing p with
  | zero =>
    rw [Nat.cast_zero, sub_zero] at hlow ⊢
    exact ⟨Int.le_refl p, Int.le_refl p, hlow, hhigh⟩
  | succ steps ih =>
    have htest := le_scale_iff r.value r.unit Nat.one_pos p
    rw [Nat.cast_one, one_mul] at htest
    rw [leadingExponent]
    simp only
    split
    · next hle => exact ⟨by omega, Int.le_refl p, htest.1 hle, hhigh⟩
    · next hgt =>
      have hless : r.center < 10 ^ (p - 1 + 1) := by
        rw [sub_add_cancel]
        exact not_le.1 fun h => hgt (htest.2 h)
      have hstep : p - 1 - (steps : Int) = p - (steps + 1 : Nat) := by omega
      obtain ⟨hfrom, hto, hq⟩ := ih (hstep ▸ hlow) hless
      exact ⟨by omega, by omega, hq⟩

/-! ## Candidates -/

/-- How many steps of a grid fit below the value. -/
def stepsBelow (r : RoundingInterval) (k : Int) : Nat :=
  (scale r.value r.unit 1 k).1 / (scale r.value r.unit 1 k).2

theorem stepsBelow_spec (r : RoundingInterval) (k : Int) :
    (r.stepsBelow k * 10 ^ k : ℚ) ≤ r.center ∧ r.center < (r.stepsBelow k + 1) * 10 ^ k := by
  have hpow : (0 : ℚ) < 10 ^ k := by positivity
  have hratio : ratio (scale r.value r.unit 1 k) = r.center / 10 ^ k := by
    rw [ratio_scale, Nat.cast_one, one_mul, center]
  have hfloor : r.stepsBelow k = ⌊ratio (scale r.value r.unit 1 k)⌋₊ :=
    (Nat.floor_div_eq_div (K := ℚ) _ _).symm
  have hnonneg : (0 : ℚ) ≤ ratio (scale r.value r.unit 1 k) := by
    unfold ratio
    positivity
  have hle := Nat.floor_le hnonneg
  have hlt := Nat.lt_floor_add_one (ratio (scale r.value r.unit 1 k))
  rw [← hfloor, hratio] at hle hlt
  exact ⟨(le_div_iff₀ hpow).1 hle, (div_lt_iff₀ hpow).1 hlt⟩

/-- **What is found on a grid** is one of the two neighbours of the value, and lies in the
interval. -/
theorem candidate?_spec (h : r.candidate? t k = some s) :
    s.exponent = k ∧ 0 < s.digits ∧ s.digits ≤ r.stepsBelow k + 1 ∧ r.holds s.digits k = true := by
  unfold candidate? at h
  simp only at h
  split at h
  · next hlower =>
    obtain rfl := Option.some.inj h
    obtain ⟨hholds, hne⟩ := Bool.and_eq_true_iff.1 (Bool.and_eq_true_iff.1 hlower).1
    exact ⟨rfl, Nat.pos_of_ne_zero (bne_iff_ne.1 hne), Nat.le_succ _, hholds⟩
  · split at h
    · next hupper =>
      obtain rfl := Option.some.inj h
      exact ⟨rfl, Nat.succ_pos _, Nat.le_refl _, hupper⟩
    · cases h

/-- **A grid finer than the interval** has something to be found. -/
theorem isSome_candidate? (hr : r.Ordered) (hfine : (r.low * 2 ^ r.unit : ℚ) + 10 ^ k ≤ r.center) :
    (r.candidate? t k).isSome = true := by
  obtain ⟨hle, hlt⟩ := r.stepsBelow_spec k
  have hunit : (0 : ℚ) < 2 ^ r.unit := by positivity
  have hlow : (r.low * 2 ^ r.unit : ℚ) < r.stepsBelow k * 10 ^ k := by linarith
  have hhigh : r.center < r.high * 2 ^ r.unit := by
    have hcast : (r.value : ℚ) < r.high := by exact_mod_cast hr.high
    unfold center
    gcongr
  have hpos : 0 < r.stepsBelow k := by
    rw [Nat.pos_iff_ne_zero]
    intro hzero
    rw [hzero, Nat.cast_zero, zero_mul] at hlow
    have hnonneg : (0 : ℚ) ≤ r.low * 2 ^ r.unit := by positivity
    linarith
  have hlower : (r.holds (r.stepsBelow k) k && r.stepsBelow k != 0) = true := by
    rw [holds_of_lt hpos hlow (hle.trans_lt hhigh), bne_iff_ne.2 (Nat.ne_of_gt hpos)]
    rfl
  have hcases : r.candidate? t k = some ⟨r.stepsBelow k, k⟩ ∨
      r.candidate? t k = some ⟨r.stepsBelow k + 1, k⟩ := by
    unfold candidate?
    simp only
    split
    · exact .inl rfl
    · next hnot =>
      refine .inr (if_pos ?_)
      by_contra hupper
      refine hnot ?_
      show ((r.holds (r.stepsBelow k) k && r.stepsBelow k != 0) && _) = true
      rw [hlower, Bool.eq_false_iff.2 hupper]
      rfl
  rcases hcases with h | h <;> rw [h] <;> rfl

/-- The search ends with the first thing it finds. -/
theorem search_spec {steps : Nat} (hlast : (r.candidate? t (k - steps)).isSome = true) :
    ∃ j, k - steps ≤ j ∧ j ≤ k ∧ r.candidate? t j = some (r.search t steps k) := by
  induction steps generalizing k with
  | zero =>
    rw [Nat.cast_zero, sub_zero] at hlast ⊢
    obtain ⟨s, hs⟩ := Option.isSome_iff_exists.1 hlast
    refine ⟨k, Int.le_refl k, Int.le_refl k, ?_⟩
    rw [search, hs]
    rfl
  | succ steps ih =>
    rw [search]
    cases hs : r.candidate? t k with
    | some s => exact ⟨k, by omega, Int.le_refl k, hs⟩
    | none =>
      have hstep : k - 1 - (steps : Int) = k - (steps + 1 : Nat) := by omega
      obtain ⟨j, hfrom, hto, hj⟩ := ih (hstep ▸ hlast)
      exact ⟨j, by omega, by omega, hj⟩

/-- **The search from the leading digit**: nine digits further on, an interval that is not
narrower than that has been hit. -/
theorem found_spec (t : Tie) (hr : r.Ordered) (hfrom : (10 : ℚ) ^ (-51 : Int) ≤ r.center)
    (hto : r.center < 10 ^ (40 : Int))
    (hfine : (r.low * 2 ^ r.unit : ℚ) + r.center / 10 ^ 9 ≤ r.center) :
    let s := r.search t 9 (r.leadingExponent 90 39)
    0 < s.digits ∧ s.digits ≤ 10 ^ 10 ∧ -60 ≤ s.exponent ∧ s.exponent ≤ 39 ∧
      (r.low * 2 ^ r.unit : ℚ) ≤ s.digits * 10 ^ s.exponent ∧
      (s.digits * 10 ^ s.exponent : ℚ) ≤ r.high * 2 ^ r.unit := by
  intro s
  have hfirst : (10 : ℚ) ^ ((39 : Int) - (90 : Nat)) ≤ r.center := hfrom
  obtain ⟨hqfrom, hqto, hqle, hqlt⟩ := leadingExponent_spec hfirst hto
  have hs : s = r.search t 9 (r.leadingExponent 90 39) := rfl
  generalize r.leadingExponent 90 39 = q at hqfrom hqto hqle hqlt hs
  have hgrid : (r.low * 2 ^ r.unit : ℚ) + 10 ^ (q - (9 : Nat)) ≤ r.center := by
    have hstep : (10 : ℚ) ^ (q - (9 : Nat)) = 10 ^ q / 10 ^ 9 := by
      rw [zpow_sub₀ (by norm_num), zpow_natCast]
    have hle : (10 : ℚ) ^ q / 10 ^ 9 ≤ r.center / 10 ^ 9 := by gcongr
    rw [hstep]
    linarith
  obtain ⟨j, hjfrom, hjto, hfound⟩ := search_spec (isSome_candidate? (t := t) hr hgrid)
  rw [← hs] at hfound
  obtain ⟨hj, hdigits, hbelow, hholds⟩ := candidate?_spec hfound
  subst hj
  obtain ⟨hlow, hhigh⟩ := le_of_holds hdigits hholds
  have hfew : r.stepsBelow s.exponent < 10 ^ 10 := by
    have hpow : (0 : ℚ) < 10 ^ s.exponent := by positivity
    have hlt : (r.stepsBelow s.exponent * 10 ^ s.exponent : ℚ) < 10 ^ 10 * 10 ^ s.exponent := by
      calc (r.stepsBelow s.exponent * 10 ^ s.exponent : ℚ)
        _ ≤ r.center := (r.stepsBelow_spec s.exponent).1
        _ < 10 ^ (q + 1) := hqlt
        _ ≤ 10 ^ ((10 : Nat) + s.exponent) := zpow_le_zpow_right₀ (by norm_num) (by omega)
        _ = 10 ^ 10 * 10 ^ s.exponent := by rw [zpow_add₀ (by norm_num), zpow_natCast]
    exact_mod_cast lt_of_mul_lt_mul_right hlt hpow.le
  exact ⟨hdigits, by omega, by omega, by omega, hlow, hhigh⟩

end RoundingInterval

/-! ## Zeros at the end -/

/-- Dropping zeros at the end of the digits does not change the value. -/
theorem Scientific.trim_spec (steps : Nat) (hs : 0 < s.digits) :
    let s' := s.trim steps
    0 < s'.digits ∧ s'.digits ≤ s.digits ∧ s.exponent ≤ s'.exponent ∧
      s'.exponent ≤ s.exponent + steps ∧
      (s'.digits * 10 ^ s'.exponent : ℚ) = s.digits * 10 ^ s.exponent := by
  induction steps generalizing s with
  | zero => exact ⟨hs, Nat.le_refl _, Int.le_refl _, by simp [trim], rfl⟩
  | succ steps ih =>
    rw [trim]
    split
    · next hzero =>
      have hten : s.digits = s.digits / 10 * 10 := by omega
      obtain ⟨hpos, hdigits, hfrom, hto, hvalue⟩ :=
        ih (s := ⟨s.digits / 10, s.exponent + 1⟩) (by show 0 < s.digits / 10; omega)
      refine ⟨hpos, Nat.le_trans hdigits (Nat.div_le_self _ _), ?_, ?_, ?_⟩
      · exact Int.le_trans (by show s.exponent ≤ s.exponent + 1; omega) hfrom
      · refine Int.le_trans hto ?_
        show s.exponent + 1 + (steps : Int) ≤ s.exponent + (steps + 1 : Nat)
        omega
      · have hcast : (s.digits : ℚ) = (s.digits / 10 : Nat) * 10 := by exact_mod_cast hten
        rw [hvalue, hcast, zpow_add_one₀ (by norm_num)]
        ring
    · exact ⟨hs, Nat.le_refl _, Int.le_refl _, by omega, rfl⟩

/-! ## The shortest decimal -/

/-- The interval around a positive single reaches half a unit up, and down by half a unit
or a quarter. -/
theorem RoundingInterval.ofSingle_spec {bits : Nat} (hpos : 0 < bits)
    (h : bits < Format.single.infinityBits) :
    let r := RoundingInterval.ofSingle bits
    let m := (Format.single.parts bits).1
    let u := (Format.single.parts bits).2
    r.Ordered ∧ r.center = m * 2 ^ u ∧ (m - 1 / 2 : ℚ) * 2 ^ u ≤ r.low * 2 ^ r.unit ∧
      (r.low * 2 ^ r.unit : ℚ) ≤ (m - 1 / 4) * 2 ^ u ∧
      (r.high * 2 ^ r.unit : ℚ) = (m + 1 / 2) * 2 ^ u := by
  intro r m u
  obtain ⟨hm, -, -, -⟩ := parts_bounds hpos h
  have hquarter : (2 : ℚ) ^ (u - 2) = 2 ^ u / 4 := by
    rw [zpow_sub₀ two_ne_zero]
    norm_num
  have hunit : r.unit = u - 2 := rfl
  have hvalue : (r.value : ℚ) = 4 * m := by
    show ((4 * m : Nat) : ℚ) = _
    push_cast
    rfl
  have hhigh : (r.high : ℚ) = 4 * m + 2 := by
    show ((4 * m + 2 : Nat) : ℚ) = _
    push_cast
    rfl
  have hlow : r.low + 1 = 4 * m ∨ r.low + 2 = 4 * m := by
    show 4 * m - (if _ then 1 else 2) + 1 = _ ∨ 4 * m - (if _ then 1 else 2) + 2 = _
    split
    · exact .inl (by omega)
    · exact .inr (by omega)
  have hpow : (0 : ℚ) < 2 ^ u := by positivity
  have hbelow : (4 * m - 2 : ℚ) ≤ r.low ∧ (r.low : ℚ) ≤ 4 * m - 1 := by
    obtain hlow | hlow := hlow
    · have hcast : (r.low : ℚ) + 1 = 4 * m := by exact_mod_cast hlow
      constructor <;> linarith
    · have hcast : (r.low : ℚ) + 2 = 4 * m := by exact_mod_cast hlow
      constructor <;> linarith
  unfold center
  rw [hunit, hquarter, hvalue, hhigh]
  refine ⟨⟨?_, ?_⟩, by ring, ?_, ?_, by ring⟩
  · show r.low < 4 * m
    omega
  · show 4 * m < 4 * m + 2
    omega
  · calc (m - 1 / 2 : ℚ) * 2 ^ u = (4 * m - 2) * (2 ^ u / 4) := by ring
      _ ≤ r.low * (2 ^ u / 4) := by gcongr; exact hbelow.1
  · calc (r.low * (2 ^ u / 4) : ℚ) ≤ (4 * m - 1) * (2 ^ u / 4) := by gcongr; exact hbelow.2
      _ = (m - 1 / 4) * 2 ^ u := by ring

/-- **The shortest decimal of a positive single** is no more than half a unit away, and
its digits and its exponent are bounded. -/
theorem shortest_spec (t : Tie) {bits : Nat} (hpos : 0 < bits)
    (h : bits < Format.single.infinityBits) :
    let s := shortest t bits
    let m := (Format.single.parts bits).1
    let u := (Format.single.parts bits).2
    0 < s.digits ∧ s.digits ≤ 10 ^ 10 ∧ -60 ≤ s.exponent ∧ s.exponent ≤ 49 ∧
      (m - 1 / 2 : ℚ) * 2 ^ u ≤ s.digits * 10 ^ s.exponent ∧
      (s.digits * 10 ^ s.exponent : ℚ) ≤ (m + 1 / 2) * 2 ^ u := by
  intro s m u
  obtain ⟨hmpos, hmlt, hleast, hgreatest⟩ := parts_bounds hpos h
  obtain ⟨hordered, hcenter, hlowFrom, hlowTo, hhigh⟩ := RoundingInterval.ofSingle_spec hpos h
  have hm : (1 : ℚ) ≤ m ∧ (m : ℚ) < 2 ^ 24 := ⟨by exact_mod_cast hmpos, by exact_mod_cast hmlt⟩
  have hupos : (0 : ℚ) < 2 ^ u := by positivity
  have hufrom : (2 : ℚ) ^ (-149 : Int) ≤ 2 ^ u := zpow_le_zpow_right₀ one_le_two hleast
  have huto : (2 : ℚ) ^ u ≤ 2 ^ (104 : Int) := zpow_le_zpow_right₀ one_le_two hgreatest
  have hfrom : (10 : ℚ) ^ (-51 : Int) ≤ m * 2 ^ u := by
    calc (10 : ℚ) ^ (-51 : Int) ≤ 1 * 2 ^ (-149 : Int) := by norm_num
      _ ≤ m * 2 ^ u := by gcongr; exact hm.1
  have hto : (m * 2 ^ u : ℚ) < 10 ^ (40 : Int) := by
    calc (m * 2 ^ u : ℚ) ≤ 2 ^ 24 * 2 ^ (104 : Int) := by gcongr; exact hm.2.le
      _ < 10 ^ (40 : Int) := by norm_num
  have hgrid : (m * 2 ^ u : ℚ) / 10 ^ 9 ≤ 1 / 4 * 2 ^ u := by
    rw [div_le_iff₀ (by norm_num), mul_right_comm]
    gcongr
    linarith [hm.2]
  obtain ⟨hdigits, hfew, hefrom, heto, hlow, hup⟩ := RoundingInterval.found_spec t hordered
    (hcenter ▸ hfrom) (hcenter ▸ hto) (by rw [hcenter]; linarith)
  obtain ⟨htrimmed, hless, hkfrom, hkto, hvalue⟩ := Scientific.trim_spec 10 hdigits
  have hs : s = Scientific.trim 10 _ := rfl
  rw [← hs] at htrimmed hless hkfrom hkto hvalue
  refine ⟨htrimmed, Nat.le_trans hless hfew, Int.le_trans hefrom hkfrom, by omega, ?_, ?_⟩
  · rw [hvalue]
    exact hlowFrom.trans hlow
  · rw [hvalue]
    exact hup.trans hhigh.le

end LaneChart.Decimal
