import Mathlib.Algebra.Order.Field.Rat
import Mathlib.Algebra.Order.Field.Power
import Mathlib.Tactic.FieldSimp
import Mathlib.Tactic.Linarith
import Mathlib.Tactic.NormNum
import Mathlib.Tactic.Positivity
import Mathlib.Tactic.Ring
import LaneChart.Decimal.Binary

/-!
# The single nearest to a ratio

The arithmetic of patterns is done with pairs of naturals. Here the pairs are taken for the
rationals that they stand for (`ratio`). What a ratio is rounded to follows from where its leading
bit is and from an error of half a unit (`nearestBits_single`):

> `nearestBits_pos`: more than half the least single is not rounded to zero.
> `nearestBits_le_one`: what is at most one is rounded to one at most.
> `nearestBits_lt_infinity`: what is less than half a unit above the greatest single is
> rounded to a single.
-/

namespace LaneChart.Decimal

variable {num den n : Nat} {unit k shift : Int}

/-- A pair of naturals as a rational. -/
def ratio (p : Nat × Nat) : ℚ := p.1 / p.2

theorem shiftRatio_pos (num : Nat) (hden : 0 < den) (shift : Int) :
    0 < (shiftRatio num den shift).2 := by
  unfold shiftRatio
  split
  · exact hden
  · exact Nat.mul_pos hden (Nat.two_pow_pos _)

theorem ratio_shiftRatio (num den : Nat) (shift : Int) :
    ratio (shiftRatio num den shift) = num / den * 2 ^ shift := by
  unfold ratio shiftRatio
  split
  · next hshift =>
    lift shift to ℕ using hshift
    simp only [Int.toNat_natCast, Nat.pow_eq, Nat.cast_mul, Nat.cast_pow, Nat.cast_ofNat,
      zpow_natCast]
    ring
  · next hshift =>
    obtain ⟨s, rfl⟩ : ∃ s : Nat, shift = -s := ⟨(-shift).toNat, by omega⟩
    simp only [neg_neg, Int.toNat_natCast, Nat.pow_eq, Nat.cast_mul, Nat.cast_pow, Nat.cast_ofNat,
      zpow_neg, zpow_natCast]
    rw [div_mul_eq_div_div, div_eq_mul_inv _ ((2 : ℚ) ^ s)]

theorem ratio_decimalRatio (digits : Nat) (k : Int) :
    ratio (decimalRatio digits k) = digits * 10 ^ k := by
  unfold ratio decimalRatio
  split
  · next hk =>
    lift k to ℕ using hk
    simp
  · next hk =>
    obtain ⟨s, rfl⟩ : ∃ s : Nat, k = -s := ⟨(-k).toNat, by omega⟩
    simp [div_eq_mul_inv]

/-! ## Patterns -/

/-- A pattern below infinity is its significand in the last place of the least values, or it
has a leading bit that is not stored. -/
theorem parts_single {bits : Nat} (h : bits < Format.single.infinityBits) :
    bits < 2 ^ 23 ∧ Format.single.parts bits = (bits, -149) ∨
      2 ^ 23 ≤ bits ∧ Format.single.parts bits =
        (bits % 2 ^ 23 + 2 ^ 23, ((bits / 2 ^ 23 : Nat) : Int) - 150) := by
  have hinfinity : Format.single.infinityBits = 255 * 2 ^ 23 := by decide
  have hleast : Format.single.leastUnit = -149 := by decide
  have hfield : bits / Nat.pow 2 Format.single.fraction % Nat.pow 2 Format.single.exponent =
      bits / 2 ^ 23 := by
    show bits / 2 ^ 23 % 256 = _
    omega
  unfold Format.parts
  simp only [hfield, hleast]
  by_cases hsmall : bits < 2 ^ 23
  · refine .inl ⟨hsmall, ?_⟩
    rw [if_pos (Nat.div_eq_of_lt hsmall)]
    exact Prod.ext (Nat.mod_eq_of_lt hsmall) rfl
  · refine .inr ⟨by omega, ?_⟩
    rw [if_neg (by omega)]
    refine Prod.ext rfl ?_
    show (-149 : Int) + ((bits / 2 ^ 23 - 1 : Nat) : Int) = _
    omega

/-- The significand and the last place of a positive single. -/
theorem parts_bounds {bits : Nat} (hpos : 0 < bits) (h : bits < Format.single.infinityBits) :
    0 < (Format.single.parts bits).1 ∧ (Format.single.parts bits).1 < 2 ^ 24 ∧
      -149 ≤ (Format.single.parts bits).2 ∧ (Format.single.parts bits).2 ≤ 104 := by
  have hinfinity : Format.single.infinityBits = 255 * 2 ^ 23 := by decide
  obtain ⟨hsmall, hparts⟩ | ⟨hlarge, hparts⟩ := parts_single h <;>
    rw [hparts] <;> simp only <;> omega

/-- Half a place below a single other than the least one. -/
theorem le_half_below {bits : Nat} (h : 1 < bits) (hlt : bits < Format.single.infinityBits) :
    (3 / 2 * 2 ^ (-149 : Int) : ℚ) ≤
      ((Format.single.parts bits).1 - 1 / 2) * 2 ^ (Format.single.parts bits).2 := by
  obtain ⟨-, -, hleast, -⟩ := parts_bounds (by omega : 0 < bits) hlt
  have hm : 2 ≤ (Format.single.parts bits).1 := by
    obtain ⟨-, hparts⟩ | ⟨-, hparts⟩ := parts_single hlt <;> rw [hparts] <;> simp only <;> omega
  have hcast : (2 : ℚ) ≤ (Format.single.parts bits).1 := by exact_mod_cast hm
  have hpow : (2 : ℚ) ^ (-149 : Int) ≤ 2 ^ (Format.single.parts bits).2 :=
    zpow_le_zpow_right₀ one_le_two hleast
  exact mul_le_mul (by linarith) hpow (by positivity) (by linarith)

/-- Half a place above a single below one. -/
theorem half_above_le_of_lt_one {bits : Nat} (h : bits < 127 * 2 ^ 23) :
    (((Format.single.parts bits).1 + 1 / 2) * 2 ^ (Format.single.parts bits).2 : ℚ) ≤
      (2 ^ 24 - 1 / 2) * 2 ^ (-24 : Int) := by
  have hinfinity : Format.single.infinityBits = 255 * 2 ^ 23 := by decide
  have hbounds :
      (Format.single.parts bits).1 ≤ 2 ^ 24 - 1 ∧ (Format.single.parts bits).2 ≤ -24 := by
    obtain ⟨hsmall, hparts⟩ | ⟨hlarge, hparts⟩ :=
      parts_single (by omega : bits < Format.single.infinityBits) <;>
      rw [hparts] <;> simp only <;> omega
  have hcast : ((Format.single.parts bits).1 : ℚ) ≤ (2 ^ 24 - 1 : Nat) := by
    exact_mod_cast hbounds.1
  have hpow : (2 : ℚ) ^ (Format.single.parts bits).2 ≤ 2 ^ (-24 : Int) :=
    zpow_le_zpow_right₀ one_le_two hbounds.2
  refine mul_le_mul ?_ hpow (by positivity) (by norm_num)
  push_cast at hcast
  linarith

/-- Half a place above a single other than the greatest one. -/
theorem half_above_le_of_lt_greatest {bits : Nat} (h : bits < 255 * 2 ^ 23 - 1) :
    (((Format.single.parts bits).1 + 1 / 2) * 2 ^ (Format.single.parts bits).2 : ℚ) ≤
      (2 ^ 24 - 3 / 2) * 2 ^ (104 : Int) := by
  have hinfinity : Format.single.infinityBits = 255 * 2 ^ 23 := by decide
  have hbounds : (Format.single.parts bits).1 ≤ 2 ^ 24 - 2 ∧ (Format.single.parts bits).2 ≤ 104 ∨
      (Format.single.parts bits).1 ≤ 2 ^ 24 - 1 ∧ (Format.single.parts bits).2 ≤ 103 := by
    obtain ⟨hsmall, hparts⟩ | ⟨hlarge, hparts⟩ :=
      parts_single (by omega : bits < Format.single.infinityBits) <;>
      rw [hparts] <;> simp only <;> omega
  obtain ⟨hm, hu⟩ | ⟨hm, hu⟩ := hbounds
  · have hcast : ((Format.single.parts bits).1 : ℚ) ≤ (2 ^ 24 - 2 : Nat) := by exact_mod_cast hm
    have hpow : (2 : ℚ) ^ (Format.single.parts bits).2 ≤ 2 ^ (104 : Int) :=
      zpow_le_zpow_right₀ one_le_two hu
    refine mul_le_mul ?_ hpow (by positivity) (by norm_num)
    push_cast at hcast
    linarith
  · have hcast : ((Format.single.parts bits).1 : ℚ) ≤ (2 ^ 24 - 1 : Nat) := by exact_mod_cast hm
    have hpow : (2 : ℚ) ^ (Format.single.parts bits).2 ≤ 2 ^ (103 : Int) :=
      zpow_le_zpow_right₀ one_le_two hu
    calc (((Format.single.parts bits).1 + 1 / 2) * 2 ^ (Format.single.parts bits).2 : ℚ)
      _ ≤ ((2 ^ 24 - 1 : Nat) + 1 / 2) * 2 ^ (103 : Int) := by gcongr
      _ ≤ (2 ^ 24 - 3 / 2) * 2 ^ (104 : Int) := by norm_num

/-! ## Rounding -/

theorem roundRatio_cases (num den : Nat) :
    roundRatio .toEven num den = num / den ∧ 2 * (num % den) ≤ den ∨
      roundRatio .toEven num den = num / den + 1 ∧ den ≤ 2 * (num % den) := by
  unfold roundRatio
  cases hup : Tie.toEven.goesUp (num / den) (num % den) den with
  | false =>
    refine .inl ⟨if_neg (Bool.eq_false_iff.1 hup), ?_⟩
    unfold Tie.goesUp at hup
    split at hup
    · omega
    · exact Nat.not_lt.1 (of_decide_eq_false hup)
  | true =>
    refine .inr ⟨if_pos hup, ?_⟩
    unfold Tie.goesUp at hup
    split at hup
    · omega
    · exact Nat.le_of_lt (of_decide_eq_true hup)

/-- Rounding moves a ratio by half a unit at most. -/
theorem abs_roundRatio_sub_le (num : Nat) (hden : 0 < den) :
    |(roundRatio .toEven num den : ℚ) - num / den| ≤ 1 / 2 := by
  have hpos : (0 : ℚ) < den := by exact_mod_cast hden
  have hmod : ((num % den : Nat) : ℚ) < den := by exact_mod_cast Nat.mod_lt num hden
  have hvalue : (num : ℚ) / den = (num / den : Nat) + (num % den : Nat) / den := by
    have hdiv : (den : ℚ) * (num / den : Nat) + (num % den : Nat) = num := by
      exact_mod_cast Nat.div_add_mod num den
    field_simp
    linarith
  have hrest : (0 : ℚ) ≤ (num % den : Nat) / den := by positivity
  rw [hvalue, abs_le]
  obtain ⟨hround, hhalf⟩ | ⟨hround, hhalf⟩ := roundRatio_cases num den <;> rw [hround]
  · have hle : ((num % den : Nat) : ℚ) / den ≤ 1 / 2 := by
      rw [div_le_iff₀ hpos]
      have : (2 * (num % den : Nat) : ℚ) ≤ den := by exact_mod_cast hhalf
      linarith
    constructor <;> linarith
  · have hge : (1 : ℚ) / 2 ≤ (num % den : Nat) / den := by
      rw [le_div_iff₀ hpos]
      have : (den : ℚ) ≤ 2 * (num % den : Nat) := by exact_mod_cast hhalf
      linarith
    have hlt : ((num % den : Nat) : ℚ) / den < 1 := (div_lt_one hpos).2 hmod
    push_cast
    constructor <;> linarith

theorem log2_bounds (hn : 0 < n) :
    (2 : ℚ) ^ (n.log2 : Int) ≤ n ∧ (n : ℚ) < 2 ^ ((n.log2 : Int) + 1) := by
  have hle : 2 ^ n.log2 ≤ n := Nat.log2_self_le (Nat.ne_of_gt hn)
  have hlt : n < 2 ^ (n.log2 + 1) := Nat.lt_log2_self
  constructor
  · rw [zpow_natCast]
    exact_mod_cast hle
  · have hcast : (n : ℚ) < 2 ^ (n.log2 + 1) := by exact_mod_cast hlt
    exact_mod_cast hcast

/-- The exponent of the leading bit of a ratio. -/
theorem ratioLog2_spec (hnum : 0 < num) (hden : 0 < den) :
    (2 : ℚ) ^ ratioLog2 num den ≤ num / den ∧ (num / den : ℚ) < 2 ^ (ratioLog2 num den + 1) := by
  obtain ⟨hnumLow, hnumHigh⟩ := log2_bounds hnum
  obtain ⟨hdenLow, hdenHigh⟩ := log2_bounds hden
  have hdenPos : (0 : ℚ) < den := by exact_mod_cast hden
  -- the difference of the lengths is right, or one too great
  have hlow : (2 : ℚ) ^ ((num.log2 : Int) - den.log2 - 1) ≤ num / den := by
    rw [le_div_iff₀ hdenPos]
    calc (2 : ℚ) ^ ((num.log2 : Int) - den.log2 - 1) * den
      _ ≤ 2 ^ ((num.log2 : Int) - den.log2 - 1) * 2 ^ ((den.log2 : Int) + 1) := by gcongr
      _ = 2 ^ (num.log2 : Int) := by
        rw [← zpow_add₀ two_ne_zero]
        congr 1
        omega
      _ ≤ num := hnumLow
  have hhigh : (num / den : ℚ) < 2 ^ ((num.log2 : Int) - den.log2 + 1) := by
    rw [div_lt_iff₀ hdenPos]
    calc (num : ℚ)
      _ < 2 ^ ((num.log2 : Int) + 1) := hnumHigh
      _ = 2 ^ ((num.log2 : Int) - den.log2 + 1) * 2 ^ (den.log2 : Int) := by
        rw [← zpow_add₀ two_ne_zero]
        congr 1
        omega
      _ ≤ 2 ^ ((num.log2 : Int) - den.log2 + 1) * den := by gcongr
  generalize hguess : (num.log2 : Int) - den.log2 = guess at hlow hhigh
  have hshift : ratio (shiftRatio num den (-guess)) = num / den * 2 ^ (-guess) :=
    ratio_shiftRatio num den (-guess)
  have hshiftPos : (0 : ℚ) < (shiftRatio num den (-guess)).2 := by
    exact_mod_cast shiftRatio_pos num hden (-guess)
  have hpow : (0 : ℚ) < 2 ^ guess := by positivity
  have htest : (shiftRatio num den (-guess)).2 ≤ (shiftRatio num den (-guess)).1 ↔
      (2 : ℚ) ^ guess ≤ num / den := by
    rw [zpow_neg, ← div_eq_mul_inv, ratio] at hshift
    rw [← one_le_div hpow, ← hshift, one_le_div hshiftPos, Nat.cast_le]
  have hlog : ratioLog2 num den = if (2 : ℚ) ^ guess ≤ num / den then guess else guess - 1 := by
    unfold ratioLog2
    simp only [hguess, htest]
  rw [hlog]
  split
  · next hle => exact ⟨hle, hhigh⟩
  · next hgt =>
    rw [sub_add_cancel]
    exact ⟨hlow, not_le.1 hgt⟩

/-! ## The pattern nearest to a ratio -/

/-- **The single nearest to a ratio**: a last place, and the ratio rounded to a multiple of it. -/
theorem nearestBits_single (hnum : 0 < num) (hden : 0 < den) :
    ∃ (unit : Int) (n : Nat), -149 ≤ unit ∧ (unit = -149 ∨ (2 : ℚ) ^ (unit + 23) ≤ num / den) ∧
      (num / den * 2 ^ (-unit) : ℚ) < 2 ^ 24 ∧ |(n : ℚ) - num / den * 2 ^ (-unit)| ≤ 1 / 2 ∧
      Format.single.nearestBits num den =
        min ((unit + 149).toNat * 2 ^ 23 + n) Format.single.infinityBits := by
  obtain ⟨hlow, hhigh⟩ := ratioLog2_spec hnum hden
  generalize hlog : ratioLog2 num den = l at hlow hhigh
  let unit : Int := max (l - 23) (-149)
  let p := shiftRatio num den (-unit)
  have hround := abs_roundRatio_sub_le p.1 (shiftRatio_pos num hden (-unit))
  have hp : (p.1 : ℚ) / p.2 = num / den * 2 ^ (-unit) := ratio_shiftRatio num den (-unit)
  rw [hp] at hround
  refine ⟨unit, roundRatio .toEven p.1 p.2, Int.le_max_right _ _, ?_, ?_, hround, ?_⟩
  · by_cases hleast : l - 23 ≤ -149
    · exact .inl (Int.max_eq_right hleast)
    · have hunit : unit = l - 23 := Int.max_eq_left (by omega)
      rw [hunit, sub_add_cancel]
      exact .inr hlow
  · have hunit : l + 1 + -unit ≤ (24 : Nat) := by omega
    calc (num / den * 2 ^ (-unit) : ℚ)
      _ < 2 ^ (l + 1) * 2 ^ (-unit) := by gcongr
      _ = 2 ^ (l + 1 + -unit) := (zpow_add₀ two_ne_zero _ _).symm
      _ ≤ 2 ^ ((24 : Nat) : Int) := zpow_le_zpow_right₀ one_le_two hunit
      _ = 2 ^ 24 := zpow_natCast 2 24
  · have hleastUnit : Format.single.leastUnit = -149 := by decide
    unfold Format.nearestBits
    rw [if_neg (Nat.ne_of_gt hnum)]
    simp only [hlog, hleastUnit]
    have hunit : unit - -149 = unit + 149 := by omega
    have hfraction : ((Format.single.fraction : Nat) : Int) = 23 := rfl
    simp only [hfraction]
    show min ((unit - -149).toNat * _ + _) _ = _
    rw [hunit]
    rfl

/-- More than half the least single is not rounded to zero. -/
theorem nearestBits_pos (hnum : 0 < num) (hden : 0 < den) (h : (2 : ℚ) ^ (-150 : Int) < num / den) :
    0 < Format.single.nearestBits num den := by
  obtain ⟨unit, n, hleast, -, -, hround, hbits⟩ := nearestBits_single hnum hden
  have hinfinity : 0 < Format.single.infinityBits := by decide
  rw [hbits]
  refine Nat.lt_min.2 ⟨?_, hinfinity⟩
  by_cases hunit : unit = -149
  · subst hunit
    have hn : (0 : ℚ) < n := by
      have hhalf : (1 : ℚ) / 2 < num / den * 2 ^ (149 : Int) := by
        calc (1 : ℚ) / 2 = 2 ^ (-150 : Int) * 2 ^ (149 : Int) := by norm_num
          _ < num / den * 2 ^ (149 : Int) := by gcongr
      have habs := (abs_le.1 hround).1
      rw [neg_neg] at habs
      linarith
    have hpos : 0 < n := by exact_mod_cast hn
    omega
  · have hplaces : 0 < (unit + 149).toNat := by omega
    positivity

/-- What is less than half above a natural number is rounded to that one at most. -/
theorem le_of_abs_sub_le {x : ℚ} {c : Nat} (h : |(n : ℚ) - x| ≤ 1 / 2) (hx : x < c + 1 / 2) :
    n ≤ c := by
  have hlt : (n : ℚ) < (c + 1 : Nat) := by
    push_cast
    linarith [(abs_le.1 h).2]
  exact Nat.le_of_lt_succ (by exact_mod_cast hlt)

/-- The last place of what is below a power of two. -/
theorem unit_lt {x : ℚ} {c : Int} (hfull : unit = -149 ∨ (2 : ℚ) ^ (unit + 23) ≤ x) (hx : x < 2 ^ c)
    (hc : -126 < c) : unit + 23 < c := by
  obtain rfl | hlow := hfull
  · omega
  · exact (zpow_lt_zpow_iff_right₀ one_lt_two).1 (lt_of_le_of_lt hlow hx)

/-- What is at most one is rounded to one at most. -/
theorem nearestBits_le_one (hnum : 0 < num) (hden : 0 < den) (h : (num / den : ℚ) ≤ 1) :
    Format.single.nearestBits num den ≤ 127 * 2 ^ 23 := by
  obtain ⟨unit, n, hleast, hfull, hlt, hround, hbits⟩ := nearestBits_single hnum hden
  have hunit : unit + 23 < 1 := unit_lt hfull (by linarith [zpow_one (2 : ℚ)]) (by omega)
  rw [hbits]
  refine Nat.le_trans (Nat.min_le_left _ _) ?_
  by_cases hlast : unit = -23
  · subst hlast
    have hn : n ≤ 2 ^ 23 := by
      refine le_of_abs_sub_le hround ?_
      calc (num / den * 2 ^ (- -23 : Int) : ℚ)
        _ ≤ 1 * 2 ^ (- -23 : Int) := by gcongr
        _ < (2 ^ 23 : Nat) + 1 / 2 := by norm_num
    omega
  · have hn : n ≤ 2 ^ 24 := by
      refine le_of_abs_sub_le hround (hlt.trans ?_)
      norm_num
    omega

/-- What is less than half a unit above the greatest single is rounded to a single. -/
theorem nearestBits_lt_infinity (hnum : 0 < num) (hden : 0 < den)
    (h : (num / den : ℚ) < (2 ^ 24 - 1 / 2) * 2 ^ (104 : Int)) :
    Format.single.nearestBits num den < Format.single.infinityBits := by
  obtain ⟨unit, n, hleast, hfull, hlt, hround, hbits⟩ := nearestBits_single hnum hden
  have hunit : unit + 23 < 128 := by
    refine unit_lt hfull (h.trans ?_) (by omega)
    norm_num
  have hinfinity : Format.single.infinityBits = 255 * 2 ^ 23 := by decide
  rw [hbits, hinfinity]
  refine Nat.lt_of_le_of_lt (Nat.min_le_left _ _) ?_
  by_cases hlast : unit = 104
  · have hplaces : (unit + 149).toNat = 253 := by omega
    rw [hplaces]
    subst hlast
    have hn : n ≤ 16777215 := by
      refine le_of_abs_sub_le hround ?_
      calc (num / den * 2 ^ (-104 : Int) : ℚ)
        _ < (2 ^ 24 - 1 / 2) * 2 ^ (104 : Int) * 2 ^ (-104 : Int) := by gcongr
        _ = (16777215 : Nat) + 1 / 2 := by norm_num
    omega
  · have hn : n ≤ 2 ^ 24 := by
      refine le_of_abs_sub_le hround (hlt.trans ?_)
      norm_num
    omega

end LaneChart.Decimal
