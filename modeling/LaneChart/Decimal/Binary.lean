/-!
# Binary formats in exact arithmetic

A finite value of a binary interchange format is `± m · 2^u` for a natural `m` and the exponent
`u` of its last place. This file goes both ways in natural numbers only:

* `Format.parts` takes a bit pattern apart into `m` and `u`;
* `Format.nearestBits` finds the pattern nearest to a ratio of naturals, ties to the even one.

Patterns of the same sign are ordered like the values they stand for, one apart from one value
to the next, so rounding up to a power of two and rounding up to infinity need no case of their
own: the carry runs into the exponent field.
-/

namespace LaneChart.Decimal

/-- A binary interchange format: how many bits of significand it stores, and how many bits of
exponent. -/
structure Format where
  fraction : Nat
  exponent : Nat

namespace Format

/-- Single precision. -/
def single : Format := ⟨23, 8⟩

/-- Double precision. -/
def double : Format := ⟨52, 11⟩

/-- The exponent of the last place of the smallest values: `2^leastUnit` is the least positive
value of the format. -/
def leastUnit (f : Format) : Int := 2 - Nat.pow 2 (f.exponent - 1) - f.fraction

/-- The pattern of positive infinity. -/
def infinityBits (f : Format) : Nat := (Nat.pow 2 f.exponent - 1) * Nat.pow 2 f.fraction

/-- The significand `m` and last place `u` of a finite pattern, whose magnitude is `m · 2^u`. -/
def parts (f : Format) (bits : Nat) : Nat × Int :=
  let field := bits / Nat.pow 2 f.fraction % Nat.pow 2 f.exponent
  let stored := bits % Nat.pow 2 f.fraction
  if field = 0 then (stored, f.leastUnit)
  else (stored + Nat.pow 2 f.fraction, f.leastUnit + (field - 1 : Nat))

end Format

/-- Where a number goes that lies halfway between two neighbours. -/
inductive Tie where
  /-- To the upper neighbour. -/
  | up
  /-- To the even neighbour. -/
  | toEven
deriving DecidableEq

/-- Whether a number `rest / step` of the way from `below` to `below + 1` goes up when it is
rounded to the nearer of them. -/
def Tie.goesUp (t : Tie) (below rest step : Nat) : Bool :=
  if 2 * rest = step then t = .up || below % 2 == 1 else decide (step < 2 * rest)

/-- The natural number nearest to `num / den`. -/
def roundRatio (t : Tie) (num den : Nat) : Nat :=
  let below := num / den
  if t.goesUp below (num % den) den then below + 1 else below

/-- `num / den · 2^shift` as a ratio of naturals. -/
def shiftRatio (num den : Nat) (shift : Int) : Nat × Nat :=
  if 0 ≤ shift then (num * Nat.pow 2 shift.toNat, den)
  else (num, den * Nat.pow 2 (-shift).toNat)

/-- `digits · 10^exponent` as a ratio of naturals. -/
def decimalRatio (digits : Nat) (exponent : Int) : Nat × Nat :=
  if 0 ≤ exponent then (digits * Nat.pow 10 exponent.toNat, 1)
  else (digits, Nat.pow 10 (-exponent).toNat)

/-- The exponent of the greatest power of two that is at most `num / den`, both positive. -/
def ratioLog2 (num den : Nat) : Int :=
  let guess : Int := (num.log2 : Int) - den.log2
  let (n, d) := shiftRatio num den (-guess)
  if d ≤ n then guess else guess - 1

/-- The pattern of the value nearest to `num / den`, the even pattern of two equally near;
infinity when the ratio is past the last finite value by half a place. -/
def Format.nearestBits (f : Format) (num den : Nat) : Nat :=
  if num = 0 then 0
  else
    let unit := max (ratioLog2 num den - f.fraction) f.leastUnit
    let (n, d) := shiftRatio num den (-unit)
    min ((unit - f.leastUnit).toNat * Nat.pow 2 f.fraction + roundRatio .toEven n d) f.infinityBits

/-- The pattern of the value nearest to `digits · 10^exponent`. Exponents that leave the format
on either side are answered without forming the power. -/
def Format.nearestDecimal (f : Format) (digits : Nat) (exponent : Int) : Nat :=
  let length : Int := (Nat.toDigits 10 digits).length
  if digits = 0 then 0
  else if 400 < length + exponent then f.infinityBits
  else if length + exponent < -400 then 0
  else
    let (n, d) := decimalRatio digits exponent
    f.nearestBits n d

/-- The single with a given sign and magnitude pattern. -/
def singleOfBits (negative : Bool) (bits : Nat) : Float32 :=
  Float32.ofBits (UInt32.ofNat (if negative then bits + Nat.pow 2 31 else bits))

/-- The double with a given sign and magnitude pattern. -/
def doubleOfBits (negative : Bool) (bits : Nat) : Float :=
  Float.ofBits (UInt64.ofNat (if negative then bits + Nat.pow 2 63 else bits))

/-- The single nearest to a natural number. -/
def singleOfNat (negative : Bool) (n : Nat) : Float32 :=
  singleOfBits negative (Format.single.nearestBits n 1)

/-- The single nearest to a double. -/
def narrow (x : Float) : Float32 :=
  let bits := x.toBits.toNat
  let negative := decide (Nat.pow 2 63 ≤ bits)
  let magnitude := bits % Nat.pow 2 63
  if x.isNaN then Float32.ofBits 0x7fc00000
  else if magnitude = Format.double.infinityBits then
    singleOfBits negative Format.single.infinityBits
  else
    let (m, u) := Format.double.parts magnitude
    let (n, d) := shiftRatio m 1 u
    singleOfBits negative (Format.single.nearestBits n d)

/-- The single that a decimal stands for when it is first rounded to a double. -/
def singleByWayOfDouble (negative : Bool) (digits : Nat) (exponent : Int) : Float32 :=
  narrow (doubleOfBits negative (Format.double.nearestDecimal digits exponent))

example : (Format.single.nearestDecimal 1 (-1)) = 0x3dcccccd := by decide +kernel
example : (Format.double.nearestDecimal 3 (-1)) = 0x3fd3333333333333 := by decide +kernel
example : (Format.single.nearestDecimal 16777217 0) = 0x4b800000 := by decide +kernel
example : (Format.single.nearestDecimal 1 (-45)) = 1 := by decide +kernel
example : (Format.single.nearestDecimal 1 39) = 0x7f800000 := by decide +kernel

end LaneChart.Decimal
