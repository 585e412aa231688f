import LaneChart.Json.Basic
import LaneChart.Decimal.Text

/-!
# What a number means

A number is an integer when it is written without a point and without an exponent, and only such
a number can be an id, a count or a bound. Any number can be a coordinate or a constant:

* an integer that fits its sixty-four bits is rounded to a single at once;
* anything else is formed in double precision first, as a significand of at most sixty-four bits
  times or divided by a power of ten, and the double is then rounded to a single.

The second way refuses a value past the doubles, and lets one past the singles become infinite.
-/

namespace LaneChart.Json.Number

open LaneChart.Decimal

/-- Whether the number is written without a point and without an exponent. -/
def isInteger (n : Number) : Bool := n.places.isEmpty && n.exponent.isNone

/-- The number as a natural number below a bound; only digits qualify, not even `-0`. -/
def natBelow? (bound : Nat) (n : Number) : Option Nat :=
  if n.isInteger && !n.negative && decide (n.whole < bound) then some n.whole else none

/-- A significand that has stopped growing, with what is left of the digits. -/
structure Significand where
  value : Nat
  rest : List Char

/-- Append digits to a significand as long as it stays below `2^64`. -/
def Significand.extend (value : Nat) : List Char → Significand
  | [] => ⟨value, []⟩
  | d :: ds =>
    let next := value * 10 + (d.toNat - '0'.toNat)
    if next < UInt64.size then Significand.extend next ds else ⟨value, d :: ds⟩

/-- `10^k` rounded to a double. -/
def powerOfTen (k : Nat) : Float := Float.ofScientific 1 false k

/-- The greatest magnitude that an exponent is followed to. -/
def exponentLimit : Int := 2147483647

/-- `value · 10^exponent` in double precision, if it is finite. Below the powers of ten that a
double can hold the division is made in two steps, and further below everything is zero. -/
def scaled? (value : Nat) (exponent : Int) : Option Float :=
  let f := Float.ofNat value
  if 0 ≤ exponent then
    if exponent ≤ 308 then
      let p := f * powerOfTen exponent.toNat
      if p.isInf then none else some p
    else if value = 0 then some 0 else none
  else if -308 ≤ exponent then some (f / powerOfTen (-exponent).toNat)
  else if -616 ≤ exponent then some (f / powerOfTen 308 / powerOfTen (-exponent - 308).toNat)
  else some 0

/-- The number as a double, refused when it is past the greatest. The whole part feeds the
significand until it is full and then raises the exponent; digits after the point feed it as long
as they fit and are dropped after that. -/
def double? (n : Number) : Option Float := do
  let whole := Significand.extend 0 (naturalText n.whole)
  let full := Significand.extend whole.value n.places
  let shift : Int := whole.rest.length - ((n.places.length - full.rest.length : Nat) : Int)
  let magnitude ←
    match n.exponent with
    | none => scaled? full.value shift
    | some e =>
      if exponentLimit < e then (if full.value = 0 then some 0 else none)
      else if e < -exponentLimit then some 0
      else scaled? full.value (max (-exponentLimit - 1) (min exponentLimit (shift + e)))
  return if n.negative then -magnitude else magnitude

/-- The number as a single. -/
def single? (n : Number) : Option Float32 :=
  if n.isInteger && !n.negative && decide (n.whole < UInt64.size) then
    some (singleOfNat false n.whole)
  else if n.isInteger && n.negative && decide (n.whole ≠ 0 ∧ n.whole ≤ Nat.pow 2 63) then
    some (singleOfNat true n.whole)
  else n.double?.map narrow

/-- Whether the number has a value at all: every integer of sixty-four bits has, and every other
number that a double can hold. -/
def hasValue (n : Number) : Bool :=
  (n.isInteger && !n.negative && decide (n.whole < UInt64.size)) || n.double?.isSome

/-- The single nearest to the double nearest to the number. -/
def nearestSingle (n : Number) : Float32 :=
  let digits := (naturalText n.whole ++ n.places).foldl
    (fun acc c => acc * 10 + (c.toNat - '0'.toNat)) 0
  singleByWayOfDouble n.negative digits (n.exponent.getD 0 - (n.places.length : Int))

/-- A natural number. -/
def ofNat (n : Nat) : Number := ⟨false, n, [], none⟩

/-- Digits and an exponent as a number, in the notation that the writer of documents uses: without
an exponent while the point stays within thirteen places to the right of the first digit or five
zeros to its left, always with at least one place there, and with one digit before the point
otherwise. -/
def ofScientific (negative : Bool) (s : Scientific) : Number :=
  let ds := naturalText s.digits
  let point : Int := ds.length + s.exponent
  let value (cs : List Char) : Nat := Nat.ofDigitChars 10 cs 0
  if 0 ≤ s.exponent ∧ point ≤ 13 then
    ⟨negative, s.digits * Nat.pow 10 s.exponent.toNat, ['0'], none⟩
  else if 0 < point ∧ point ≤ 13 then
    ⟨negative, value (ds.take point.toNat), ds.drop point.toNat, none⟩
  else if -6 < point ∧ point ≤ 0 then
    ⟨negative, 0, List.replicate (-point).toNat '0' ++ ds, none⟩
  else ⟨negative, value (ds.take 1), ds.drop 1, some (point - 1)⟩

/-- A finite single with the fewest digits that read back, the even ones of two equally near. -/
def ofSingle? (x : Float32) : Option Number :=
  match kind x with
  | .nan => none
  | .infinite => none
  | .finite bits =>
    if bits = 0 then some ⟨isNegative x, 0, ['0'], none⟩
    else some (ofScientific (isNegative x) (shortest .toEven bits))

/-- The number as text. -/
def text (n : Number) : List Char :=
  (if n.negative then ['-'] else []) ++ naturalText n.whole
    ++ (if n.places.isEmpty then [] else '.' :: n.places)
    ++ (match n.exponent with
        | none => []
        | some e => 'e' :: ((if e < 0 then ['-'] else []) ++ naturalText e.natAbs))

end LaneChart.Json.Number
