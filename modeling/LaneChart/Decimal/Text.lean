import LaneChart.Decimal.Shortest

/-!
# Decimal text

Three ways to write a single: in full with the fewest digits that read back (`plain`), with a
fixed number of places (`fixed`), and, for the JSON writer, the digits alone (`shortest`).
None of them uses an exponent except where a writer asks for the digits.
-/

namespace LaneChart.Decimal

/-- The decimal digits of a natural number. -/
def naturalText (n : Nat) : List Char := Nat.toDigits 10 n

/-- `digits · 10^exponent` written without an exponent, a zero before a leading point, and no
point when there are no places. -/
def positional (digits : Nat) (exponent : Int) : List Char :=
  let ds := naturalText digits
  if 0 ≤ exponent then ds ++ List.replicate exponent.toNat '0'
  else
    let places := (-exponent).toNat
    if places < ds.length then ds.take (ds.length - places) ++ '.' :: ds.drop (ds.length - places)
    else '0' :: '.' :: (List.replicate (places - ds.length) '0' ++ ds)

/-- What kind of value a single is, with the pattern of its magnitude if it is finite. -/
inductive Kind where
  | nan
  | infinite
  | finite (magnitude : Nat)

/-- Whether the sign bit of a single is set. -/
def isNegative (x : Float32) : Bool := decide (Nat.pow 2 31 ≤ x.toBits.toNat)

/-- The kind of a single. -/
def kind (x : Float32) : Kind :=
  let magnitude := x.toBits.toNat % Nat.pow 2 31
  if Format.single.infinityBits < magnitude then .nan
  else if magnitude = Format.single.infinityBits then .infinite
  else .finite magnitude

/-- A single as text, its finite magnitude written by a given function. Zero keeps its sign. -/
def signed (magnitudeText : Nat → List Char) (x : Float32) : String :=
  let sign := if isNegative x then ['-'] else []
  match kind x with
  | .nan => "NaN"
  | .infinite => String.ofList (sign ++ "inf".toList)
  | .finite bits => String.ofList (sign ++ magnitudeText bits)

/-- The fewest digits that read back, never with an exponent, and no point when the value is a
whole number. Of two decimals equally near, the one of the greater magnitude is written. -/
def plain (x : Float32) : String :=
  signed (fun bits =>
    if bits = 0 then ['0']
    else
      let s := shortest .up bits
      positional s.digits s.exponent) x

/-- The exact value rounded to a number of places, a half going to the even neighbour. -/
def fixed (places : Nat) (x : Float32) : String :=
  signed (fun bits =>
    let (m, u) := Format.single.parts bits
    let (n, d) := shiftRatio (m * Nat.pow 10 places) 1 u
    positional (roundRatio .toEven n d) (-(places : Int))) x

/-- Text moved to the right end of a field of at least the given width. -/
def alignRight (width : Nat) (s : String) : String :=
  String.ofList (List.replicate (width - s.length) ' ') ++ s

/-- Text moved to the left end of a field of at least the given width. -/
def alignLeft (width : Nat) (s : String) : String :=
  s ++ String.ofList (List.replicate (width - s.length) ' ')

example : positional 12345 (-2) = "123.45".toList := by decide
example : positional 5 (-3) = "0.005".toList := by decide
example : positional 5 2 = "500".toList := by decide

end LaneChart.Decimal
