/-!
# Numbers on the command line

How a whole number is read from an argument or a variable: digits, with a plus sign in front if
one likes. Where a signed reader is used a minus sign is allowed too, but only zero can have it
and still be in range.
-/

namespace LaneChart.Cli

/-- The value of a text of digits, at least one. -/
def digits? (cs : List Char) : Option Nat :=
  if !cs.isEmpty && cs.all (fun c => decide ('0' ≤ c ∧ c ≤ '9')) then
    some (Nat.ofDigitChars 10 cs 0)
  else none

/-- A natural number below a bound. -/
def natural? (bound : Nat) (cs : List Char) : Option Nat :=
  match digits? (match cs with
    | '+' :: rest => rest
    | cs => cs) with
  | some n => if n < bound then some n else none
  | none => none

/-- A natural number below a bound, zero also with a minus sign. -/
def signedNatural? (bound : Nat) (cs : List Char) : Option Nat :=
  match cs with
  | '-' :: rest => if digits? rest = some 0 then some 0 else none
  | cs => natural? bound cs

end LaneChart.Cli
