import LaneChart.Json.Text
import LaneChart.Json.Number

/-!
# Reading documents

Strict JSON: one value, blanks around it, nothing else. Blanks are the space, the tab and the two
line ends; numbers have no leading zeros and digits on both sides of a point; strings hold no bare
control character and only the escapes of the format; lists and objects end without a comma.

The reader of values works on fuel, one unit for each bracket it enters and each item it
finishes. Every item and every bracket takes at least one character, so twice the length of the
text is always enough, and `read?` shows no fuel.
-/

namespace LaneChart.Json

/-- Whether a character may stand between the tokens of a document. -/
def isBlank (c : Char) : Bool := c = ' ' || c = '\n' || c = '\t' || c = '\r'

/-- The text from the first character that is not blank. -/
def skipBlanks (cs : List Char) : List Char := cs.dropWhile isBlank

/-- Whether a character is a decimal digit. -/
def isDigit (c : Char) : Bool := decide ('0' ≤ c ∧ c ≤ '9')

/-! ## Strings -/

/-- The characters up to the closing quote, collected in reverse, and the text behind it. An
escape has to be one of the format's, but what it stands for is not asked. -/
def scanString (acc : List Char) : List Char → Option (List Char × List Char)
  | '"' :: rest => some (acc.reverse, rest)
  | '\\' :: 'u' :: a :: b :: c :: d :: rest =>
    if (hex4? a b c d).isSome then scanString (d :: c :: b :: a :: 'u' :: '\\' :: acc) rest
    else none
  | '\\' :: e :: rest =>
    if (simpleEscape? e).isSome then scanString (e :: '\\' :: acc) rest else none
  | c :: rest => if c.toNat < 0x20 || c = '\\' then none else scanString (c :: acc) rest
  | [] => none

/-! ## Numbers -/

/-- At least one digit, and the text behind the digits. -/
def scanDigits (cs : List Char) : Option (List Char × List Char) :=
  match cs.takeWhile isDigit with
  | [] => none
  | ds => some (ds, cs.dropWhile isDigit)

/-- The digits before the point: a lone zero, or digits that do not start with one. -/
def scanWhole : List Char → Option (Nat × List Char)
  | '0' :: rest =>
    match rest with
    | [] => some (0, [])
    | c :: _ => if isDigit c then none else some (0, rest)
  | cs => (scanDigits cs).map fun (ds, rest) => (Nat.ofDigitChars 10 ds 0, rest)

/-- The point and the digits behind it, if the text goes on with a point. -/
def scanPlaces : List Char → Option (List Char × List Char)
  | '.' :: rest => scanDigits rest
  | cs => some ([], cs)

/-- The exponent, if the text goes on with its letter. -/
def scanExponent : List Char → Option (Option Int × List Char)
  | [] => some (none, [])
  | e :: rest =>
    if e = 'e' || e = 'E' then
      match rest with
      | '+' :: rest => (scanDigits rest).map fun (ds, r) => (some (Nat.ofDigitChars 10 ds 0), r)
      | '-' :: rest =>
        (scanDigits rest).map fun (ds, r) => (some (-(Nat.ofDigitChars 10 ds 0 : Int)), r)
      | rest => (scanDigits rest).map fun (ds, r) => (some (Nat.ofDigitChars 10 ds 0), r)
    else some (none, e :: rest)

/-- A number and the text behind it. -/
def scanNumber (cs : List Char) : Option (Number × List Char) := do
  let (negative, cs) := match cs with
    | '-' :: rest => (true, rest)
    | cs => (false, cs)
  let (whole, cs) ← scanWhole cs
  let (places, cs) ← scanPlaces cs
  let (exponent, cs) ← scanExponent cs
  return (⟨negative, whole, places, exponent⟩, cs)

/-! ## Values -/

mutual

/-- One value and the text behind it. -/
def scanValue : Nat → List Char → Option (Json × List Char)
  | 0, _ => none
  | fuel + 1, cs =>
    match skipBlanks cs with
    | [] => none
    | '"' :: rest => (scanString [] rest).map fun (s, r) => (.string s, r)
    | '[' :: rest =>
      match skipBlanks rest with
      | ']' :: rest => some (.array [], rest)
      | _ => scanItems fuel [] rest
    | '\x7b' :: rest =>
      match skipBlanks rest with
      | '\x7d' :: rest => some (.object [], rest)
      | _ => scanMembers fuel [] rest
    | 'n' :: 'u' :: 'l' :: 'l' :: rest => some (.null, rest)
    | 't' :: 'r' :: 'u' :: 'e' :: rest => some (.bool true, rest)
    | 'f' :: 'a' :: 'l' :: 's' :: 'e' :: rest => some (.bool false, rest)
    | cs => (scanNumber cs).map fun (n, r) => (.number n, r)

/-- The rest of a list that has at least one more item; the items so far are in reverse. -/
def scanItems : Nat → List Json → List Char → Option (Json × List Char)
  | 0, _, _ => none
  | fuel + 1, acc, cs =>
    match scanValue fuel cs with
    | none => none
    | some (v, rest) =>
      match skipBlanks rest with
      | ',' :: rest => scanItems fuel (v :: acc) rest
      | ']' :: rest => some (.array (v :: acc).reverse, rest)
      | _ => none

/-- The rest of an object that has at least one more member; the members so far are in reverse. -/
def scanMembers : Nat → List (List Char × Json) → List Char → Option (Json × List Char)
  | 0, _, _ => none
  | fuel + 1, acc, cs =>
    match skipBlanks cs with
    | '"' :: rest =>
      match scanString [] rest with
      | none => none
      | some (name, rest) =>
        match skipBlanks rest with
        | ':' :: rest =>
          match scanValue fuel rest with
          | none => none
          | some (v, rest) =>
            match skipBlanks rest with
            | ',' :: rest => scanMembers fuel ((name, v) :: acc) rest
            | '\x7d' :: rest => some (.object ((name, v) :: acc).reverse, rest)
            | _ => none
        | _ => none
    | _ => none

end

/-- The document that a text spells, if it spells one. -/
def read? (text : String) : Option Json :=
  let cs := text.toList
  match scanValue (2 * cs.length + 2) cs with
  | some (v, rest) => if (skipBlanks rest).isEmpty then some v else none
  | none => none

end LaneChart.Json
