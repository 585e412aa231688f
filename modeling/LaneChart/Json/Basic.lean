/-!
# JSON documents as written

A document is kept the way its text spells it: a string holds the characters between its quotes,
escapes and all, and a number holds its sign, digits and exponent. Nothing is judged while the
text is read. What a string or a number *means* is asked only of the parts a reader of some type
looks at, so a part that is skipped may hold a number past every range or an escape that stands
for no character, and a sector id used as a key can be held to its one canonical spelling.
-/

namespace LaneChart

/-- A number as written: sign, the whole part, the digits after the point (none if there is no
point), and the exponent if there is one. -/
structure Json.Number where
  negative : Bool
  whole : Nat
  places : List Char
  exponent : Option Int
deriving DecidableEq

/-- A JSON document. Strings and member names hold the characters between their quotes. -/
inductive Json where
  | null
  | bool (b : Bool)
  | number (n : Json.Number)
  | string (raw : List Char)
  | array (items : List Json)
  | object (members : List (List Char × Json))

instance : Inhabited Json := ⟨.null⟩

end LaneChart
