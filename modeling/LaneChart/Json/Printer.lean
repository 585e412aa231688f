import LaneChart.Json.Text
import LaneChart.Json.Number

/-!
# Writing documents

The compact form has no blanks; the indented form puts every item and member on a line of its own,
two spaces deeper than what holds it, and keeps empty lists and objects on one line.

Values are made by `ofText`, `ofNat`, `ofSingle` and friends. A single that is not finite has no
JSON number and is written as null.
-/

namespace LaneChart.Json

/-- A string. -/
def ofText (s : String) : Json := .string (escape s.toList)

/-- A natural number. -/
def ofNat (n : Nat) : Json := .number (.ofNat n)

/-- A single, with the fewest digits that read back; null when it is not finite. -/
def ofSingle (x : Float32) : Json :=
  match Number.ofSingle? x with
  | some n => .number n
  | none => .null

/-- A list. -/
def ofList {α : Type} (f : α → Json) (l : List α) : Json := .array (l.map f)

/-- A member of an object. -/
def member (name : String) (value : Json) : List Char × Json := (escape name.toList, value)

/-- An object with the given members in order. -/
def ofMembers (l : List (String × Json)) : Json := .object (l.map fun m => member m.1 m.2)

/-- A member that is left out when there is no value. -/
def optionalMember {α : Type} (name : String) (f : α → Json) : Option α → List (String × Json)
  | none => []
  | some a => [(name, f a)]

/-- A quoted string. -/
def quoted (raw : List Char) : List Char := '"' :: (raw ++ ['"'])

mutual

/-- A document without blanks. -/
def compact : Json → List Char
  | .null => "null".toList
  | .bool true => "true".toList
  | .bool false => "false".toList
  | .number n => n.text
  | .string raw => quoted raw
  | .array items => '[' :: (compactItems items ++ [']'])
  | .object members => '\x7b' :: (compactMembers members ++ ['\x7d'])

/-- Items with commas between them. -/
def compactItems : List Json → List Char
  | [] => []
  | [v] => compact v
  | v :: rest => compact v ++ ',' :: compactItems rest

/-- Members with commas between them. -/
def compactMembers : List (List Char × Json) → List Char
  | [] => []
  | [(k, v)] => quoted k ++ ':' :: compact v
  | (k, v) :: rest => quoted k ++ ':' :: (compact v ++ ',' :: compactMembers rest)

end

/-- A line end and the blanks at the start of the next line. -/
def newline (depth : Nat) : List Char := '\n' :: List.replicate (2 * depth) ' '

mutual

/-- A document with one line for each item and member, at a given depth. -/
def indented (depth : Nat) : Json → List Char
  | .array [] => "[]".toList
  | .array (v :: rest) =>
    '[' :: (newline (depth + 1) ++ indented (depth + 1) v
      ++ indentedItems (depth + 1) rest ++ newline depth ++ [']'])
  | .object [] => ['\x7b', '\x7d']
  | .object ((k, v) :: rest) =>
    '\x7b' :: (newline (depth + 1) ++ quoted k ++ [':', ' '] ++ indented (depth + 1) v
      ++ indentedMembers (depth + 1) rest ++ newline depth ++ ['\x7d'])
  | .null => "null".toList
  | .bool true => "true".toList
  | .bool false => "false".toList
  | .number n => n.text
  | .string raw => quoted raw

/-- Further items, each behind a comma and on a line of its own. -/
def indentedItems (depth : Nat) : List Json → List Char
  | [] => []
  | v :: rest => ',' :: (newline depth ++ indented depth v ++ indentedItems depth rest)

/-- Further members, each behind a comma and on a line of its own. -/
def indentedMembers (depth : Nat) : List (List Char × Json) → List Char
  | [] => []
  | (k, v) :: rest =>
    ',' :: (newline depth ++ quoted k ++ [':', ' '] ++ indented depth v
      ++ indentedMembers depth rest)

end

/-- The compact text of a document. -/
def render (j : Json) : String := String.ofList j.compact

/-- The indented text of a document. -/
def renderIndented (j : Json) : String := String.ofList (j.indented 0)

end LaneChart.Json
