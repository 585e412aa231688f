import LaneChart.Json.Printer
import LaneChart.Json.Reader
import LaneChart.IdMap

/-!
# Typed readers

A reader of a type is a function `Json → Option α`; refusing is all the error there is. This file
holds the readers of the simple types and the two ways a record may be written:

* as an object, its members in any order, none of its own fields twice, others ignored;
* as a list of the fields in the order of their declaration, where fields may be left out only at
  the end.

`Record` is what both come down to: for each field its value, if it was given. The four accessors
differ in what a field that was not given means.
-/

namespace LaneChart.Json

/-! ## Simple types -/

/-- A truth value. -/
def bool? : Json → Option Bool
  | .bool b => some b
  | _ => none

/-- A natural number below a bound. -/
def natBelow? (bound : Nat) : Json → Option Nat
  | .number n => n.natBelow? bound
  | _ => none

/-- A natural number of sixty-four bits. -/
def word64? (j : Json) : Option UInt64 := (j.natBelow? UInt64.size).map UInt64.ofNat

/-- A natural number of thirty-two bits. -/
def word32? (j : Json) : Option UInt32 := (j.natBelow? UInt32.size).map UInt32.ofNat

/-- A single. -/
def single? : Json → Option Float32
  | .number n => n.single?
  | _ => none

/-- A text, with every escape of it standing for a character. -/
def text? : Json → Option String
  | .string raw => (unescape raw).map String.ofList
  | _ => none

/-- A list, every item of which is read. -/
def list? {α : Type} (item : Json → Option α) : Json → Option (List α)
  | .array items => items.mapM item
  | _ => none

/-- A value or null. -/
def nullable? {α : Type} (value : Json → Option α) : Json → Option (Option α)
  | .null => some none
  | j => (value j).map some

/-! ## Ids as keys -/

/-- A sector id spelled as a key: its decimal digits without a leading zero, and nothing else. -/
def idKey? (raw : List Char) : Option SectorId :=
  match scanWhole raw with
  | some (n, []) => if n < UInt64.size then some (UInt64.ofNat n) else none
  | _ => none

/-- A sector id as a key. -/
def idKey (id : SectorId) : List Char := Decimal.naturalText id.toNat

/-- An object keyed by sector ids; of two members with one id the later counts. -/
def idMap? {α : Type} (value : Json → Option α) : Json → Option (IdMap α)
  | .object members =>
    (members.mapM fun (k, v) => do return (← idKey? k, ← value v)).map IdMap.ofList
  | _ => none

/-- A map as an object, in ascending order of id. -/
def ofIdMap {α : Type} (value : α → Json) (m : IdMap α) : Json :=
  .object (m.entries.map fun e => (idKey e.1, value e.2))

/-- A sector id. -/
def ofId (id : SectorId) : Json := ofNat id.toNat

/-! ## Records -/

/-- The fields of a record in the order of their declaration, each with its value if it was
given, and whether they were given by name. -/
structure Record where
  named : Bool
  fields : List (Option Json)

/-- The value of the only member with a name; refused when there are two. -/
def onlyMember? (members : List (List Char × Json)) (name : String) : Option (Option Json) :=
  match members.filter (fun m => m.1 == name.toList) with
  | [] => some none
  | [m] => some (some m.2)
  | _ => none

/-- Read the names of the members of an object. -/
def namedMembers? (members : List (List Char × Json)) : Option (List (List Char × Json)) :=
  members.mapM fun m => (unescape m.1).map (·, m.2)

/-- A document as a record with the given fields. -/
def record? (names : List String) : Json → Option Record
  | .object members => do
    let members ← namedMembers? members
    return ⟨true, ← names.mapM (onlyMember? members)⟩
  | .array items =>
    if items.length ≤ names.length then
      some ⟨false, items.map some ++ List.replicate (names.length - items.length) none⟩
    else none
  | _ => none

namespace Record

variable {α : Type}

/-- The value given for the field at a place. -/
def given (r : Record) (i : Nat) : Option Json := (r.fields[i]?).join

/-- A field that has to be given. -/
def required (r : Record) (i : Nat) (value : Json → Option α) : Option α := (r.given i).bind value

/-- A field that stands for a default when it is not given. -/
def orElse (r : Record) (i : Nat) (value : Json → Option α) (default : α) : Option α :=
  match r.given i with
  | none => some default
  | some j => value j

/-- A field that may be null, and need not be given. -/
def optional (r : Record) (i : Nat) (value : Json → Option α) : Option (Option α) :=
  r.orElse i (nullable? value) none

/-- A field that may be null, and need not be given if the others are given by name. -/
def nullable (r : Record) (i : Nat) (value : Json → Option α) : Option (Option α) :=
  if r.named then r.optional i value else r.required i (nullable? value)

end Record

/-! ## Records told apart by a tag

Which record it is stands in a field of its own, which may come after the others. So the rest has
to be held until the tag is known, and all of it has to be something that can be held: every name
and every text has a meaning, every number has a value, and the nesting is bounded. -/

/-- How many brackets deep a held document may be. -/
def holdingDepth : Nat := 127

mutual

/-- Whether a document can be held within a number of nested brackets. -/
def canHold : Nat → Json → Bool
  | _, .null => true
  | _, .bool _ => true
  | _, .number n => n.hasValue
  | _, .string raw => (unescape raw).isSome
  | depth, .array items => canHoldItems depth items
  | depth, .object members => canHoldMembers depth members

/-- Whether the items of a list can be held, the list being one level of nesting. -/
def canHoldItems : Nat → List Json → Bool
  | 0, _ => false
  | _, [] => true
  | depth + 1, v :: rest => canHold depth v && canHoldItems (depth + 1) rest

/-- Whether the members of an object can be held, the object being one level of nesting. -/
def canHoldMembers : Nat → List (List Char × Json) → Bool
  | 0, _ => false
  | _, [] => true
  | depth + 1, (k, v) :: rest =>
    (unescape k).isSome && canHold depth v && canHoldMembers (depth + 1) rest

end

/-- A tagged record: the tag, and a document that holds the other fields. The tag is the member of
that name, or the first item of a list. -/
def tagged? (tagName : String) (j : Json) : Option (String × Json) :=
  if j.canHold holdingDepth then
    match j with
    | .object members => do
      let named ← namedMembers? members
      let tag ← (← onlyMember? named tagName).bind text?
      return (tag, .object (members.filter fun m => unescape m.1 != some tagName.toList))
    | .array (tag :: rest) => do return (← text? tag, .array rest)
    | _ => none
  else none

/-- The name of one of several alternatives that hold nothing: a text, or an object whose only
member has that name and nothing as its value. -/
def alternative? : Json → Option String
  | .string raw => text? (.string raw)
  | .object [(name, value)] =>
    match value with
    | .null => (unescape name).map String.ofList
    | .object [] => (unescape name).map String.ofList
    | _ => none
  | _ => none

end LaneChart.Json
