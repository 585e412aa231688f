import LaneChart.Text.Alphanumeric

/-!
# Environment files

A file of lines `NAME=value` that adds to the environment. Values may be quoted, may go over
several lines inside quotes, and may refer to other variables by a dollar sign and the name, in
braces or not. Reading stops at the first line that is malformed; what stands above it counts.

It goes in three stages: physical lines are joined to logical ones (`logicalLines`), a logical line
becomes an assignment whose value still holds its references (`Assignment.ofLine`), and the
assignments are carried out from the top against the variables that are set so far (`define`).
A variable that is set already keeps its value.
-/

namespace LaneChart.Cli.EnvFile

open Text (isBlank isAlphanumeric trimStart trimEnd)

/-! ## Lines -/

/-- Where a line stands with respect to quotes: outside them, behind a blank, inside one kind or
the other, or behind a backslash in one of these places. -/
inductive Quoting where
  | outside
  | blank
  | escape
  | strong
  | strongEscape
  | weak
  | weakEscape
deriving DecidableEq

/-- The state behind a character outside quotes that starts nothing but itself. -/
def Quoting.plain (c : Char) : Quoting :=
  if c = '\\' then .escape
  else if c = '"' then .weak
  else if c = '\'' then .strong
  else .outside

/-- The state behind one more character. -/
def Quoting.next (c : Char) : Quoting → Quoting
  | .outside => if isBlank c && c != '\n' && c != '\r' then .blank else .plain c
  | .blank => .plain c
  | .escape => .outside
  | .weak => if c = '\\' then .weakEscape else if c = '"' then .outside else .weak
  | .weakEscape => .weak
  | .strong => if c = '\\' then .strongEscape else if c = '\'' then .outside else .strong
  | .strongEscape => .strong

/-- Read a physical line from a state: either what stands before a comment, or the state at its
end. The characters read so far are in reverse. -/
def scanLine (acc : List Char) : Quoting → List Char → List Char ⊕ Quoting
  | q, [] => .inr q
  | q, c :: rest =>
    if q = .blank ∧ c = '#' then .inl acc.reverse else scanLine (c :: acc) (q.next c) rest

/-- The lines of a text, each with its line end. -/
def physicalLines : List Char → List (List Char)
  | [] => []
  | c :: rest =>
    match physicalLines rest with
    | [] => [[c]]
    | line :: lines => if c = '\n' then [c] :: line :: lines else (c :: line) :: lines

/-- A line without its line end. -/
def withoutEnd (line : List Char) : List Char :=
  match line.reverse with
  | '\n' :: '\r' :: rest => rest.reverse
  | '\n' :: rest => rest.reverse
  | _ => line

/-- Join physical lines to logical ones, `buffer` being the part of a logical line that is read
already. A line that the text ends in the middle of is malformed, shown as `none`. -/
def logicalLines (buffer : List Char) (q : Quoting) : List (List Char) → List (Option (List Char))
  | [] => if q = .outside then [] else [none]
  | line :: rest =>
    if (trimStart (buffer ++ line)).head? = some '#' then some [] :: logicalLines [] .outside rest
    else
      match scanLine [] q line with
      | .inl before => some (buffer ++ before) :: logicalLines [] .outside rest
      | .inr .outside => some (withoutEnd (buffer ++ line)) :: logicalLines [] .outside rest
      | .inr q => logicalLines (buffer ++ line) q rest

/-! ## Assignments -/

/-- A part of a value: a character, or a reference to a variable. -/
inductive Part where
  | char (c : Char)
  | reference (name : List Char)
deriving DecidableEq

/-- What a line assigns. -/
structure Assignment where
  name : List Char
  value : List Part
deriving DecidableEq

/-- Where the reader of a value stands. -/
inductive Mode where
  | bare
  | weak
  | strong
  /-- Behind the blank that ends the value. -/
  | done
deriving DecidableEq

/-- What the reader of a value is in the middle of. -/
inductive Pending where
  | none
  | escape
  /-- A reference without braces; the name so far is in reverse. -/
  | reference (name : List Char)
  /-- A reference in braces; the name so far is in reverse. -/
  | braced (name : List Char)
deriving DecidableEq

/-- The character that an escape in a value stands for. -/
def escaped? (c : Char) : Option Char :=
  if c = '\\' ∨ c = '\'' ∨ c = '"' ∨ c = '$' ∨ c = ' ' then some c
  else if c = 'n' then some '\n'
  else none

/-- The parts of a value, collected in reverse; refused when it is malformed. Behind a reference
without braces the next character stands for itself, whatever it is. -/
def valueParts (acc : List Part) (mode : Mode) (pending : Pending) :
    List Char → Option (List Part)
  | [] =>
    match mode, pending with
    | .weak, _ => .none
    | .strong, _ => .none
    | _, .braced _ => .none
    | _, .reference name => some (.reference name.reverse :: acc).reverse
    | _, _ => some acc.reverse
  | c :: rest =>
    match mode, pending with
    | .done, _ =>
      if c = ' ' || c = '\t' then valueParts acc .done .none rest
      else if c = '#' then some acc.reverse
      else .none
    | mode, .escape => (escaped? c).bind fun c => valueParts (.char c :: acc) mode .none rest
    | .strong, _ =>
      if c = '\'' then valueParts acc .bare .none rest
      else valueParts (.char c :: acc) .strong .none rest
    | mode, .reference name =>
      if isAlphanumeric c then valueParts acc mode (.reference (c :: name)) rest
      else if c = '\x7b' && name.isEmpty then valueParts acc mode (.braced []) rest
      else if c = '$' then valueParts (.reference name.reverse :: acc) mode (.reference []) rest
      else valueParts (.char c :: .reference name.reverse :: acc) mode .none rest
    | mode, .braced name =>
      if c = '\x7d' then valueParts (.reference name.reverse :: acc) mode .none rest
      else valueParts acc mode (.braced (c :: name)) rest
    | mode, .none =>
      if c = '$' then valueParts acc mode (.reference []) rest
      else if c = '\\' then valueParts acc mode .escape rest
      else if mode = .weak then
        if c = '"' then valueParts acc .bare .none rest
        else valueParts (.char c :: acc) .weak .none rest
      else if c = '\'' then valueParts acc .strong .none rest
      else if c = '"' then valueParts acc .weak .none rest
      else if c = ' ' || c = '\t' then valueParts acc .done .none rest
      else valueParts (.char c :: acc) .bare .none rest

/-- Whether a name may start with a character. -/
def startsName (c : Char) : Bool := c.isAlpha || c = '_'

/-- Whether a name may go on with a character. -/
def inName (c : Char) : Bool := c.isAlphanum || c = '_' || c = '.'

/-- A name at the front of a text, and the text behind it and the blanks that follow. -/
def name? (cs : List Char) : Option (List Char × List Char) :=
  match cs with
  | [] => none
  | c :: _ =>
    if startsName c then some (cs.takeWhile inName, trimStart (cs.dropWhile inName)) else none

/-- The text behind an equals sign. -/
def afterEquals? : List Char → Option (List Char)
  | '=' :: rest => some rest
  | _ => none

/-- A name and the text behind its equals sign. The word `export` may stand in front of the name;
with an equals sign behind it, it is a name itself. -/
def target? (cs : List Char) : Option (List Char × List Char) := do
  let (name, rest) ← name? cs
  match afterEquals? rest with
  | some value => return (name, value)
  | none =>
    if name = "export".toList then
      let (name, rest) ← name? rest
      return (name, ← afterEquals? rest)
    else none

/-- The assignment of a logical line: `some none` for a line that is empty or a comment, and
refused when the line is malformed. -/
def Assignment.ofLine (line : List Char) : Option (Option Assignment) :=
  let cs := trimStart (trimEnd line)
  if cs.isEmpty || cs.head? = some '#' then some none
  else do
    let (name, rest) ← target? cs
    let value := trimStart rest
    if value.isEmpty || value.head? = some '#' then return some ⟨name, []⟩
    else return some ⟨name, ← valueParts [] .bare .none value⟩

/-- The assignments of logical lines, up to the first malformed one. -/
def assignments : List (Option (List Char)) → List Assignment
  | [] => []
  | none :: _ => []
  | some line :: rest =>
    match Assignment.ofLine line with
    | none => []
    | some none => assignments rest
    | some (some a) => a :: assignments rest

/-- The assignments of an environment file, without the mark that may stand at its very front. -/
def read (text : String) : List Assignment :=
  let cs := match text.toList with
    | '\uFEFF' :: rest => rest
    | cs => cs
  assignments (logicalLines [] .outside (physicalLines cs))

/-! ## Carrying assignments out -/

/-- The variable that a reference is to: its name ends before an equals sign. -/
def referent (name : List Char) : String := String.ofList (name.takeWhile (· != '='))

/-- What a reference stands for, given the variables that are set. A variable is kept as its name,
an equals sign and its value, and is found by the front of that text. So a reference that holds an
equals sign itself reaches into the value: the value has to go on as the reference does, up to an
equals sign, and what is behind that sign counts. -/
def referenced? (lookup : String → Option String) (name : List Char) : Option (List Char) := do
  let value ← lookup (referent name)
  match name.dropWhile (· != '=') with
  | [] => return value.toList
  | _ :: front => (front ++ ['=']).isPrefixOf? value.toList

/-- The value of an assignment, given the variables that are set. A reference to none of them
stands for nothing. -/
def Assignment.text (lookup : String → Option String) (a : Assignment) : String :=
  String.ofList (a.value.flatMap fun p =>
    match p with
    | .char c => [c]
    | .reference name => (referenced? lookup name).getD [])

/-- The variables after some assignments, given those that are set before. -/
def define (lookup : String → Option String) : List Assignment → String → Option String
  | [] => lookup
  | a :: rest =>
    let name := String.ofList a.name
    if (lookup name).isSome then define lookup rest
    else
      let value := a.text lookup
      define (fun n => if n = name then some value else lookup n) rest

/-- The variables that the values of some assignments refer to. -/
def referents (as : List Assignment) : List String :=
  as.flatMap fun a => a.value.filterMap fun p =>
    match p with
    | .char _ => none
    | .reference name => some (referent name)

example : referenced? (fun n => if n = "A" then some "B=6" else none) "A=B".toList = some ['6'] :=
  by decide +kernel

end LaneChart.Cli.EnvFile
