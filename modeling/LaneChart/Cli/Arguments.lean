import LaneChart.Cli.Number
import LaneChart.IdMap

/-!
# The command line

The program has subcommands, and one of them has subcommands of its own. Options that concern the
whole program may stand at every level: before the subcommand or behind it. What is given at the
deeper level counts.

Each level reads its arguments from left to right (`leaf`, `commandWord`), with the options it
allows; an argument is put down as misuse, or as a call for help, as soon as it is read.
-/

namespace LaneChart.Cli

/-- The options that may stand at every level. -/
structure Options where
  verbose : Bool := false
  quiet : Bool := false
  format : Option String := none
  maxSectors : Option Nat := none
  maxHops : Option UInt32 := none
deriving DecidableEq

/-- The options of two levels taken together; the deeper level counts. -/
def Options.under (outer inner : Options) : Options :=
  { verbose := outer.verbose || inner.verbose
    quiet := outer.quiet || inner.quiet
    format := inner.format.or outer.format
    maxSectors := inner.maxSectors.or outer.maxSectors
    maxHops := inner.maxHops.or outer.maxHops }

/-- What the program is asked to do. -/
inductive Action where
  | neighborhood (map : String) (focus : SectorId)
  | layout (map : String) (focus : SectorId) (refine : Bool)
  | walk (map : String) (route : List SectorId) (refine : Bool)
  | configShow
  | configPath
deriving DecidableEq

/-- A command line that can be carried out. -/
structure Invocation where
  options : Options
  action : Action
deriving DecidableEq

/-- Why a command line is not carried out. -/
inductive Stop where
  | help
  | version
  | misuse
deriving DecidableEq

/-! ## Arguments -/

/-- An option. -/
inductive Name where
  | verbose
  | quiet
  | format
  | maxSectors
  | maxHops
  | refine
  | help
  | version
deriving DecidableEq

/-- Where an option is allowed: at every level, only before the subcommand, or only behind the
subcommands that can refine. -/
inductive Level where
  | outermost
  | middle
  | refinable
deriving DecidableEq

/-- Whether an option is allowed at a level. -/
def Name.allowed (l : Level) : Name → Bool
  | refine => l = .refinable
  | version => l = .outermost
  | _ => true

/-- The option with a long name. -/
def Name.ofLong? (cs : List Char) : Option Name :=
  match String.ofList cs with
  | "verbose" => some verbose
  | "quiet" => some quiet
  | "format" => some format
  | "max-nodes" => some maxSectors
  | "max-hops" => some maxHops
  | "refine" => some refine
  | "help" => some help
  | "version" => some version
  | _ => none

/-- The option with a short name. -/
def Name.ofShort? : Char → Option Name
  | 'v' => some verbose
  | 'q' => some quiet
  | 'f' => some format
  | 'r' => some refine
  | 'h' => some help
  | 'V' => some version
  | _ => none

/-- Whether an option has a value. -/
def Name.takesValue : Name → Bool
  | format => true
  | maxSectors => true
  | maxHops => true
  | _ => false

/-- What an argument looks like. -/
inductive Shape where
  /-- The mark behind which nothing is an option. -/
  | endOfOptions
  /-- A long option, with its value if one is attached. -/
  | long (name : List Char) (value : Option (List Char))
  /-- One or more short options. -/
  | short (names : List Char)
  | word

/-- The shape of an argument. -/
def shape (argument : String) : Shape :=
  match argument.toList with
  | ['-', '-'] => .endOfOptions
  | '-' :: '-' :: rest =>
    .long (rest.takeWhile (· != '=')) (rest.dropWhile (· != '=')).tail?
  | '-' :: c :: rest => .short (c :: rest)
  | _ => .word

/-! ## Options at one level -/

/-- What has been read at one level. -/
structure Given where
  options : Options := {}
  refine : Bool := false
  words : List String := []

/-- Set a flag. An option must not be given twice. -/
def Given.flag (g : Given) : Name → Except Stop Given
  | .verbose =>
    if g.options.verbose then .error .misuse
    else .ok { g with options := { g.options with verbose := true } }
  | .quiet =>
    if g.options.quiet then .error .misuse
    else .ok { g with options := { g.options with quiet := true } }
  | .refine => if g.refine then .error .misuse else .ok { g with refine := true }
  | .help => .error .help
  | .version => .error .version
  | _ => .error .misuse

/-- Set an option that has a value. An option must not be given twice. -/
def Given.value (g : Given) (n : Name) (value : List Char) : Except Stop Given :=
  match n with
  | .format =>
    if g.options.format.isSome then .error .misuse
    else .ok { g with options := { g.options with format := some (String.ofList value) } }
  | .maxSectors =>
    match g.options.maxSectors, natural? UInt64.size value with
    | none, some k => .ok { g with options := { g.options with maxSectors := some k } }
    | _, _ => .error .misuse
  | .maxHops =>
    match g.options.maxHops, signedNatural? UInt32.size value with
    | none, some k =>
      .ok { g with options := { g.options with maxHops := some (UInt32.ofNat k) } }
    | _, _ => .error .misuse
  | _ => .error .misuse

/-- What an option argument comes to: what has been read so far, and the option that still needs
the next argument for its value. -/
abbrev AfterOption := Except Stop (Given × Option Name)

/-- Read a long option. -/
def Given.long (g : Given) (l : Level) (name : List Char) (value : Option (List Char)) :
    AfterOption :=
  match Name.ofLong? name with
  | none => .error .misuse
  | some n =>
    if !n.allowed l then .error .misuse
    else
      match n.takesValue, value with
      | true, some v => (g.value n v).map (·, none)
      | true, none => .ok (g, some n)
      | false, none => (g.flag n).map (·, none)
      | false, some _ => .error .misuse

/-- Read short options. The first one that has a value takes what is left of the argument. -/
def Given.short (g : Given) (l : Level) : List Char → AfterOption
  | [] => .ok (g, none)
  | c :: rest =>
    match Name.ofShort? c with
    | none => .error .misuse
    | some n =>
      if !n.allowed l then .error .misuse
      else if n.takesValue then
        match rest with
        | [] => .ok (g, some n)
        | '=' :: v => (g.value n v).map (·, none)
        | v => (g.value n v).map (·, none)
      else
        match g.flag n with
        | .error s => .error s
        | .ok g => Given.short g l rest

/-- Read a detached value: the next argument, which has to be a word. -/
def Given.detached (g : Given) (n : Name) (argument : String) : Except Stop Given :=
  match shape argument with
  | .word => g.value n argument.toList
  | _ => .error .misuse

/-! ## Subcommands -/

/-- What stands behind the options of a level: a word and the arguments behind it. -/
structure Word where
  given : Given
  word : String
  rest : List String

/-- Read options up to the first word. `pending` is an option that waits for its value. Behind the
mark of the end of options no subcommand is recognised. -/
def commandWord (l : Level) (g : Given) (pending : Option Name) :
    List String → Except Stop Word
  | [] => .error .misuse
  | a :: rest =>
    match pending with
    | some n =>
      match g.detached n a with
      | .error s => .error s
      | .ok g => commandWord l g none rest
    | none =>
      match shape a with
      | .word => .ok ⟨g, a, rest⟩
      | .endOfOptions => .error .misuse
      | .long name value =>
        match g.long l name value with
        | .error s => .error s
        | .ok (g, pending) => commandWord l g pending rest
      | .short names =>
        match g.short l names with
        | .error s => .error s
        | .ok (g, pending) => commandWord l g pending rest

/-- Check the words of a subcommand as they are read. -/
abbrev WordCheck := Nat → String → Bool

/-- Read the arguments of a subcommand to the end. `accepts` says of each word, by its place,
whether it can stand there; behind the mark of the end of options every argument is a word. -/
def leaf (l : Level) (accepts : WordCheck) (g : Given) (pending : Option Name)
    (onlyWords : Bool) : List String → Except Stop Given
  | [] => if pending.isSome then .error .misuse else .ok g
  | a :: rest =>
    let takeWord : Except Stop Given :=
      if accepts g.words.length a then .ok { g with words := g.words ++ [a] } else .error .misuse
    if onlyWords then
      match takeWord with
      | .error s => .error s
      | .ok g => leaf l accepts g none true rest
    else
      match pending with
      | some n =>
        match g.detached n a with
        | .error s => .error s
        | .ok g => leaf l accepts g none false rest
      | none =>
        match shape a with
        | .word =>
          match takeWord with
          | .error s => .error s
          | .ok g => leaf l accepts g none false rest
        | .endOfOptions => leaf l accepts g none true rest
        | .long name value =>
          match g.long l name value with
          | .error s => .error s
          | .ok (g, pending) => leaf l accepts g pending false rest
        | .short names =>
          match g.short l names with
          | .error s => .error s
          | .ok (g, pending) => leaf l accepts g pending false rest

/-- A sector id as an argument. -/
def id? (a : String) : Option SectorId := (natural? UInt64.size a.toList).map UInt64.ofNat

/-- Words that are a file and one sector. -/
def fileAndSector : WordCheck
  | 0, a => !a.isEmpty
  | 1, a => (id? a).isSome
  | _, _ => false

/-- Words that are a file and sectors. -/
def fileAndSectors : WordCheck
  | 0, a => !a.isEmpty
  | _, a => (id? a).isSome

/-- No words at all. -/
def noWords : WordCheck := fun _ _ => false

/-- The action of a subcommand that takes a file and one sector. -/
def oneSector (outer : Options) (l : Level) (action : String → SectorId → Bool → Action)
    (arguments : List String) : Except Stop Invocation := do
  let g ← leaf l fileAndSector {} none false arguments
  match g.words with
  | [map, focus] =>
    match id? focus with
    | some focus => return ⟨outer.under g.options, action map focus g.refine⟩
    | none => .error .misuse
  | _ => .error .misuse

/-- The action of the subcommand that takes a file and a route. -/
def route (outer : Options) (arguments : List String) : Except Stop Invocation := do
  let g ← leaf .refinable fileAndSectors {} none false arguments
  match g.words with
  | map :: first :: more =>
    return ⟨outer.under g.options, .walk map ((first :: more).filterMap id?) g.refine⟩
  | _ => .error .misuse

/-- An action without arguments. -/
def bare (outer : Options) (action : Action) (arguments : List String) :
    Except Stop Invocation := do
  let g ← leaf .middle noWords {} none false arguments
  return ⟨outer.under g.options, action⟩

/-- The subcommands of the configuration. -/
def configWords : List String := ["show", "path", "help"]

/-- The subcommands of the program. -/
def programWords : List String := ["neighborhood", "layout", "walk", "config", "help"]

/-- Help on a path of subcommands of the configuration. -/
def configHelp : List String → Stop
  | [] => .help
  | [a] => if configWords.contains a then .help else .misuse
  | _ => .misuse

/-- Help on a path of subcommands. -/
def programHelp : List String → Stop
  | [] => .help
  | "config" :: rest => configHelp rest
  | [a] => if programWords.contains a then .help else .misuse
  | _ => .misuse

/-- The action of a subcommand of the configuration. -/
def config (outer : Options) (arguments : List String) : Except Stop Invocation := do
  let w ← commandWord .middle {} none arguments
  let outer := outer.under w.given.options
  match w.word with
  | "show" => bare outer .configShow w.rest
  | "path" => bare outer .configPath w.rest
  | "help" => .error (configHelp w.rest)
  | _ => .error .misuse

/-- Read a command line. -/
def parseArguments (arguments : List String) : Except Stop Invocation := do
  let w ← commandWord .outermost {} none arguments
  let outer := w.given.options
  match w.word with
  | "neighborhood" => oneSector outer .middle (fun map focus _ => .neighborhood map focus) w.rest
  | "layout" => oneSector outer .refinable .layout w.rest
  | "walk" => route outer w.rest
  | "config" => config outer w.rest
  | "help" => .error (programHelp w.rest)
  | _ => .error .misuse

end LaneChart.Cli
