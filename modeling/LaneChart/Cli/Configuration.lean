import LaneChart.Documents.Settings
import LaneChart.Cli.Arguments
import LaneChart.Cli.EnvFile
import LaneChart.Text.Quoted

/-!
# Where the settings come from

Four layers, each above the one before: the defaults, the configuration file, the environment
(with what an environment file adds to it), and the options of the command line. A variable
replaces one field, and so does an option; all other fields are those of the layer below.

The settings are checked after the environment and again after the options.
-/

namespace LaneChart.Cli

/-- What a path leads to. -/
inductive FileState where
  | absent
  | unreadable
  | text (contents : String)
deriving DecidableEq

/-- What the program sees of the system it runs on. -/
structure Surroundings where
  /-- The variables of the process. -/
  inherited : String → Option String
  /-- The text of the environment file, if there is one. -/
  envFile : Option String
  /-- The home directory of the user, for when no variable names one. -/
  userHome : Option String
  /-- The files. -/
  file : String → FileState

/-- Why the program ends without doing what it is asked. -/
inductive Failure where
  | unknownFormat (name : String)
  | unreadableConfig (path : String)
  | malformedConfig (path : String)
  | notANumber (key value : String)
  | invalidSettings (error : ChartError)
  | unreadableMap (path : String)
  | malformedMap (path : String)
  | skipped (failure : Layout.Failure)
deriving DecidableEq

namespace Failure

/-- A failure in words. -/
def message : Failure → String
  | unknownFormat name => "Unknown format: " ++ name ++ ". Use 'text' or 'json'"
  | unreadableConfig path => "Failed to read config from " ++ path
  | malformedConfig path => "Failed to parse config file " ++ path
  | notANumber key value => key ++ " must be a number, got " ++ Text.quoted value
  | invalidSettings _ => "Invalid engine configuration"
  | unreadableMap path => "Failed to read sector map " ++ path
  | malformedMap path => "Failed to parse sector map " ++ path
  | skipped failure => (ChartError.layout failure).message

/-- What is behind a failure, in words, where that is the program's own finding. -/
def causes : Failure → List String
  | invalidSettings e => [e.message]
  | skipped failure => [failure.message]
  | _ => []

end Failure

/-- Whether a path starts at the root. -/
def isAbsolute (path : String) : Bool := path.toList.head? = some '/'

/-- A path with one more component. -/
def joinPath (path component : String) : String :=
  if path.toList.getLast? = some '/' then path ++ component else path ++ "/" ++ component

namespace Surroundings

/-! ## The environment -/

/-- The variables of the process with those of the environment file. -/
def environment (s : Surroundings) : String → Option String :=
  match s.envFile with
  | none => s.inherited
  | some text => EnvFile.define s.inherited (EnvFile.read text)

/-! ## The configuration file -/

/-- The home directory: the one that is set, or else that of the user. -/
def home? (s : Surroundings) : Option String :=
  ((s.environment "HOME").filter (!·.isEmpty)).or s.userHome

/-- The directory of configurations: the one that is set for this purpose if it is absolute, or
else one in the home directory. Without a home directory there is neither. -/
def configDirectory? (s : Surroundings) : Option String := do
  let home ← s.home?
  return ((s.environment "XDG_CONFIG_HOME").filter isAbsolute).getD (joinPath home ".config")

/-- The path of the configuration file. -/
def configPath? (s : Surroundings) : Option String :=
  s.configDirectory?.map fun d => joinPath (joinPath d "sgv") "config.json"

end Surroundings

/-! ## The layers -/

/-- Read a configuration file: the settings stand in its only field. -/
def configOfJson? (j : Json) : Option Settings := do
  let r ← j.record? ["engine"]
  r.orElse 0 Settings.ofJson? {}

/-- Write the settings as a configuration file. -/
def configToJson (s : Settings) : Json := Json.ofMembers [("engine", s.toJson)]

/-- The settings of the configuration file, or the defaults if there is no such file. -/
def fileSettings (file : String → FileState) (path : Option String) :
    Except Failure Settings :=
  match path with
  | none => .ok {}
  | some path =>
    match file path with
    | .absent => .ok {}
    | .unreadable => .error (.unreadableConfig path)
    | .text contents =>
      match (Json.read? contents).bind configOfJson? with
      | none => .error (.malformedConfig path)
      | some s => .ok s

/-- A variable that holds a number below a bound, with blanks around it if one likes. -/
def numberVariable (environment : String → Option String) (key : String) (bound : Nat) :
    Except Failure (Option Nat) :=
  match environment key with
  | none => .ok none
  | some value =>
    match natural? bound (Text.trim value.toList) with
    | none => .error (.notANumber key value)
    | some n => .ok (some n)

/-- A variable that holds a word of thirty-two bits. -/
def wordVariable (environment : String → Option String) (key : String) :
    Except Failure (Option UInt32) := do
  return (← numberVariable environment key UInt32.size).map UInt32.ofNat

/-- Put the variables over the settings. -/
def withEnvironment (environment : String → Option String) (s : Settings) :
    Except Failure Settings := do
  let maxSectors ← numberVariable environment "SGV_MAX_NODES" UInt64.size
  let maxHops ← wordVariable environment "SGV_MAX_HOPS"
  let maxPasses ← wordVariable environment "SGV_MAX_PASSES"
  let maxFlips ← wordVariable environment "SGV_MAX_FLIPS"
  let iterations ← wordVariable environment "SGV_LAYOUT_ITERATIONS"
  return {
    limits :=
      { maxSectors := maxSectors.getD s.limits.maxSectors
        maxHops := maxHops.getD s.limits.maxHops }
    minimizer :=
      { maxPasses := maxPasses.getD s.minimizer.maxPasses
        maxFlips := maxFlips.getD s.minimizer.maxFlips }
    layout := { s.layout with iterations := iterations.getD s.layout.iterations } }

/-- Put the options over the settings. -/
def withOptions (o : Options) (s : Settings) : Settings :=
  { s with limits :=
      { maxSectors := o.maxSectors.getD s.limits.maxSectors
        maxHops := o.maxHops.getD s.limits.maxHops } }

/-- Settings that can be used. -/
def checkSettings (s : Settings) : Except Failure Settings :=
  match s.validate with
  | .ok () => .ok s
  | .error e => .error (.invalidSettings e)

/-- The settings without the options of the command line. -/
def load (s : Surroundings) : Except Failure Settings := do
  let base ← fileSettings s.file s.configPath?
  let settings ← withEnvironment s.environment base
  checkSettings settings

/-- The settings that the program works with. -/
def effectiveSettings (s : Surroundings) (o : Options) : Except Failure Settings := do
  let loaded ← load s
  checkSettings (withOptions o loaded)

end LaneChart.Cli
