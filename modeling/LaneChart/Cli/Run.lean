import LaneChart.Cli.Report

/-!
# Carrying out a command line

From the arguments and the surroundings to what is printed and how the program ends. The format of
the output is looked at first, then the settings, and only then the action with its map.
-/

namespace LaneChart.Cli

/-- The form of the output. -/
inductive OutputForm where
  | text
  | document
deriving DecidableEq

/-- The form of the output by its name, in letters of either case. -/
def OutputForm.parse (name : String) : Except Failure OutputForm :=
  match String.ofList (name.toList.map Char.toLower) with
  | "text" => .ok .text
  | "txt" => .ok .text
  | "json" => .ok .document
  | _ => .error (.unknownFormat name)

/-- What is printed. -/
inductive Output where
  | text (s : String)
  | document (j : Json)

/-- How the program ends. -/
inductive Exit where
  | printed (o : Output)
  | failed (f : Failure)
  | misused

/-- The map in a file. -/
def loadMap (s : Surroundings) (path : String) : Except Failure SectorMap :=
  match s.file path with
  | .text contents =>
    match SectorMap.parse? contents with
    | some map => .ok map
    | none => .error (.malformedMap path)
  | _ => .error (.unreadableMap path)

/-- A session with settings that have been checked before. -/
def openSession (settings : Settings) : Except Failure Session :=
  match Session.new settings with
  | .ok s => .ok s
  | .error e => .error (.invalidSettings e)

/-- The output in the form that is asked for. -/
def present (form : OutputForm) (text : Unit → String) (document : Unit → Json) : Output :=
  match form with
  | .text => .text (text ())
  | .document => .document (document ())

/-- Show the neighbourhood of a sector. -/
def showNeighborhood (settings : Settings) (map : SectorMap) (focus : SectorId)
    (form : OutputForm) : Output :=
  let n := Neighborhood.extract map focus settings.limits
  present form (fun _ => neighborhoodText n) (fun _ => neighborhoodDocument n)

/-- Lay out the neighbourhood of a sector. -/
def showLayout (settings : Settings) (map : SectorMap) (focus : SectorId) (refine : Bool)
    (form : OutputForm) : Except Failure Output := do
  let session ← openSession settings
  let (frame, session) := session.render map focus
  match frame.outcome.failure? with
  | some failure => .error (.skipped failure)
  | none =>
    let refined := if refine then session.refine.1 else none
    return present form (fun _ => layoutText frame refined)
      (fun _ => layoutDocument frame refined)

/-- Move the focus along a route. -/
def showWalk (settings : Settings) (map : SectorMap) (route : List SectorId) (refine : Bool)
    (form : OutputForm) : Except Failure Output := do
  let session ← openSession settings
  let steps := session.walk map refine route
  return present form (fun _ => walkText steps) (fun _ => walkDocument steps)

/-- Carry out an action. -/
def perform (s : Surroundings) (settings : Settings) (form : OutputForm) :
    Action → Except Failure Output
  | .neighborhood path focus => do
    return showNeighborhood settings (← loadMap s path) focus form
  | .layout path focus refine => do
    showLayout settings (← loadMap s path) focus refine form
  | .walk path route refine => do
    showWalk settings (← loadMap s path) route refine form
  | .configShow =>
    .ok (present form (fun _ => configText settings s.configPath?)
      (fun _ => configToJson settings))
  | .configPath => .ok (.text (pathText s.configPath?))

/-- Carry out a command line that has been read. -/
def carryOut (s : Surroundings) (i : Invocation) : Except Failure Output := do
  let form ← OutputForm.parse (i.options.format.getD "text")
  let settings ← effectiveSettings s i.options
  perform s settings form i.action

/-- The version of the program. -/
def versionText : String := lines ["sgv 0.1.0"]

/-- How the program is used. -/
def helpText : String :=
  lines
    ["Sector Graph: explore incremental layouts of a sector map",
      "",
      "Usage: sgv [OPTIONS] <COMMAND>",
      "",
      "Commands:",
      "  neighborhood <MAP> <FOCUS>           Show the bounded neighborhood around a sector",
      "  layout [-r] <MAP> <FOCUS>            Lay out the neighborhood around a sector",
      "  walk [-r] <MAP> <ROUTE>...           Move the focus through several sectors in one view",
      "  config show                          Show current configuration",
      "  config path                          Show path to config file",
      "  help                                 Print this message",
      "",
      "Options:",
      "  -v, --verbose                        Enable verbose output",
      "  -q, --quiet                          Suppress all output except errors",
      "  -f, --format <FORMAT>                Output format: text or json [default: text]",
      "      --max-nodes <MAX_NODES>          Maximum number of displayed sectors",
      "      --max-hops <MAX_HOPS>            Maximum hop distance from the focus",
      "  -h, --help                           Print help",
      "  -V, --version                        Print version"]

/-- Run the program. -/
def run (s : Surroundings) (arguments : List String) : Exit :=
  match parseArguments arguments with
  | .error .help => .printed (.text helpText)
  | .error .version => .printed (.text versionText)
  | .error .misuse => .misused
  | .ok i =>
    match carryOut s i with
    | .ok o => .printed o
    | .error f => .failed f

end LaneChart.Cli
