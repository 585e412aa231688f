import LaneChart.Cli.Run

/-!
# The program

Collects what the program needs to see of the system, runs it, prints what comes out, and ends
with its status: 0 when the action was done, 1 when it failed, 2 when the command line was misused.
-/

namespace LaneChart.Cli

/-- The state of a file. -/
def readState (path : String) : IO FileState := do
  match ← (IO.FS.readFile path).toBaseIO with
  | .ok contents => return .text contents
  | .error _ =>
    match ← (IO.FS.realPath path).toBaseIO with
    | .ok _ => return .unreadable
    | .error _ => return .absent

/-- The text of the first environment file at some paths. -/
def firstText : List String → IO (Option String)
  | [] => return none
  | path :: rest => do
    match ← readState path with
    | .text contents => return some contents
    | _ => firstText rest

/-- Where an environment file may be: in the current directory, or in one around it. -/
def envFilePaths (directory : String) : List String :=
  (List.range ((directory.toList.filter (· == '/')).length + 1)).map fun n =>
    String.join (List.replicate n "../") ++ ".env"

/-- The number of the user in the status of a process. -/
def userOfStatus? (status : String) : Option String :=
  (status.splitOn "\n").findSome? fun line =>
    match line.splitOn "\t" with
    | "Uid:" :: user :: _ => some user
    | _ => none

/-- The home directory of a user in the table of users, a line for each: the number stands in the
third field, and the directory in the sixth. -/
def homeInTable? (table user : String) : Option String :=
  (table.splitOn "\n").findSome? fun line =>
    match line.splitOn ":" with
    | [_, _, number, _, _, home, _] => if number = user then some home else none
    | _ => none

/-- The home directory of the user. -/
def readUserHome : IO (Option String) := do
  match ← firstText ["/proc/self/status"], ← firstText ["/etc/passwd"] with
  | some status, some table => return (userOfStatus? status).bind (homeInTable? table)
  | _, _ => return none

/-- The variables that the program asks for itself. -/
def ownVariables : List String :=
  ["HOME", "XDG_CONFIG_HOME", "SGV_MAX_NODES", "SGV_MAX_HOPS", "SGV_MAX_PASSES",
    "SGV_MAX_FLIPS", "SGV_LAYOUT_ITERATIONS"]

/-- The values of some variables. -/
def readVariables (names : List String) : IO (List (String × String)) :=
  names.filterMapM fun n => do return (← IO.getEnv n).map (n, ·)

/-- The path of the map of an action. -/
def Action.map? : Action → Option String
  | .neighborhood map _ => some map
  | .layout map _ _ => some map
  | .walk map _ _ => some map
  | _ => none

/-- What the program sees of the system when it is called with some arguments. -/
def readSurroundings (arguments : List String) : IO Surroundings := do
  let envFile ← firstText (envFilePaths (toString (← IO.currentDir)))
  let assigned := (envFile.map EnvFile.read).getD []
  let names := ownVariables ++ assigned.map (String.ofList ·.name) ++ EnvFile.referents assigned
  let values ← readVariables names
  let s : Surroundings :=
    { inherited := (values.lookup ·)
      envFile
      userHome := ← readUserHome
      file := fun _ => .absent }
  let map := match parseArguments arguments with
    | .ok i => i.action.map?
    | .error _ => none
  let files ← (s.configPath?.toList ++ map.toList).mapM fun path => do
    return (path, ← readState path)
  return { s with file := fun path => (files.lookup path).getD .absent }

/-- The text of some output. -/
def Output.rendered : Output → String
  | .text s => s
  | .document j => j.renderIndented ++ "\n"

/-- What is said about a failure. -/
def Failure.report (f : Failure) : String :=
  "Error: " ++ f.message ++ "\n"
    ++ (match f.causes with
        | [] => ""
        | causes => "\nCaused by:\n" ++ String.join (causes.map fun c => "    " ++ c ++ "\n"))

end LaneChart.Cli

open LaneChart.Cli in
/-- Run the program with the arguments of the command line. -/
def main (arguments : List String) : IO UInt32 := do
  match run (← readSurroundings arguments) arguments with
  | .printed o =>
    IO.print o.rendered
    return 0
  | .failed f =>
    IO.eprint f.report
    return 1
  | .misused =>
    IO.eprint helpText
    return 2
