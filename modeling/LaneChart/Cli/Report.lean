import LaneChart.Documents.View
import LaneChart.View.Session
import LaneChart.Cli.Configuration

/-!
# What the program prints

Every action has two forms of output: lines of text, and a document.
-/

namespace LaneChart.Cli

open Json (ofMembers optionalMember)

/-- Lines of text, each with its line end. -/
def lines (l : List String) : String := String.join (l.map (· ++ "\n"))

/-- A number in words. -/
def natural (n : Nat) : String := String.ofList (Decimal.naturalText n)

/-- An id in words. -/
def idText (id : SectorId) : String := natural id.toNat

/-- What stands instead of a neighbourhood that has no sectors. -/
def noData (focus : SectorId) : String := "Sector " ++ idText focus ++ " is not in the map"

/-! ## The neighbourhood -/

/-- The document of one displayed sector. -/
def sectorDocument (focus : SectorId) (s : Shown) : Json :=
  ofMembers
    ([("id", Json.ofId s.id), ("class", (Style.ofShown focus s).toJson),
        ("visited", .bool s.visited), ("frontier", .bool s.frontier)]
      ++ optionalMember "port" Json.ofText s.port)

/-- The document of a neighbourhood. -/
def neighborhoodDocument (n : Neighborhood) : Json :=
  ofMembers [("center", Json.ofId n.center),
    ("nodes", Json.ofList (sectorDocument n.center) n.sectors),
    ("edges", Json.ofList Lane.toJson n.lanes)]

/-- The line of one displayed sector. -/
def sectorLine (focus : SectorId) (s : Shown) : String :=
  "  " ++ Decimal.alignRight 8 (idText s.id) ++ "  "
    ++ Decimal.alignLeft 12 (Style.ofShown focus s).label ++ " " ++ s.port.getD ""
    ++ (if s.frontier then " (frontier)" else "")

/-- The line of a lane. -/
def laneLine (l : Lane) : String := "  " ++ idText l.start ++ " - " ++ idText l.stop

/-- A neighbourhood as text. -/
def neighborhoodText (n : Neighborhood) : String :=
  if n.isEmpty then lines [noData n.center]
  else
    lines (("Neighborhood of " ++ idText n.center ++ " (" ++ natural n.size ++ " sectors)")
      :: (n.sectors.map (sectorLine n.center) ++ "Lanes:" :: n.lanes.map laneLine))

/-! ## Commands -/

/-- A position in words, with one place. -/
def positionText (p : Position) : String :=
  "(" ++ Decimal.fixed 1 p.x ++ ", " ++ Decimal.fixed 1 p.y ++ ")"

/-- A command in one line. -/
def describe : Command → String
  | .add id placed style label =>
    "+ " ++ idText id ++ " at " ++ positionText placed.position ++ " " ++ style.label
      ++ (if placed.pinned then " pinned" else "")
      ++ (match label with
          | none => ""
          | some l => " [" ++ l ++ "]")
  | .remove id => "- " ++ idText id
  | .reposition id placed => "~ " ++ idText id ++ " to " ++ positionText placed.position
  | .restyle id style => "= " ++ idText id ++ " " ++ style.label

/-- The line of a command under the heading that it belongs to. -/
def commandLine (c : Command) : String := "  " ++ describe c

/-! ## The layout -/

/-- The document of a layout. -/
def layoutDocument (f : Frame) (refined : Option RefineFrame) : Json :=
  ofMembers (("frame", f.toJson) :: optionalMember "refine" RefineFrame.toJson refined)

/-- The heading of a layout. -/
def layoutHeading (f : Frame) : List String :=
  match f.outcome.status with
  | .complete placed iterations =>
    ["Layout of " ++ idText f.outcome.focus ++ ": " ++ natural f.neighborhood.size ++ " sectors, "
      ++ natural placed ++ " placed in " ++ natural iterations.toNat ++ " iterations"]
  | .skipped _ => []

/-- The line of one placed sector. -/
def placedLine (positions : IdMap Placed) (e : SectorId × Style) : Option String :=
  (positions.get? e.1).map fun p =>
    "  " ++ Decimal.alignRight 8 (idText e.1)
      ++ "  (" ++ Decimal.alignRight 8 (Decimal.fixed 1 p.position.x)
      ++ ", " ++ Decimal.alignRight 8 (Decimal.fixed 1 p.position.y) ++ ")  " ++ e.2.label

/-- The lines of a refinement. -/
def refineLines (f : RefineFrame) : List String :=
  ("Crossings: " ++ natural f.report.before ++ " -> " ++ natural f.report.after ++ " ("
      ++ natural f.report.flips.toNat ++ " flips over " ++ natural f.report.passes.toNat
      ++ " passes)")
    :: f.commands.map commandLine

/-- A layout as text. -/
def layoutText (f : Frame) (refined : Option RefineFrame) : String :=
  if f.isNoData then lines [noData f.outcome.focus]
  else
    lines (layoutHeading f ++ f.outcome.styles.filterMap (placedLine f.outcome.positions)
      ++ (match refined with
          | none => []
          | some r => refineLines r))

/-! ## The walk -/

/-- Why a step was skipped, in words. -/
def skipText (failure : Layout.Failure) : String := (ChartError.layout failure).message

/-- The document of one step. -/
def stepDocument (s : WalkStep) : Json :=
  ofMembers
    ([("focus", Json.ofId s.focus), ("complete", .bool s.isComplete)]
      ++ optionalMember "error" (fun f => Json.ofText (skipText f)) s.failure
      ++ [("commands", Json.ofList Command.toJson s.commands)])

/-- The document of a walk. -/
def walkDocument (steps : List WalkStep) : Json := Json.ofList stepDocument steps

/-- The lines of one step. -/
def stepLines (s : WalkStep) (number : Nat) : List String :=
  ("Step " ++ natural number ++ ": focus " ++ idText s.focus ++ " ("
      ++ natural s.commands.length ++ " commands)")
    :: ((match s.failure with
        | none => []
        | some f => ["  skipped: " ++ skipText f])
      ++ s.commands.map commandLine)

/-- A walk as text. -/
def walkText (steps : List WalkStep) : String :=
  lines ((steps.zipIdx 1).flatMap fun (s, i) => stepLines s i)

/-! ## The configuration -/

/-- The settings as text. -/
def configText (s : Settings) (path : Option String) : String :=
  lines
    (["Sector Graph CLI Configuration",
      String.ofList (List.replicate 40 '-'),
      "Max Nodes:          " ++ natural s.limits.maxSectors,
      "Max Hops:           " ++ natural s.limits.maxHops.toNat,
      "Minimizer Passes:   " ++ natural s.minimizer.maxPasses.toNat,
      "Minimizer Flips:    " ++ natural s.minimizer.maxFlips.toNat,
      "Layout Iterations:  " ++ natural s.layout.iterations.toNat,
      "Barnes-Hut:         " ++ (if s.layout.approximate then "on" else "off")]
      ++ (match path with
          | none => []
          | some p => ["", "Config file: " ++ p]))

/-- The path of the configuration file as text. -/
def pathText (path : Option String) : String :=
  lines [path.getD "(no config file path available)"]

end LaneChart.Cli
