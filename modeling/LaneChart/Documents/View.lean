import LaneChart.Documents.Layout
import LaneChart.View.Basic

/-!
# Documents of the view

How commands and frames are written as JSON. A command carries its kind in the member `op`.
-/

namespace LaneChart

open Json (ofMembers optionalMember)

namespace Command

/-- Read the fields of a command of a given kind. -/
def ofFields? (op : String) (fields : Json) : Option Command :=
  match op with
  | "add" => do
    let r ← fields.record? ["id", "position", "class", "label"]
    return .add (← r.required 0 Json.word64?) (← r.required 1 Placed.ofJson?)
      (← r.required 2 Style.ofJson?) (← r.optional 3 Json.text?)
  | "remove" => do
    let r ← fields.record? ["id"]
    return .remove (← r.required 0 Json.word64?)
  | "reposition" => do
    let r ← fields.record? ["id", "position"]
    return .reposition (← r.required 0 Json.word64?) (← r.required 1 Placed.ofJson?)
  | "restyle" => do
    let r ← fields.record? ["id", "class"]
    return .restyle (← r.required 0 Json.word64?) (← r.required 1 Style.ofJson?)
  | _ => none

/-- Read a command. -/
def ofJson? (j : Json) : Option Command := do
  let (op, fields) ← j.tagged? "op"
  ofFields? op fields

/-- Write a command. -/
def toJson : Command → Json
  | add id placed style label =>
    ofMembers
      ([("op", Json.ofText "add"), ("id", Json.ofId id), ("position", placed.toJson),
          ("class", style.toJson)]
        ++ optionalMember "label" Json.ofText label)
  | remove id => ofMembers [("op", Json.ofText "remove"), ("id", Json.ofId id)]
  | reposition id placed =>
    ofMembers [("op", Json.ofText "reposition"), ("id", Json.ofId id),
      ("position", placed.toJson)]
  | restyle id style =>
    ofMembers [("op", Json.ofText "restyle"), ("id", Json.ofId id), ("class", style.toJson)]

end Command

namespace Crossing.Report

/-- Write the report of a search for fewer crossings. -/
def toJson (r : Report) : Json :=
  ofMembers [("before", Json.ofNat r.before), ("after", Json.ofNat r.after),
    ("flips", Json.ofNat r.flips.toNat), ("passes", Json.ofNat r.passes.toNat)]

end Crossing.Report

/-- Write what a render comes to. -/
def Frame.toJson (f : Frame) : Json :=
  ofMembers [("neighborhood", f.neighborhood.toJson), ("outcome", f.outcome.toJson),
    ("commands", Json.ofList Command.toJson f.commands)]

/-- Write what a refinement comes to. -/
def RefineFrame.toJson (f : RefineFrame) : Json :=
  ofMembers [("report", f.report.toJson), ("commands", Json.ofList Command.toJson f.commands)]

end LaneChart
