import LaneChart.Documents.Sector
import LaneChart.Settings

/-!
# Documents of the settings

Every field of the settings may be left out and then has its default.
-/

namespace LaneChart

open Json (ofMembers)

namespace Limits

/-- Read limits. -/
def ofJson? (j : Json) : Option Limits := do
  let r ← j.record? ["max_nodes", "max_hops"]
  let d : Limits := {}
  return {
    maxSectors := ← r.orElse 0 (Json.natBelow? UInt64.size) d.maxSectors
    maxHops := ← r.orElse 1 Json.word32? d.maxHops }

/-- Write limits. -/
def toJson (l : Limits) : Json :=
  ofMembers [("max_nodes", Json.ofNat l.maxSectors), ("max_hops", Json.ofNat l.maxHops.toNat)]

end Limits

namespace Crossing.Budget

/-- Read the budgets of the search for fewer crossings. -/
def ofJson? (j : Json) : Option Budget := do
  let r ← j.record? ["max_passes", "max_flips"]
  let d : Budget := {}
  return {
    maxPasses := ← r.orElse 0 Json.word32? d.maxPasses
    maxFlips := ← r.orElse 1 Json.word32? d.maxFlips }

/-- Write the budgets of the search for fewer crossings. -/
def toJson (b : Budget) : Json :=
  ofMembers [("max_passes", Json.ofNat b.maxPasses.toNat),
    ("max_flips", Json.ofNat b.maxFlips.toNat)]

end Crossing.Budget

namespace Layout.Force.Settings

/-- The fields of the constants of the layout, in order. -/
def fields : List String :=
  ["iterations", "dt", "damping", "repulsion", "attraction", "ideal_length", "gravity", "theta",
    "use_barnes_hut", "max_tree_depth", "seed_radius", "convergence_threshold"]

/-- Read the constants of the layout. -/
def ofJson? (j : Json) : Option Settings := do
  let r ← j.record? fields
  let d : Settings := {}
  return {
    iterations := ← r.orElse 0 Json.word32? d.iterations
    dt := ← r.orElse 1 Json.single? d.dt
    damping := ← r.orElse 2 Json.single? d.damping
    repulsion := ← r.orElse 3 Json.single? d.repulsion
    attraction := ← r.orElse 4 Json.single? d.attraction
    idealLength := ← r.orElse 5 Json.single? d.idealLength
    gravity := ← r.orElse 6 Json.single? d.gravity
    theta := ← r.orElse 7 Json.single? d.theta
    approximate := ← r.orElse 8 Json.bool? d.approximate
    maxTreeDepth := ← r.orElse 9 (Json.natBelow? UInt64.size) d.maxTreeDepth
    seedRadius := ← r.orElse 10 Json.single? d.seedRadius
    restThreshold := ← r.orElse 11 Json.single? d.restThreshold }

/-- Write the constants of the layout. -/
def toJson (s : Settings) : Json :=
  ofMembers [("iterations", Json.ofNat s.iterations.toNat), ("dt", Json.ofSingle s.dt),
    ("damping", Json.ofSingle s.damping), ("repulsion", Json.ofSingle s.repulsion),
    ("attraction", Json.ofSingle s.attraction), ("ideal_length", Json.ofSingle s.idealLength),
    ("gravity", Json.ofSingle s.gravity), ("theta", Json.ofSingle s.theta),
    ("use_barnes_hut", .bool s.approximate), ("max_tree_depth", Json.ofNat s.maxTreeDepth),
    ("seed_radius", Json.ofSingle s.seedRadius),
    ("convergence_threshold", Json.ofSingle s.restThreshold)]

end Layout.Force.Settings

namespace Settings

/-- Read settings. -/
def ofJson? (j : Json) : Option Settings := do
  let r ← j.record? ["limits", "minimizer", "layout"]
  return {
    limits := ← r.orElse 0 Limits.ofJson? {}
    minimizer := ← r.orElse 1 Crossing.Budget.ofJson? {}
    layout := ← r.orElse 2 Layout.Force.Settings.ofJson? {} }

/-- Write settings. -/
def toJson (s : Settings) : Json :=
  ofMembers [("limits", s.limits.toJson), ("minimizer", s.minimizer.toJson),
    ("layout", s.layout.toJson)]

/-- Why a text is not usable as settings. -/
inductive ParseError where
  /-- It does not spell settings. -/
  | malformed
  /-- The settings that it spells cannot be used. -/
  | refused (error : ChartError)

/-- The settings that a text spells, if they can be used. -/
def parse (text : String) : Except ParseError Settings :=
  match (Json.read? text).bind ofJson? with
  | none => .error .malformed
  | some s =>
    match s.validate with
    | .ok () => .ok s
    | .error e => .error (.refused e)

end Settings

end LaneChart
