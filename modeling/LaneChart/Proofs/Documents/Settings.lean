import LaneChart.Documents.Settings
import LaneChart.Proofs.Json.Field

/-!
# What a document gives for the settings

Sections nest in a document of the settings, and each may be left out, whole or in part. `given`
says field by field what is then left: the value that stands in the document, or else the default.
It reads no section as a whole, so it has a value for every document; for a document that can be
read it is what the reader returns:

> `Settings.eq_given`: settings that were read are what the document gives.
-/

namespace LaneChart

open Json (fieldAs?)

namespace Limits

/-- Limits, as far as a document gives them. -/
def given (j : Option Json) : Limits :=
  let names := ["max_nodes", "max_hops"]
  let d : Limits := {}
  { maxSectors := (fieldAs? names "max_nodes" (Json.natBelow? UInt64.size) j).getD d.maxSectors
    maxHops := (fieldAs? names "max_hops" Json.word32? j).getD d.maxHops }

theorem eq_given {j : Json} {l : Limits} (h : ofJson? j = some l) : l = given (some j) := by
  obtain ⟨r, hr, h⟩ := Option.bind_eq_some_iff.1 h
  iterate 2 replace h := Json.fieldAs?_of_orElse hr (by decide) rfl h
  exact (Option.some.inj h).symm

end Limits

namespace Crossing.Budget

/-- Budgets, as far as a document gives them. -/
def given (j : Option Json) : Budget :=
  let names := ["max_passes", "max_flips"]
  let d : Budget := {}
  { maxPasses := (fieldAs? names "max_passes" Json.word32? j).getD d.maxPasses
    maxFlips := (fieldAs? names "max_flips" Json.word32? j).getD d.maxFlips }

theorem eq_given {j : Json} {b : Budget} (h : ofJson? j = some b) : b = given (some j) := by
  obtain ⟨r, hr, h⟩ := Option.bind_eq_some_iff.1 h
  iterate 2 replace h := Json.fieldAs?_of_orElse hr (by decide) rfl h
  exact (Option.some.inj h).symm

end Crossing.Budget

namespace Layout.Force.Settings

/-- Constants of the layout, as far as a document gives them. -/
def given (j : Option Json) : Settings :=
  let d : Settings := {}
  { iterations := (fieldAs? fields "iterations" Json.word32? j).getD d.iterations
    dt := (fieldAs? fields "dt" Json.single? j).getD d.dt
    damping := (fieldAs? fields "damping" Json.single? j).getD d.damping
    repulsion := (fieldAs? fields "repulsion" Json.single? j).getD d.repulsion
    attraction := (fieldAs? fields "attraction" Json.single? j).getD d.attraction
    idealLength := (fieldAs? fields "ideal_length" Json.single? j).getD d.idealLength
    gravity := (fieldAs? fields "gravity" Json.single? j).getD d.gravity
    theta := (fieldAs? fields "theta" Json.single? j).getD d.theta
    approximate := (fieldAs? fields "use_barnes_hut" Json.bool? j).getD d.approximate
    maxTreeDepth :=
      (fieldAs? fields "max_tree_depth" (Json.natBelow? UInt64.size) j).getD d.maxTreeDepth
    seedRadius := (fieldAs? fields "seed_radius" Json.single? j).getD d.seedRadius
    restThreshold :=
      (fieldAs? fields "convergence_threshold" Json.single? j).getD d.restThreshold }

theorem nodup_fields : fields.Nodup := by decide

theorem eq_given {j : Json} {s : Settings} (h : ofJson? j = some s) : s = given (some j) := by
  obtain ⟨r, hr, h⟩ := Option.bind_eq_some_iff.1 h
  -- one field after the other is replaced by what the document gives for it
  iterate 12 replace h := Json.fieldAs?_of_orElse hr nodup_fields rfl h
  exact (Option.some.inj h).symm

end Layout.Force.Settings

namespace Settings

/-- Settings, as far as a document gives them. -/
def given (j : Option Json) : Settings :=
  let part (name : String) := j.bind (Json.field? ["limits", "minimizer", "layout"] name)
  { limits := Limits.given (part "limits")
    minimizer := Crossing.Budget.given (part "minimizer")
    layout := Layout.Force.Settings.given (part "layout") }

/-- **Settings that were read** are what the document gives. -/
theorem eq_given {j : Json} {s : Settings} (h : ofJson? j = some s) : s = given (some j) := by
  simp only [ofJson?, Option.bind_eq_bind, Option.bind_eq_some_iff] at h
  obtain ⟨r, hr, limits, h0, minimizer, h1, layout, h2, heq⟩ := h
  obtain rfl := Option.some.inj heq
  rw [Json.eq_of_orElse hr (by decide) rfl rfl (fun _ _ => Limits.eq_given) h0,
    Json.eq_of_orElse hr (by decide) rfl rfl (fun _ _ => Crossing.Budget.eq_given) h1,
    Json.eq_of_orElse hr (by decide) rfl rfl (fun _ _ => Layout.Force.Settings.eq_given) h2]
  rfl

end Settings

end LaneChart
