import LaneChart.Proofs.Crossing.Report
import LaneChart.Proofs.View.Skipped

/-!
# What a refinement commits

A search for fewer crossings works on a copy of the positions, and what comes of it goes three ways:
a report for whoever asked, moves for the surface, and final positions for the two tables of the
view. A sector may be flipped more than once on the way, but only where it ends up counts:

> `refine_commits`: the report counts the crossings of the display as it was and as it is, the
> commands are one move for each flipped sector, to where both tables have it, and nothing else in
> the view is touched. The next search starts from the count where this one stopped.

Between two searches there may be taps and skipped renders. They are quiet: they leave the view as
it is (`run_of_quiet`), and so the crossings too.
-/

namespace LaneChart.View

variable {v : View}

/-! ## Quiet events -/

/-- An event that shows nothing else: a tap, or a render that is skipped. -/
def Quiet (v : View) : Event → Prop
  | .render map focus answer => (v.render map focus answer).1.outcome.isComplete = false
  | .refine => False
  | .tap _ => True
  | .reset => False

instance (v : View) : ∀ event, Decidable (v.Quiet event)
  | .render _ _ _ => inferInstanceAs (Decidable (_ = false))
  | .refine => inferInstanceAs (Decidable False)
  | .tap _ => inferInstanceAs (Decidable True)
  | .reset => inferInstanceAs (Decidable False)

theorem after_of_quiet {event : Event} (h : v.Quiet event) : v.after event = v := by
  cases event with
  | render map focus answer =>
    have hskipped : (v.pass map focus answer).1.isComplete = false := outcome_render ▸ h
    rcases v.render_cases map focus answer with ⟨hcomplete, -⟩ | ⟨-, heq⟩
    · exact absurd (hskipped.symm.trans hcomplete) Bool.false_ne_true
    · show (v.render map focus answer).2 = v
      rw [heq]
  | refine => exact absurd h not_false
  | tap id => rfl
  | reset => exact absurd h not_false

theorem run_of_quiet {events : List Event} (h : v.Throughout Quiet events) : v.run events = v := by
  induction events with
  | nil => rfl
  | cons event rest ih =>
    obtain ⟨hevent, hrest⟩ := h
    have hsame : v.after event = v := after_of_quiet hevent
    show (v.after event).run rest = v
    rw [hsame] at hrest ⊢
    exact ih hrest

/-! ## What a search moves -/

/-- A search moves the sectors that it flipped. -/
theorem mem_keys_moved (v : View) (n : Neighborhood) (id : SectorId) :
    id ∈ (v.search n).moved.keys ↔ id ∈ (v.search n).flips.map (·.sector) := by
  rw [IdMap.mem_keys_iff, Crossing.get?_moved]
  by_cases hid : id ∈ (v.search n).flips.map (·.sector)
  · rw [if_pos hid]
    refine iff_of_true ?_ hid
    -- a flipped sector has a position at the start, and keeps one
    obtain ⟨f, hf, rfl⟩ := List.mem_map.1 hid
    have hreplays := (Crossing.refine_sound v.rendered n.lanes v.settings.minimizer).2
    have hplaced : v.rendered.contains f.sector = true :=
      Crossing.contains_of_mem_flips hreplays hf
    rw [← Crossing.contains_positions_refine v.rendered n.lanes v.settings.minimizer] at hplaced
    exact hplaced
  · rw [if_neg hid]
    exact iff_of_false (by simp) hid

theorem get?_extend_moved {n : Neighborhood} {id : SectorId} {p : Position}
    (h : (v.search n).moved.get? id = some p) (table : Placement) :
    (table.extend (v.search n).moved).get? id = some p := by
  rw [IdMap.get?_extend, h, Option.some_or]

/-- Writing the moves of a search over a table changes the flipped sectors only. -/
theorem get?_extend_moved_of_not_flipped {n : Neighborhood} {id : SectorId}
    (h : id ∉ (v.search n).flips.map (·.sector)) (table : Placement) :
    (table.extend (v.search n).moved).get? id = table.get? id := by
  have hnone : (v.search n).moved.get? id = none := by
    rw [Crossing.get?_moved, if_neg h]
  rw [IdMap.get?_extend, hnone, Option.none_or]

/-- The count that a search carries along is that of the table which its moves are written to. -/
theorem after_report_search (v : View) (n : Neighborhood) :
    (v.search n).report.after =
      Crossing.count (v.rendered.extend (v.search n).moved) n.lanes := by
  have hpositions : v.rendered.extend (v.search n).moved = (v.search n).positions :=
    Crossing.extend_moved v.rendered n.lanes v.settings.minimizer
  rw [hpositions]
  exact Crossing.after_report v.rendered n.lanes v.settings.minimizer

theorem after_le_before_search (v : View) (n : Neighborhood) :
    (v.search n).report.after ≤ (v.search n).report.before := by
  obtain ⟨-, -, hpaid⟩ := Crossing.flips_report v.rendered n.lanes v.settings.minimizer
  exact Nat.le_trans (Nat.le_add_left _ _) hpaid

/-! ## The frame of a search -/

/-- With something on the display a search comes to a frame. -/
theorem refine_of_displayed {n : Neighborhood} (hdisplayed : v.displayed = some n)
    (hempty : n.isEmpty = false) :
    v.refine =
      (some
        { report := (v.search n).report
          commands := (v.search n).moved.entries.map fun e => .reposition e.1 ⟨e.2, false⟩ },
        { v with
          rendered := v.rendered.extend (v.search n).moved
          cache := v.cache.extend (v.search n).moved }) := by
  unfold refine
  simp only [hdisplayed, hempty, Bool.false_eq_true, if_false]
  rfl

theorem displayed_of_refine {frame : RefineFrame} (h : v.refine.1 = some frame) :
    ∃ n, v.displayed = some n ∧ n.isEmpty = false := by
  cases hdisplayed : v.displayed with
  | none => simp [refine, hdisplayed] at h
  | some n =>
    refine ⟨n, rfl, ?_⟩
    cases hempty : n.isEmpty with
    | false => rfl
    | true => simp [refine, hdisplayed, hempty] at h

/-- **The next search** starts with the crossings that are on the display now. -/
theorem before_of_refine {n : Neighborhood} (hdisplayed : v.displayed = some n)
    (hempty : n.isEmpty = false) {events : List Event} (h : v.Throughout Quiet events) :
    ∃ frame, (v.run events).refine.1 = some frame ∧
      frame.report.before = Crossing.count v.rendered n.lanes := by
  rw [run_of_quiet h, refine_of_displayed hdisplayed hempty]
  exact ⟨_, rfl, rfl⟩

/-- **What a refinement commits.** In every state of a run: the frame reports the crossings of the
display before and after, never more after than before. Its commands are one move for each sector
that was flipped, in ascending order of id, and each goes to where the table of the surface and the
cache have the sector from then on. Neither table changes elsewhere, and the display stays. Whatever
quiet events follow, the next search reports as its start what this one reported as its end. -/
theorem refine_commits (settings : Settings) (events : List Event) (frame : RefineFrame)
    (h : ((start settings).run events).refine.1 = some frame) :
    let v := (start settings).run events
    let v' := v.refine.2
    ∃ n, v.displayed = some n ∧
      frame.report = (v.search n).report ∧
      frame.report.before = Crossing.count v.rendered n.lanes ∧
      frame.report.after = Crossing.count v'.rendered n.lanes ∧
      frame.report.after ≤ frame.report.before ∧
      (∃ moved : Placement,
        frame.commands = moved.entries.map (fun e => .reposition e.1 ⟨e.2, false⟩) ∧
        moved.keys.Pairwise (· < ·) ∧
        (∀ id, id ∈ moved.keys ↔ id ∈ (v.search n).flips.map (·.sector)) ∧
        ∀ id p, moved.get? id = some p →
          id ∈ v.displayedIds.keys ∧ v'.rendered.get? id = some p ∧ v'.cache.get? id = some p) ∧
      (∀ id, id ∉ (v.search n).flips.map (·.sector) →
        v'.rendered.get? id = v.rendered.get? id ∧ v'.cache.get? id = v.cache.get? id) ∧
      v'.displayed = v.displayed ∧ v'.displayedIds = v.displayedIds ∧
      ∀ rest, v'.Throughout Quiet rest →
        ∃ next, (v'.run rest).refine.1 = some next ∧
          next.report.before = frame.report.after := by
  intro v v'
  have hconsistent : v.Consistent := consistent_run settings events
  obtain ⟨n, hdisplayed, hempty⟩ := displayed_of_refine h
  have hrefine := refine_of_displayed hdisplayed hempty
  have hframe := congrArg Prod.fst hrefine
  have hview : v' = _ := congrArg Prod.snd hrefine
  -- the display is the same, so the next search counts what this one left
  have hdisplayed' : v'.displayed = some n := (congrArg displayed hview).trans hdisplayed
  rw [h] at hframe
  obtain rfl := Option.some.inj hframe
  clear_value v'
  subst hview
  refine ⟨n, hdisplayed, rfl, rfl, v.after_report_search n, v.after_le_before_search n,
    ⟨(v.search n).moved, rfl, (v.search n).moved.keys_ascending, v.mem_keys_moved n, ?_⟩, ?_, rfl,
    rfl, ?_⟩
  · intro id p hp
    have hdisplays : v.displayedIds.contains id = true := hconsistent.displayed_of_moved hp
    exact ⟨(IdMap.contains_iff_mem_keys _).1 hdisplays, get?_extend_moved hp v.rendered,
      get?_extend_moved hp v.cache⟩
  · intro id hid
    exact ⟨get?_extend_moved_of_not_flipped hid v.rendered,
      get?_extend_moved_of_not_flipped hid v.cache⟩
  · intro rest hquiet
    obtain ⟨next, hnext, hbefore⟩ := before_of_refine hdisplayed' hempty hquiet
    exact ⟨next, hnext, hbefore.trans (v.after_report_search n).symm⟩

/-! ## One flip -/

/-- The search on the path takes the one crossing away by moving sector 1. A tap and a render with a
stale answer later, a second search finds none. -/
theorem crossing_resolved :
    ∃ frame, ((start {}).run (uncrossing.take 1)).refine.1 = some frame ∧
      frame.report.before = 1 ∧ frame.report.after = 0 ∧
      frame.commands = [.reposition 1 ⟨⟨1, 0⟩, false⟩] ∧
      ∃ next, (((start {}).run (uncrossing.take 1)).refine.2.run
          [.tap 3, .render longerPath 1 fun _ => .ok stale]).refine.1 = some next ∧
        next.report.before = 0 := by
  obtain ⟨frame, hframe, hbefore, hafter, hcommands⟩ :
      ∃ frame, ((start {}).run (uncrossing.take 1)).refine.1 = some frame ∧
        frame.report.before = 1 ∧ frame.report.after = 0 ∧
        frame.commands = [.reposition 1 ⟨⟨1, 0⟩, false⟩] :=
    ⟨_, rfl, by decide +kernel, by decide +kernel, by decide +kernel⟩
  obtain ⟨n, -, -, -, -, -, -, -, -, -, hnext⟩ := refine_commits {} (uncrossing.take 1) frame hframe
  obtain ⟨next, hfound, hstart⟩ := hnext [.tap 3, .render longerPath 1 fun _ => .ok stale]
    ⟨trivial, by decide +kernel, trivial⟩
  exact ⟨frame, hframe, hbefore, hafter, hcommands, next, hfound, hstart.trans hafter⟩

end LaneChart.View
