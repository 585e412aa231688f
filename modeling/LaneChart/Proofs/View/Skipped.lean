import LaneChart.Proofs.View.Finite

/-!
# Skipped renders

A render is skipped in one case only: a request was put to the provider, and the answer fails it,
because the provider gave up or because its solution breaks the contract
(`status_render_eq_skipped_iff`). By then the outcome has been worked out as far as it goes, but
nothing of it has reached the view:

> `skipped_render_invisible`: a skipped render says nothing and leaves the view as it was,
> so whatever follows goes as if there had been no such render, and trying again asks the
> same question.

What a render asks, and of whom, is told by `render_congr`: it looks at the provider in one place
only, at its answer to `View.request?`.
-/

namespace LaneChart.View

variable {v : View} {map : SectorMap} {focus : SectorId} {answer : Layout.Request → Layout.Answer}

/-! ## What a render asks -/

/-- A render depends on the provider through its answer to the request, if there is one. -/
theorem render_congr {answer' : Layout.Request → Layout.Answer}
    (h : ∀ r, v.request? map focus = some r → answer r = answer' r) :
    v.render map focus answer = v.render map focus answer' := by
  have hplace : Layout.Pass.place v.cache (v.hood map focus) answer =
      Layout.Pass.place v.cache (v.hood map focus) answer' := Layout.Pass.place_congr h
  have hpass : v.pass map focus answer = v.pass map focus answer' := by
    unfold pass Layout.Pass.run
    rw [hplace]
  unfold render
  unfold pass at hpass
  simp only [hpass]

theorem outcome_render : (v.render map focus answer).1.outcome = (v.pass map focus answer).1 := by
  rcases v.render_cases map focus answer with ⟨-, heq⟩ | ⟨-, heq⟩
  · rw [heq]
  · rw [heq]

/-! ## When a render is skipped, and what is left of it -/

/-- **When a render is skipped**: it put a request to the provider, and the answer fails it. -/
theorem status_render_eq_skipped_iff {failure : Layout.Failure} :
    (v.render map focus answer).1.outcome.status = .skipped failure ↔
      ∃ r, v.request? map focus = some r ∧ (answer r).Fails r failure := by
  rw [outcome_render]
  exact Layout.Pass.status_run_eq_skipped_iff

theorem isComplete_render_of_request {r : Layout.Request} (hr : v.request? map focus = some r) :
    (v.render map focus answer).1.outcome.isComplete = true ↔
      ∃ s, answer r = .ok s ∧ s.verify r = .ok () := by
  rw [outcome_render]
  exact Layout.Pass.isComplete_run_of_request hr

/-- A skipped render says nothing and changes nothing. -/
theorem render_of_skipped {failure : Layout.Failure}
    (h : (v.render map focus answer).1.outcome.status = .skipped failure) :
    (v.render map focus answer).1.commands = [] ∧ (v.render map focus answer).2 = v := by
  have hskipped : (v.pass map focus answer).1.isComplete = false := by
    rw [outcome_render] at h
    unfold Layout.Outcome.isComplete
    rw [h]
  rcases v.render_cases map focus answer with ⟨hcomplete, -⟩ | ⟨-, heq⟩
  · exact absurd (hskipped.symm.trans hcomplete) Bool.false_ne_true
  · rw [heq]
    exact ⟨rfl, rfl⟩

/-- What the surface is told in a run, event by event. -/
def toldRun (v : View) : List Event → List (List Command)
  | [] => []
  | event :: rest => v.told event :: toldRun (v.after event) rest

/-- **A skipped render is invisible.** It is skipped because the answer to its request
failed. It sends no commands, and every part of the view is what it was before; so is what a
search or a tap comes to, and everything that the surface is told later. Trying again puts
the same request to the provider, goes through exactly if the new answer keeps the contract,
and reports the same sectors and styles. -/
theorem skipped_render_invisible (settings : Settings) (events : List Event) (map : SectorMap)
    (focus : SectorId) (answer : Layout.Request → Layout.Answer) (failure : Layout.Failure)
    (h : (((start settings).run events).render map focus answer).1.outcome.status =
      .skipped failure) :
    let v := (start settings).run events
    let frame := (v.render map focus answer).1
    let v' := (v.render map focus answer).2
    frame.commands = [] ∧
    v'.displayed = v.displayed ∧ v'.displayedIds = v.displayedIds ∧
    v'.rendered = v.rendered ∧ v'.cache = v.cache ∧
    v'.refine = v.refine ∧ (∀ l id, v'.tap l id = v.tap l id) ∧
    (∀ rest, v'.toldRun rest = v.toldRun rest) ∧
    ∃ r, v.request? map focus = some r ∧ (answer r).Fails r failure ∧
      v'.request? map focus = some r ∧
      ∀ retry, let again := (v'.render map focus retry).1.outcome
        (again.isComplete = true ↔ ∃ s, retry r = .ok s ∧ s.verify r = .ok ()) ∧
        again.added = frame.outcome.added ∧ again.removed = frame.outcome.removed ∧
        again.placed = frame.outcome.placed ∧ again.styles = frame.outcome.styles := by
  intro v frame v'
  obtain ⟨hcommands, hview⟩ := render_of_skipped h
  have hsame : v' = v := hview
  obtain ⟨r, hr, hfails⟩ := status_render_eq_skipped_iff.1 h
  rw [hsame]
  refine ⟨hcommands, rfl, rfl, rfl, rfl, rfl, fun _ _ => rfl, fun _ => rfl, r, hr, hfails, hr, ?_⟩
  intro retry
  -- what a pass reports of sectors and styles is worked out before the provider is asked
  have houtcome : frame.outcome = (v.pass map focus answer).1 := outcome_render
  have hagain : (v.render map focus retry).1.outcome = (v.pass map focus retry).1 := outcome_render
  refine ⟨isComplete_render_of_request hr, ?_⟩
  rw [houtcome, hagain]
  exact ⟨rfl, rfl, rfl, rfl⟩

/-! ## A stale answer -/

/-- Positions with the first and the last lane of the path crossing at the origin. -/
def crossed : Placement :=
  IdMap.ofList [(1, ⟨-1, 0⟩), (2, ⟨1, 0⟩), (3, ⟨0, -1⟩), (4, ⟨0, 1⟩)]

/-- The path is displayed at these positions, and a search takes sector 1 out of the way. -/
def uncrossing : List Event := [.render path 1 fun _ => .ok ⟨crossed, 0⟩, .refine]

/-- An answer that places the new sector and has 1 where it was before the search. -/
def stale : Layout.Solution := ⟨crossed.insert 5 ⟨2, 2⟩, 0⟩

/-- The stale answer is refused, and sector 1 stays where the search put it. -/
theorem stale_answer_refused :
    (((start {}).run uncrossing).render longerPath 1 fun _ => .ok stale).1.outcome.status =
      .skipped (.pinnedMoved 1) ∧
    (((start {}).run uncrossing).render longerPath 1 fun _ => .ok stale).1.commands = [] ∧
    ((start {}).run uncrossing).cache.get? 1 = some ⟨1, 0⟩ ∧
    (((start {}).run uncrossing).render longerPath 1 fun _ => .ok stale).2.cache.get? 1 =
      some ⟨1, 0⟩ := by
  have h : (((start {}).run uncrossing).render longerPath 1 fun _ => .ok stale).1.outcome.status =
      .skipped (.pinnedMoved 1) := by decide +kernel
  have hmoved : ((start {}).run uncrossing).cache.get? 1 = some ⟨1, 0⟩ := by decide +kernel
  obtain ⟨hcommands, -, -, -, hcache, -⟩ := skipped_render_invisible {} uncrossing longerPath 1
    (fun _ => .ok stale) (.pinnedMoved 1) h
  refine ⟨h, hcommands, hmoved, ?_⟩
  rw [hcache]
  exact hmoved

end LaneChart.View
