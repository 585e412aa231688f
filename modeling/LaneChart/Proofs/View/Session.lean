import LaneChart.View.Session
import LaneChart.Proofs.Layout.Force
import LaneChart.Proofs.View.Skipped

/-!
# Sessions

A session is a view whose requests are answered by the force layout. Between the two nothing can go
wrong but the physics: the view makes no request that the solver refuses, and the solver gives no
solution that the view refuses, whatever coordinates searches have left in the cache. What remains
is a simulation that runs out of the finite plane:

> `status_of_session`: in every state of a session a render is complete, or it is skipped because a
> displayed sector left the finite plane.
-/

namespace LaneChart.Session

open Layout

/-! ## Runs -/

/-- What can happen to a session. -/
inductive Event where
  | render (map : SectorMap) (focus : SectorId)
  | refine
  | tap (id : SectorId)
  | reset

/-- Forget everything that is displayed or was. The solver stays. -/
def reset (s : Session) : Session := { s with view := s.view.reset }

/-- The session after an event. -/
def after (s : Session) : Event → Session
  | .render map focus => (s.render map focus).2
  | .refine => s.refine.2
  | .tap _ => s
  | .reset => s.reset

/-- The session after some events. -/
def run (s : Session) (events : List Event) : Session := events.foldl after s

variable {s : Session} {map : SectorMap} {focus : SectorId}

/-- **A render of a session** is one of its view, answered by a solver with its constants. -/
theorem render_eq (s : Session) (map : SectorMap) (focus : SectorId) :
    ∃ solver, solver.settings = s.solver.settings ∧ s.render map focus =
      ((s.view.render map focus (Force.respond s.solver.settings)).1,
        ⟨(s.view.render map focus (Force.respond s.solver.settings)).2, solver⟩) := by
  unfold render
  cases hr : s.view.request? map focus with
  | none =>
    have hview : s.view.render map focus (fun r => (s.solver.solve r).1) =
        s.view.render map focus (Force.respond s.solver.settings) :=
      View.render_congr fun r h => absurd (hr.symm.trans h) (by simp)
    refine ⟨s.solver, rfl, ?_⟩
    simp only [hview]
  | some r =>
    obtain ⟨solver, hsolve, hsettings⟩ := Force.solve_eq s.solver r
    -- the answer was worked out beforehand, but the view asks for no other one
    have hview : s.view.render map focus (fun _ => Force.respond s.solver.settings r) =
        s.view.render map focus (Force.respond s.solver.settings) := by
      refine View.render_congr ?_
      intro r' hr'
      rw [Option.some.inj (hr.symm.trans hr')]
    refine ⟨solver, hsettings, ?_⟩
    simp only [hsolve, hview]

/-- A session keeps the constants of its solver. -/
theorem settings_after (s : Session) (event : Event) :
    (s.after event).solver.settings = s.solver.settings := by
  cases event with
  | render map focus =>
    obtain ⟨solver, hsettings, heq⟩ := s.render_eq map focus
    show (s.render map focus).2.solver.settings = s.solver.settings
    rw [heq]
    exact hsettings
  | refine => rfl
  | tap id => rfl
  | reset => rfl

theorem settings_run (s : Session) (events : List Event) :
    (s.run events).solver.settings = s.solver.settings := by
  induction events generalizing s with
  | nil => rfl
  | cons event rest ih => exact (ih (s.after event)).trans (s.settings_after event)

/-- Settings can be used if the constants of the simulation can. -/
theorem validate_settings_iff {settings : Settings} :
    settings.validate = .ok () ↔ settings.layout.validate = .ok () := by
  unfold Settings.validate
  cases settings.layout.validate with
  | ok u => exact iff_of_true rfl rfl
  | error failure => simp

/-- Every new session shows nothing yet, and its solver has constants that can be used. -/
theorem new_eq_ok_iff {settings : Settings} :
    new settings = .ok s ↔ settings.layout.validate = .ok () ∧
      s = ⟨View.start settings, { settings := settings.layout }⟩ := by
  rw [← validate_settings_iff]
  unfold new
  cases hview : View.new settings with
  | ok view =>
    obtain ⟨hvalid, rfl⟩ := View.new_eq_ok_iff.1 hview
    rw [and_iff_right hvalid, Except.ok.injEq, eq_comm]
  | error failure =>
    refine iff_of_false (by simp) ?_
    rintro ⟨hvalid, -⟩
    exact absurd (hview.symm.trans (View.new_eq_ok_iff.2 ⟨hvalid, rfl⟩)) (by simp)

/-! ## Requests and answers -/

/-- What a view asks for is admitted, and every id is asked for once. -/
theorem request_admitted {v : View} {r : Request} (h : v.request? map focus = some r) :
    r.validate = .ok () ∧ r.ids = (v.hood map focus).ids ∧ r.ids.Nodup := by
  unfold View.request? at h
  rw [Pass.request?_eq] at h
  split at h
  · exact absurd h (by simp)
  · obtain rfl := Option.some.inj h
    have hids := Pass.ids_request v.cache (v.hood map focus)
    exact ⟨Pass.validate_request _ _, hids, hids ▸ v.nodup_ids_hood map focus⟩

/-- What the view asks, the solver admits, and a solution that it gives keeps the contract. -/
theorem verify_of_solve (hconstants : s.solver.settings.validate = .ok ()) {r : Request}
    (hr : s.view.request? map focus = some r) :
    r.validate = .ok () ∧
      ∀ solution, (s.solver.solve r).1 = .ok solution → solution.verify r = .ok () := by
  obtain ⟨hvalid, -, hnodup⟩ := request_admitted hr
  refine ⟨hvalid, ?_⟩
  intro solution hsolution
  obtain ⟨solver, hsolve, -⟩ := Force.solve_eq s.solver r
  rw [hsolve, Force.respond_of_valid hconstants hvalid] at hsolution
  exact Force.verify_of_answer hnodup hvalid hsolution

/-- So a render is complete, or a displayed sector has left the finite plane. -/
theorem status_render (hconstants : s.solver.settings.validate = .ok ()) (map : SectorMap)
    (focus : SectorId) :
    (∃ placed iterations,
      (s.render map focus).1.outcome.status = .complete placed iterations) ∨
    ∃ id ∈ (s.view.hood map focus).ids, (s.render map focus).1.outcome.status =
      .skipped (.notConverged s!"node {id} left the finite plane") := by
  obtain ⟨solver, -, hrender⟩ := s.render_eq map focus
  have hstatus : (s.render map focus).1.outcome.status =
      (s.view.render map focus (Force.respond s.solver.settings)).1.outcome.status := by
    rw [hrender]
  cases hcase : (s.render map focus).1.outcome.status with
  | complete placed iterations => exact .inl ⟨placed, iterations, rfl⟩
  | skipped failure =>
    obtain ⟨r, hr, hfails⟩ := View.status_render_eq_skipped_iff.1 (hstatus.symm.trans hcase)
    obtain ⟨hvalid, hids, hnodup⟩ := request_admitted hr
    obtain ⟨id, hid, rfl⟩ := Force.fails_respond hconstants hvalid hnodup hfails
    exact .inr ⟨id, hids ▸ hid, rfl⟩

/-- **What can go wrong in a session.** In every state of a session with usable constants, a request
of the view is admitted by the solver, and a solution of the solver keeps the contract. So a render
is complete, or a displayed sector has left the finite plane. -/
theorem status_of_session (settings : Settings) (s : Session) (h : new settings = .ok s)
    (events : List Event) (map : SectorMap) (focus : SectorId) :
    let t := s.run events
    let status := (t.render map focus).1.outcome.status
    (∀ r, t.view.request? map focus = some r → r.validate = .ok () ∧
      ∀ solution, (t.solver.solve r).1 = .ok solution → solution.verify r = .ok ()) ∧
    ((∃ placed iterations, status = .complete placed iterations) ∨
      ∃ id ∈ (t.view.hood map focus).ids,
        status = .skipped (.notConverged s!"node {id} left the finite plane")) := by
  intro t status
  have hconstants : t.solver.settings.validate = .ok () := by
    obtain ⟨hvalid, rfl⟩ := new_eq_ok_iff.1 h
    rw [settings_run]
    exact hvalid
  exact ⟨fun r hr => verify_of_solve hconstants hr, status_render hconstants map focus⟩

/-! ## A walk -/

/-- A session that was just opened, with the constants that it has if none are given. -/
def opened : Session := ⟨View.start {}, { settings := {} }⟩

/-- A walk along the path in both directions. A sector is discovered on the way. -/
def walkedBack : List Event :=
  [.render View.path 1, .refine, .render View.path 4, .tap 3, .render View.longerPath 3, .refine]

/-- The first render of the walk has sectors to place, so the solver is asked. Back at the start, if
a render is skipped then for one reason only. -/
theorem walkedBack_status :
    new {} = .ok opened ∧ (opened.view.request? View.path 1).isSome = true ∧
    (∀ r, (opened.run walkedBack).view.request? View.longerPath 1 = some r →
      r.validate = .ok ()) ∧
    ∀ failure, ((opened.run walkedBack).render View.longerPath 1).1.outcome.status =
      .skipped failure →
        ∃ id : SectorId, failure = .notConverged s!"node {id} left the finite plane" := by
  have hnew : new {} = .ok opened := rfl
  obtain ⟨hadmitted, hstatus⟩ := status_of_session {} opened hnew walkedBack View.longerPath 1
  refine ⟨hnew, by decide +kernel, fun r hr => (hadmitted r hr).1, ?_⟩
  intro failure hskipped
  rcases hstatus with ⟨placed, iterations, hcomplete⟩ | ⟨id, -, hleft⟩
  · exact absurd (hskipped.symm.trans hcomplete) (by simp)
  · exact ⟨id, Layout.Status.skipped.inj (hskipped.symm.trans hleft)⟩

end LaneChart.Session
