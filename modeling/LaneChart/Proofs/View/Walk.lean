import LaneChart.Cli.Run
import LaneChart.Proofs.View.Session

/-!
# Failed steps of a walk

A walk takes one session along a route. A step can fail, when a displayed sector leaves the finite
plane, and the walk goes on from there. What it goes on with is as good as what it had before the
step: the view is the same, and though the solver remembers how the failed pass ended, it never
reads that again.

> `failed_steps_leave_no_trace`: a walk along the route without the foci of its failed steps takes
> exactly the other steps, one for one, and prints them alike.

Equality of sessions is too much to ask for, because of what the solver remembers. `Alike` is what a
failed step keeps, and sessions that are alike take the same walk (`Alike.walk`).
-/

namespace LaneChart

/-! ## The answers of a solver -/

namespace Layout.Force.Solver

/-- The answers of a solver to some requests, one after the other. -/
def answers (solver : Solver) : List Request → List Answer
  | [] => []
  | r :: rest => (solver.solve r).1 :: (solver.solve r).2.answers rest

/-- Every answer is the one to its request alone. -/
theorem answers_eq (solver : Solver) (requests : List Request) :
    solver.answers requests = requests.map (respond solver.settings) := by
  induction requests generalizing solver with
  | nil => rfl
  | cons r rest ih =>
    obtain ⟨next, hsolve, hsettings⟩ := solve_eq solver r
    unfold answers
    rw [hsolve, ih, hsettings]
    rfl

end Layout.Force.Solver

namespace Session

variable {s t : Session}

/-! ## Sessions that are alike -/

/-- Two sessions with the same view, whose solvers have the same constants. -/
structure Alike (s t : Session) : Prop where
  view : s.view = t.view
  constants : s.solver.settings = t.solver.settings

namespace Alike

theorem render (h : s.Alike t) (map : SectorMap) (focus : SectorId) :
    (s.render map focus).1 = (t.render map focus).1 ∧
      (s.render map focus).2.Alike (t.render map focus).2 := by
  obtain ⟨x, hx, hs⟩ := s.render_eq map focus
  obtain ⟨y, hy, ht⟩ := t.render_eq map focus
  rw [hs, ht, h.view, h.constants]
  exact ⟨rfl, rfl, hx.trans (h.constants.trans hy.symm)⟩

theorem refine (h : s.Alike t) :
    s.refine.1 = t.refine.1 ∧ s.refine.2.Alike t.refine.2 := by
  have hview : s.view.refine = t.view.refine := congrArg View.refine h.view
  have hframe : s.view.refine.1 = t.view.refine.1 := congrArg Prod.fst hview
  have hafter : s.view.refine.2 = t.view.refine.2 := congrArg Prod.snd hview
  exact ⟨hframe, hafter, h.constants⟩

theorem walkStep (h : s.Alike t) (map : SectorMap) (refine : Bool) (focus : SectorId) :
    (s.walkStep map refine focus).1 = (t.walkStep map refine focus).1 ∧
      (s.walkStep map refine focus).2.Alike (t.walkStep map refine focus).2 := by
  obtain ⟨hframe, hafter⟩ := h.render map focus
  obtain ⟨hrefined, hrefine⟩ := hafter.refine
  unfold Session.walkStep
  simp only [hframe, hrefined]
  split
  · exact ⟨rfl, hrefine⟩
  · exact ⟨rfl, hafter⟩

/-- **Sessions that are alike take the same walk.** -/
theorem walk (h : s.Alike t) (map : SectorMap) (refine : Bool) (route : List SectorId) :
    s.walk map refine route = t.walk map refine route := by
  induction route generalizing s t with
  | nil => rfl
  | cons focus route ih =>
    obtain ⟨hstep, hafter⟩ := h.walkStep map refine focus
    unfold Session.walk
    simp only [hstep, ih hafter]

end Alike

/-! ## Steps -/

/-- **What a step can be**: a render, followed by a search if the render was not skipped. -/
theorem walkStep_cases (s : Session) (map : SectorMap) (refine : Bool) (focus : SectorId) :
    (∃ more, s.walkStep map refine focus =
      (⟨focus, none, (s.render map focus).1.commands ++ more⟩,
        (s.render map focus).2.refine.2)) ∨
    s.walkStep map refine focus =
      (⟨focus, (s.render map focus).1.outcome.failure?, (s.render map focus).1.commands⟩,
        (s.render map focus).2) := by
  unfold walkStep
  simp only
  split
  · next hrefine =>
    rw [Bool.and_eq_true, Option.isNone_iff_eq_none] at hrefine
    rw [hrefine.2]
    exact .inl ⟨_, rfl⟩
  · exact .inr rfl

theorem focus_walkStep (s : Session) (map : SectorMap) (refine : Bool) (focus : SectorId) :
    (s.walkStep map refine focus).1.focus = focus := by
  rcases s.walkStep_cases map refine focus with ⟨more, heq⟩ | heq
  · rw [heq]
  · rw [heq]

/-- A skipped render of a session has no commands, and only the solver remembers it. -/
theorem render_of_failed {map : SectorMap} {focus : SectorId}
    (h : (s.render map focus).1.outcome.failure?.isNone = false) :
    (s.render map focus).1.commands = [] ∧ (s.render map focus).2.Alike s := by
  obtain ⟨solver, hsettings, hrender⟩ := s.render_eq map focus
  rw [hrender] at h ⊢
  unfold Layout.Outcome.failure? at h
  split at h
  · exact absurd h.symm Bool.false_ne_true
  · next hstatus =>
    obtain ⟨hcommands, hview⟩ := View.render_of_skipped hstatus
    exact ⟨hcommands, hview, hsettings⟩

/-- **A failed step** has no commands, and leaves a session like the one before. -/
theorem walkStep_of_failed {map : SectorMap} {refine : Bool} {focus : SectorId}
    (h : (s.walkStep map refine focus).1.isComplete = false) :
    (s.walkStep map refine focus).1.commands = [] ∧ (s.walkStep map refine focus).2.Alike s := by
  rcases s.walkStep_cases map refine focus with ⟨more, heq⟩ | heq
  · rw [heq] at h
    exact absurd h.symm Bool.false_ne_true
  · rw [heq] at h ⊢
    exact render_of_failed h

/-! ## Walks -/

/-- The session after a walk. -/
def walked (s : Session) (map : SectorMap) (refine : Bool) (route : List SectorId) : Session :=
  route.foldl (fun s focus => (s.walkStep map refine focus).2) s

theorem foci_walk (s : Session) (map : SectorMap) (refine : Bool) (route : List SectorId) :
    (s.walk map refine route).map (·.focus) = route := by
  induction route generalizing s with
  | nil => rfl
  | cons focus route ih =>
    show (s.walkStep map refine focus).1.focus ::
      (((s.walkStep map refine focus).2.walk map refine route).map (·.focus)) = focus :: route
    rw [focus_walkStep, ih]

/-- **Failed steps can be left out.** -/
theorem walk_filter_isComplete (s : Session) (map : SectorMap) (refine : Bool)
    (route : List SectorId) :
    s.walk map refine (((s.walk map refine route).filter (·.isComplete)).map (·.focus)) =
      (s.walk map refine route).filter (·.isComplete) := by
  induction route generalizing s with
  | nil => rfl
  | cons focus route ih =>
    let step := (s.walkStep map refine focus).1
    let next := (s.walkStep map refine focus).2
    have hwalk : s.walk map refine (focus :: route) = step :: next.walk map refine route := rfl
    rw [hwalk, List.filter_cons]
    cases hcomplete : step.isComplete with
    | true =>
      have hfocus : step.focus = focus := s.focus_walkStep map refine focus
      rw [if_pos rfl, List.map_cons, hfocus]
      show step :: next.walk map refine _ = _
      rw [ih next]
    | false =>
      -- the rest of the walk may as well start where the failed step did
      have halike : next.Alike s := (walkStep_of_failed hcomplete).2
      rw [if_neg Bool.false_ne_true, ← halike.walk map refine, ih next]

theorem showWalk_eq {settings : Settings} (h : new settings = .ok s) (map : SectorMap)
    (route : List SectorId) (refine : Bool) :
    Cli.showWalk settings map route refine .document =
      .ok (.document (Cli.walkDocument (s.walk map refine route))) := by
  unfold Cli.showWalk Cli.openSession
  rw [h]
  rfl

/-- **Failed steps leave no trace.** A walk has a step for each focus of its route. Without the foci
of the failed ones, the same session takes exactly the other steps; and so for the program, which
prints for the shorter route the documents that it prints of these steps for the longer one. The
reason is that a failed step, wherever it stands, says nothing, keeps the view, and keeps all
answers that the solver may give from then on. -/
theorem failed_steps_leave_no_trace (s : Session) (map : SectorMap) (refine : Bool)
    (route : List SectorId) :
    let steps := s.walk map refine route
    let kept := steps.filter (·.isComplete)
    steps.map (·.focus) = route ∧
    s.walk map refine (kept.map (·.focus)) = kept ∧
    (∀ settings, new settings = .ok s →
      Cli.showWalk settings map route refine .document =
        .ok (.document (Cli.walkDocument steps)) ∧
      Cli.showWalk settings map (kept.map (·.focus)) refine .document =
        .ok (.document (Cli.walkDocument kept))) ∧
    ∀ before focus,
      let t := s.walked map refine before
      let step := (t.walkStep map refine focus).1
      let t' := (t.walkStep map refine focus).2
      step.isComplete = false →
        step.commands = [] ∧ t'.view = t.view ∧
          ∀ requests, t'.solver.answers requests = t.solver.answers requests := by
  intro steps kept
  have hkept : s.walk map refine (kept.map (·.focus)) = kept :=
    s.walk_filter_isComplete map refine route
  refine ⟨s.foci_walk map refine route, hkept, ?_, ?_⟩
  · intro settings hnew
    have hshorter := showWalk_eq hnew map (kept.map (·.focus)) refine
    rw [hkept] at hshorter
    exact ⟨showWalk_eq hnew map route refine, hshorter⟩
  · intro before focus t step t' hfailed
    obtain ⟨hcommands, halike⟩ := walkStep_of_failed hfailed
    refine ⟨hcommands, halike.view, ?_⟩
    intro requests
    rw [Layout.Force.Solver.answers_eq, Layout.Force.Solver.answers_eq, halike.constants]

/-! ## Two islands -/

/-- Two islands, of two and of three sectors. -/
def islands : SectorMap := IdMap.ofList
  [(1, { adjacent := [2] }), (2, { adjacent := [1] }),
   (4, { adjacent := [5] }), (5, { adjacent := [4, 6] }), (6, { adjacent := [5] })]

/-- A session that has placed the ends of the second island so far out that the sum of their
coordinates is out of range. -/
def farOut : Session where
  view :=
    { settings := { layout := { iterations := 2 } }
      cache := IdMap.ofList [(1, ⟨0, 0⟩), (4, ⟨3e38, 0⟩), (6, ⟨3e38, 0⟩)] }
  solver := { settings := { iterations := 2 } }

/-- There is no place for sector 5 between the ends, so the step to the second island fails; the
walk is that of a route which stays on the first one. -/
theorem second_island_left_out :
    ((farOut.walk islands true [1, 4, 2]).map fun step => (step.focus, step.isComplete)) =
      [(1, true), (4, false), (2, true)] ∧
    farOut.walk islands true [1, 2] =
      (farOut.walk islands true [1, 4, 2]).filter (·.isComplete) ∧
    ((farOut.walked islands true [1]).walkStep islands true 4).2.view =
      (farOut.walked islands true [1]).view ∧
    new {} = .ok opened ∧
    Cli.showWalk {} islands [1, 4, 2] true .document =
      .ok (.document (Cli.walkDocument (opened.walk islands true [1, 4, 2]))) := by
  have hfoci : ((farOut.walk islands true [1, 4, 2]).filter (·.isComplete)).map (·.focus) =
      [1, 2] := by decide +kernel
  have hnew : new {} = .ok opened := rfl
  obtain ⟨-, hkept, -, hfailed⟩ := failed_steps_leave_no_trace farOut islands true [1, 4, 2]
  obtain ⟨-, -, hprinted, -⟩ := failed_steps_leave_no_trace opened islands true [1, 4, 2]
  rw [hfoci] at hkept
  exact ⟨by decide +kernel, hkept, (hfailed [1] 4 (by decide +kernel)).2.1, hnew,
    (hprinted {} hnew).1⟩

end Session

end LaneChart
