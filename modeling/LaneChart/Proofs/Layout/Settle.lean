import LaneChart.Proofs.Layout.Trajectory

/-!
# How a run ends

A run goes along its trajectory until the first step that comes to rest (`RestsAt`), or until its
steps are used up; `Ends` says both at once, with the number of steps. A solver takes over from a
run how it ended and how long it took, and from what it refuses nothing:

> `ends_simulate`: the run of a request ends so, or takes no step if there is no sector to place.
> `solver_keeps_account`: whatever a solver was asked before, it answers like a new one, and its
> phase and its count of steps are those of the run that the answer was read off.
-/

namespace LaneChart.Layout.Force

variable {s : Settings} {r : Request} {n k : Nat}

/-! ## Constants that can be used -/

namespace Settings

theorem objection?_eq_none_iff (s : Settings) :
    s.objection? = none ↔ (∀ c ∈ s.positives, isPositive c.2 = true) ∧
      isShare s.damping = true ∧ isNonNegative s.gravity = true ∧ s.iterations ≠ 0 := by
  unfold objection?
  cases hfind : s.positives.find? (fun c => !isPositive c.2) with
  | some c =>
    have hc : isPositive c.2 = false := by simpa using List.find?_some hfind
    refine iff_of_false nofun ?_
    rintro ⟨hpositives, -⟩
    exact absurd (hpositives c (List.mem_of_find?_eq_some hfind)) (by simp [hc])
  | none =>
    have hpositives : ∀ c ∈ s.positives, isPositive c.2 = true := by
      simpa using List.find?_eq_none.1 hfind
    rw [and_iff_right hpositives]
    -- the remaining checks are made one after another
    by_cases hdamping : isShare s.damping = true
    · by_cases hgravity : isNonNegative s.gravity = true
      · by_cases hiterations : s.iterations = 0 <;> simp [hdamping, hgravity, hiterations]
      · simp [hdamping, hgravity]
    · simp [hdamping]

theorem validate_eq_ok_iff (s : Settings) : s.validate = .ok () ↔ s.objection? = none := by
  unfold validate
  cases s.objection? <;> simp

end Settings

/-! ## Coming to rest -/

/-- The step from a point of the trajectory comes to rest: its greatest travel is below
the threshold. -/
def RestsAt (s : Settings) (r : Request) (k : Nat) : Prop :=
  greatestTravel (step s (springs r) (trajectory s r k)) < s.restThreshold

instance instDecidableRestsAt (s : Settings) (r : Request) (k : Nat) : Decidable (RestsAt s r k) :=
  inferInstanceAs (Decidable (_ < _))

/-- How many steps a run takes that may take so many, and how it ends. -/
inductive Ends (s : Settings) (r : Request) (limit : Nat) : Nat → Phase → Prop where
  /-- It comes to rest in the first step that does. -/
  | converged {k : Nat} (hlimit : k < limit) (hrests : RestsAt s r k)
      (hbefore : ∀ i < k, ¬ RestsAt s r i) : Ends s r limit (k + 1) .converged
  /-- No step comes to rest, and it takes them all. -/
  | exhausted (hrestless : ∀ i < limit, ¬ RestsAt s r i) : Ends s r limit limit .exhausted

theorem Ends.le {limit steps : Nat} {phase : Phase} (h : Ends s r limit steps phase) :
    steps ≤ limit := by
  cases h with
  | converged hlimit => exact hlimit
  | exhausted => exact Nat.le_refl limit

theorem Ends.pos {limit steps : Nat} {phase : Phase} (h : Ends s r limit steps phase)
    (hlimit : 0 < limit) : 0 < steps := by
  cases h with
  | converged => exact Nat.succ_pos _
  | exhausted => exact hlimit

theorem Ends.phase_ne_idle {limit steps : Nat} {phase : Phase} (h : Ends s r limit steps phase) :
    phase ≠ .idle := by
  cases h <;> nofun

/-- It is the last step that tells. -/
theorem Ends.phase_eq_converged_iff {limit steps : Nat} {phase : Phase}
    (h : Ends s r limit steps phase) : phase = .converged ↔ ∃ k, steps = k + 1 ∧ RestsAt s r k := by
  cases h with
  | @converged k _ hrests => exact iff_of_true rfl ⟨k, rfl, hrests⟩
  | exhausted hrestless =>
    refine iff_of_false nofun ?_
    rintro ⟨k, hlimit, hrests⟩
    exact hrestless k (hlimit ▸ Nat.lt_succ_self k) hrests

theorem settle_of_rests (h : RestsAt s r k) :
    settle s (springs r) (n + 1) (trajectory s r k) k =
      ⟨trajectory s r (k + 1), k + 1, .converged⟩ := by
  unfold settle
  simp only
  exact if_pos h

theorem settle_of_restless (h : ¬ RestsAt s r k) :
    settle s (springs r) (n + 1) (trajectory s r k) k =
      settle s (springs r) n (trajectory s r (k + 1)) (k + 1) := by
  conv => lhs; unfold settle
  simp only
  exact if_neg h

/-- **Where settling ends** that goes on from a point of the trajectory, no step before it
having come to rest. -/
theorem ends_settle (hbefore : ∀ i < k, ¬ RestsAt s r i) :
    Ends s r (k + n) (settle s (springs r) n (trajectory s r k) k).steps
      (settle s (springs r) n (trajectory s r k) k).phase := by
  induction n generalizing k with
  | zero => exact .exhausted hbefore
  | succ n ih =>
    by_cases hrests : RestsAt s r k
    · rw [settle_of_rests hrests]
      exact .converged (Nat.lt_add_of_pos_right (Nat.succ_pos n)) hrests hbefore
    · have hlimit : k + (n + 1) = k + 1 + n := by omega
      rw [settle_of_restless hrests, hlimit]
      apply ih
      intro i hi
      rcases Nat.lt_succ_iff_lt_or_eq.1 hi with hlt | rfl
      · exact hbefore i hlt
      · exact hrests

/-- The bodies are pinned as their sectors are. -/
theorem map_pinned_startBodies (s : Settings) (r : Request) :
    (startBodies s r).map (·.pinned) = r.ids.map r.isPinned := by
  have hpins : List.Forall₂ (fun b id => b.pinned = r.isPinned id) (startBodies s r) r.ids :=
    List.forall₂_map_right_iff.2 ((forall₂_startBodies s r).flip.imp fun _ _ h => h.pinned)
  rw [← List.forall₂_eq_eq_eq]
  exact List.forall₂_map_left_iff.2 (List.forall₂_map_right_iff.2 hpins)

/-- All bodies are pinned exactly if there is no sector to place. -/
theorem all_pinned_iff (s : Settings) (r : Request) :
    (startBodies s r).all (·.pinned) = true ↔ r.freeIds = [] := by
  have hall : (startBodies s r).all (·.pinned) = r.ids.all r.isPinned :=
    calc (startBodies s r).all (·.pinned)
      _ = ((startBodies s r).map (·.pinned)).all id := by
        rw [List.all_map]
        rfl
      _ = (r.ids.map r.isPinned).all id := by rw [map_pinned_startBodies]
      _ = r.ids.all r.isPinned := List.all_map
  unfold Request.freeIds
  rw [hall, List.all_eq_true, List.filter_eq_nil_iff]
  simp

theorem simulate_of_no_free (h : r.freeIds = []) :
    simulate s r = ⟨startBodies s r, 0, .converged⟩ := by
  unfold simulate
  exact if_pos ((all_pinned_iff s r).2 h)

/-- **Where the simulation of a request ends** that has a sector to place. -/
theorem ends_simulate (h : r.freeIds ≠ []) :
    Ends s r s.iterations.toNat (simulate s r).steps (simulate s r).phase := by
  have hsimulate : simulate s r = settle s (springs r) s.iterations.toNat (trajectory s r 0) 0 := by
    unfold simulate
    exact if_neg (mt (all_pinned_iff s r).1 h)
  have hends := ends_settle (s := s) (r := r) (n := s.iterations.toNat) (k := 0) (by simp)
  rw [Nat.zero_add] at hends
  rw [hsimulate]
  exact hends

theorem phase_simulate_ne_idle (s : Settings) (r : Request) : (simulate s r).phase ≠ .idle := by
  by_cases hfree : r.freeIds = []
  · rw [simulate_of_no_free hfree]
    nofun
  · exact (ends_simulate hfree).phase_ne_idle

/-! ## What a solver remembers -/

/-- A solver that has been asked nothing yet. -/
def Solver.fresh (s : Settings) : Solver := { settings := s }

/-- A solver after some requests, in order. -/
def Solver.after (solver : Solver) (requests : List Request) : Solver :=
  requests.foldl (fun solver r => (solver.solve r).2) solver

theorem solve_of_admitted {solver : Solver} (h : Admitted solver.settings r) :
    solver.solve r = ((simulate solver.settings r).answer r,
      { solver with
        phase := (simulate solver.settings r).phase
        steps := (simulate solver.settings r).steps }) := by
  unfold Solver.solve
  rw [admitted_iff.1 h]

theorem solve_of_refused {solver : Solver} (h : ¬ Admitted solver.settings r) :
    (solver.solve r).2 = solver := by
  unfold Solver.solve
  split
  · rfl
  · next hok => exact absurd (admitted_iff.2 hok) h

/-- A solution tells how many steps it took. -/
theorem iterations_of_answer {run : Run} {solution : Solution} (hsteps : run.steps < UInt32.size)
    (h : run.answer r = .ok solution) : solution.iterations.toNat = run.steps := by
  unfold Run.answer at h
  split at h
  · exact absurd h (by simp)
  · rw [← Except.ok.inj h]
    exact UInt32.toNat_ofNat_of_lt' hsteps

/-- With constants that can be used, a run takes a step exactly if there is a sector to place. -/
theorem steps_simulate_eq_zero_iff (hs : s.validate = .ok ()) :
    (simulate s r).steps = 0 ↔ r.freeIds = [] := by
  by_cases hfree : r.freeIds = []
  · rw [simulate_of_no_free hfree]
    exact iff_of_true rfl hfree
  · refine iff_of_false ?_ hfree
    have hiterations : s.iterations ≠ 0 :=
      ((s.objection?_eq_none_iff.1 (s.validate_eq_ok_iff.1 hs)).2.2).2
    have hlimit : 0 < s.iterations.toNat :=
      Nat.pos_of_ne_zero fun hzero => hiterations (UInt32.toNat_inj.1 hzero)
    exact Nat.ne_of_gt ((ends_simulate hfree).pos hlimit)

theorem steps_simulate_le (s : Settings) (r : Request) :
    (simulate s r).steps ≤ s.iterations.toNat := by
  by_cases hfree : r.freeIds = []
  · rw [simulate_of_no_free hfree]
    exact Nat.zero_le _
  · exact (ends_simulate hfree).le

theorem settings_after (solver : Solver) (requests : List Request) :
    (solver.after requests).settings = solver.settings := by
  induction requests generalizing solver with
  | nil => rfl
  | cons r rest ih =>
    obtain ⟨solver', hsolve, hsettings⟩ := solve_eq solver r
    show ((solver.solve r).2.after rest).settings = _
    rw [ih, hsolve]
    exact hsettings

/-- Only what is admitted counts as a pass. -/
theorem phase_solve_eq_idle_iff (solver : Solver) (r : Request) :
    (solver.solve r).2.phase = .idle ↔ solver.phase = .idle ∧ ¬ Admitted solver.settings r := by
  by_cases hadmitted : Admitted solver.settings r
  · rw [solve_of_admitted hadmitted]
    exact iff_of_false (phase_simulate_ne_idle _ r) fun h => h.2 hadmitted
  · rw [solve_of_refused hadmitted, and_iff_left hadmitted]

theorem phase_after_eq_idle_iff (solver : Solver) (requests : List Request) :
    (solver.after requests).phase = .idle ↔
      solver.phase = .idle ∧ ∀ q ∈ requests, ¬ Admitted solver.settings q := by
  induction requests generalizing solver with
  | nil => simp [Solver.after]
  | cons r rest ih =>
    obtain ⟨solver', hsolve, hsettings⟩ := solve_eq solver r
    have hphase := phase_solve_eq_idle_iff solver r
    rw [hsolve] at hphase
    show ((solver.solve r).2.after rest).phase = .idle ↔ _
    rw [hsolve, ih, hphase, hsettings, List.forall_mem_cons, and_assoc]

/-- **A solver keeps account of its last pass and of nothing else.** Whatever it was asked
before, it answers like a new solver with its constants. It is idle exactly as long as nothing it
was asked could be used, and what cannot be used leaves it as it was. Otherwise the answer is
read off the point of the trajectory that its count of steps tells. The count is within the
budget, a solution reports it, and it is zero exactly if there is no sector to place. With
sectors to place the pass has converged in the first step that comes to rest, or it is exhausted,
all its steps taken and none of them come to rest. -/
theorem solver_keeps_account (s : Settings) (requests : List Request) (r : Request) :
    let solver := (Solver.fresh s).after requests
    let next := (solver.solve r).2
    (solver.solve r).1 = ((Solver.fresh s).solve r).1 ∧
    (solver.phase = .idle ↔ ∀ q ∈ requests, ¬ Admitted s q) ∧
    (¬ Admitted s r → next = solver) ∧
    (Admitted s r →
      (solver.solve r).1 = Run.answer ⟨trajectory s r next.steps, next.steps, next.phase⟩ r ∧
      (∀ solution, (solver.solve r).1 = .ok solution → solution.iterations.toNat = next.steps) ∧
      next.steps ≤ s.iterations.toNat ∧
      (next.steps = 0 ↔ r.freeIds = []) ∧
      (r.freeIds = [] → next.phase = .converged) ∧
      (r.freeIds ≠ [] → Ends s r s.iterations.toNat next.steps next.phase)) := by
  intro solver next
  have hsettings : solver.settings = s := settings_after (Solver.fresh s) requests
  refine ⟨?_, ?_, ?_, ?_⟩
  · obtain ⟨solver', hsolve, -⟩ := solve_eq solver r
    obtain ⟨fresh', hfresh, -⟩ := solve_eq (Solver.fresh s) r
    rw [hsolve, hfresh, hsettings]
    rfl
  · exact (phase_after_eq_idle_iff (Solver.fresh s) requests).trans (and_iff_right rfl)
  · intro hrefused
    exact solve_of_refused (hsettings.symm ▸ hrefused)
  · intro hadmitted
    have hsame : Admitted solver.settings r := hsettings.symm ▸ hadmitted
    have hsolve := solve_of_admitted hsame
    rw [hsettings] at hsolve
    have hsteps : next.steps = (simulate s r).steps := congrArg (·.2.steps) hsolve
    have hphase : next.phase = (simulate s r).phase := congrArg (·.2.phase) hsolve
    have hbudget := steps_simulate_le s r
    rw [hsolve, hsteps, hphase, ← bodies_simulate]
    refine ⟨rfl, ?_, hbudget, steps_simulate_eq_zero_iff hadmitted.1, ?_, ends_simulate⟩
    · intro solution hsolution
      refine iterations_of_answer (Nat.lt_of_le_of_lt hbudget ?_) hsolution
      exact s.iterations.toNat_lt
    · intro hfree
      rw [simulate_of_no_free hfree]

/-- A request with a lane between sectors that it does not name. -/
def stray : Request where
  nodes := []
  lanes := [⟨1, 2⟩]
  pinned := IdMap.empty

/-- A solver that has been asked for what cannot be used and then for the triangle answers like a
new one when it is asked for the triangle again, and accounts for its two steps. -/
theorem triangle_account :
    ∃ solver next, solver = (Solver.fresh brief.settings).after [stray, triangle] ∧
      next = (solver.solve triangle).2 ∧
      ¬ Admitted brief.settings stray ∧ Admitted brief.settings triangle ∧ triangle.freeIds ≠ [] ∧
      (solver.solve triangle).1 = ((Solver.fresh brief.settings).solve triangle).1 ∧
      solver.phase ≠ .idle ∧ next.steps ≠ 0 ∧
      Ends brief.settings triangle 2 next.steps next.phase := by
  have hstray : ¬ Admitted brief.settings stray := by
    rw [admitted_iff]
    decide +kernel
  have htriangle : Admitted brief.settings triangle := by
    rw [admitted_iff]
    decide +kernel
  have hfree : triangle.freeIds ≠ [] := by decide
  have hlimit : brief.settings.iterations.toNat = 2 := rfl
  obtain ⟨hlike, hidle, -, haccount⟩ :=
    solver_keeps_account brief.settings [stray, triangle] triangle
  obtain ⟨-, -, -, hzero, -, hends⟩ := haccount htriangle
  rw [hlimit] at hends
  refine ⟨_, _, rfl, rfl, hstray, htriangle, hfree, hlike, ?_, mt hzero.1 hfree, hends hfree⟩
  intro h
  have hmem : triangle ∈ [stray, triangle] := List.mem_cons_of_mem _ (List.mem_cons_self ..)
  exact hidle.1 h triangle hmem htriangle

end LaneChart.Layout.Force
