import LaneChart.Proofs.Layout.Settle
import LaneChart.Proofs.Plane.Order
import LaneChart.Proofs.Plane.Range

/-!
# Passes that diverge

A pass that leaves the finite plane is answered with an error, but how it ended is settled before
that is found out. Its travels tell: a body of which the travel is a number is at a finite
position, before the step and after it (`isFinite_of_move`), since its speed has been squared
without overflow and its velocity is too small to lead out of the range of singles. So a body
that has left the finite plane has no number for its travel, and the greatest travel passes over
what is no number (`greatestTravel_lt_iff`):

> `phase_of_diverged`: a pass that diverges ends with a pinned sector that was not at a finite
> position from the start, or with a travel that is no number. It counts as converged all the same
> if the travels that are numbers are below the threshold, or if there was no sector to place.
> `flung_converged`: that happens.
-/

namespace LaneChart.Layout.Force

open Single (Within)

variable {s : Settings} {r : Request} {b : Body} {f : Position}

/-! ## The greatest travel -/

theorem foldl_travel_lt_iff {moved : List Moved} {largest c : Float32} (h : largest.isNaN = false) :
    moved.foldl (fun largest m =>
      match m.travel with
      | none => largest
      | some t => Single.greater largest t) largest < c ↔
      largest < c ∧ ∀ m ∈ moved, ∀ t, m.travel = some t → t.isNaN = true ∨ t < c := by
  induction moved generalizing largest with
  | nil => simp
  | cons m rest ih =>
    rw [List.foldl_cons, List.forall_mem_cons]
    cases htravel : m.travel with
    | none => simp [ih h]
    | some t => simp [ih (Single.isNaN_greater h), Single.greater_lt_iff h, and_assoc]

/-- **The greatest travel** is below a bound exactly if every travel is that is a number. -/
theorem greatestTravel_lt_iff {moved : List Moved} {c : Float32} :
    greatestTravel moved < c ↔
      0 < c ∧ ∀ m ∈ moved, ∀ t, m.travel = some t → t.isNaN = true ∨ t < c :=
  foldl_travel_lt_iff rfl

/-! ## One body -/

/-- The velocity of a body under a force, before its travel is capped. -/
def impulse (s : Settings) (b : Body) (f : Position) : Position :=
  ⟨(b.velocity.x + (f.x - b.position.x * s.gravity) * s.dt) * s.damping,
    (b.velocity.y + (f.y - b.position.y * s.gravity) * s.dt) * s.damping⟩

/-- The length of a velocity. -/
def speed (v : Position) : Float32 := (v.x * v.x + v.y * v.y).sqrt

/-- What a velocity is multiplied with to cap the travel. -/
def cap (s : Settings) (x : Float32) : Float32 := if s.idealLength < x then s.idealLength / x else 1

theorem move_of_free (h : b.pinned = false) :
    let v := impulse s b f
    let scale := cap s (speed v)
    let velocity : Position := ⟨v.x * scale, v.y * scale⟩
    move s b f =
      ⟨{ b with position := plus b.position velocity, velocity }, some (speed v * scale)⟩ := by
  unfold move
  rw [h]
  rfl

theorem move_of_pinned (h : b.pinned = true) : move s b f = ⟨b, none⟩ := by
  unfold move
  exact if_pos h

theorem Settings.pos_of_isPositive {x : Float32} (h : Settings.isPositive x = true) : 0 < x := by
  obtain ⟨hfinite, hpositive⟩ := Bool.and_eq_true_iff.1 h
  have hnot : ¬ x ≤ 0 := by simpa using hpositive
  rw [Single.le_iff] at hnot
  rw [Single.lt_iff]
  rcases Single.within_of_isFinite hfinite with ⟨t, hx⟩ | ⟨t, m, e, hm, hx, -⟩
  · rw [hx] at hnot
    exact absurd rfl hnot
  · rw [hx] at hnot ⊢
    cases t with
    | negative => exact absurd rfl hnot
    | positive => rfl

section Capped

variable {v : Position} (hideal : Settings.isPositive s.idealLength = true)

include hideal

/-- A speed that has overflowed leaves no number for the travel: infinitely many times nothing. -/
theorem isNaN_travel (h : (speed v).isFinite = false) :
    (speed v * cap s (speed v)).isNaN = true := by
  have hlength : s.idealLength.isFinite = true := (Bool.and_eq_true_iff.1 hideal).1
  have hcases : (speed v).isFinite = true ∨
      Single.unpacked (speed v) = .infinity .positive ∨ (speed v).isNaN = true :=
    Single.sqrt_cases _
  unfold cap
  rcases hcases with hfinite | hinfinite | hnan
  · rw [hfinite] at h
    exact absurd h.symm Bool.false_ne_true
  · rw [if_pos (Single.lt_infinity hlength hinfinite)]
    exact Single.isNaN_mul_div hinfinite hlength
  · have hnot : ¬ s.idealLength < speed v := by
      intro hlt
      rw [Single.isNaN_eq_false_of_lt hlt] at hnan
      exact Bool.false_ne_true hnan
    rw [if_neg hnot, Single.mul_one]
    exact hnan

/-- What caps the travel is at most one. -/
theorem within_cap (h : (speed v).isFinite = true) : Within (-23) (cap s (speed v)) := by
  unfold cap
  by_cases hlt : s.idealLength < speed v
  · rw [if_pos hlt]
    exact Single.within_div (Settings.pos_of_isPositive hideal) hlt h
  · rw [if_neg hlt]
    exact .inr ⟨_, _, _, _, Single.unpacked_one, Int.le_refl _⟩

end Capped

/-- A coordinate that is pulled towards the origin was finite if the velocity that comes
of it is. -/
theorem isFinite_of_pushed {p gravity u f dt damping : Float32}
    (h : ((u + (f - p * gravity) * dt) * damping).isFinite = true) : p.isFinite = true := by
  have hforce : (f - p * gravity).isFinite = true :=
    Single.isFinite_of_mul (Single.isFinite_of_add (Single.isFinite_of_mul h)).2
  have hpull : (p * gravity).isFinite = true := by
    rw [← Bool.not_eq_false] at hforce ⊢
    exact fun hpull => hforce (Single.isFinite_sub_right hpull)
  exact Single.isFinite_of_mul hpull

/-- **A body of which the travel is a number** is at a finite position before and after the step. -/
theorem isFinite_of_move (hideal : Settings.isPositive s.idealLength = true) {t : Float32}
    (ht : (move s b f).travel = some t) (hnumber : t.isNaN = false) :
    b.position.isFinite = true ∧ (move s b f).body.position.isFinite = true := by
  have hfree : b.pinned = false := by
    rw [← Bool.not_eq_true]
    intro hpinned
    rw [move_of_pinned hpinned] at ht
    exact absurd ht nofun
  rw [move_of_free hfree] at ht ⊢
  obtain rfl := Option.some.inj ht
  have hspeed : (speed (impulse s b f)).isFinite = true := by
    rw [← Bool.not_eq_false]
    intro hoverflow
    rw [isNaN_travel hideal hoverflow] at hnumber
    exact Bool.false_ne_true hnumber.symm
  obtain ⟨hx, hy⟩ := Single.isFinite_of_add (Single.isFinite_of_sqrt hspeed)
  have hcap := within_cap hideal hspeed
  have hpx : b.position.x.isFinite = true := isFinite_of_pushed (Single.isFinite_of_mul hx)
  have hpy : b.position.y.isFinite = true := isFinite_of_pushed (Single.isFinite_of_mul hy)
  refine ⟨Bool.and_eq_true_iff.2 ⟨hpx, hpy⟩, Bool.and_eq_true_iff.2 ⟨?_, ?_⟩⟩
  · have hvx := Single.within_mul (Single.within_of_square hx) hcap (by omega) (by omega)
    exact Single.isFinite_add_of_within hpx (hvx.mono (by omega))
  · have hvy := Single.within_mul (Single.within_of_square hy) hcap (by omega) (by omega)
    exact Single.isFinite_add_of_within hpy (hvy.mono (by omega))

/-! ## A whole pass -/

/-- A free body that a step takes off the finite plane has no number for its travel. -/
theorem travel_of_astray (hideal : Settings.isPositive s.idealLength = true) {bodies : List Body}
    {lanes : List (Nat × Nat)} {m : Moved} (hm : m ∈ step s lanes bodies)
    (hfree : m.body.pinned = false) (hastray : m.body.position.isFinite = false) :
    ∃ t, m.travel = some t ∧ t.isNaN = true := by
  unfold step at hm
  rw [← List.map_uncurry_zip_eq_zipWith] at hm
  obtain ⟨⟨b, f⟩, -, rfl⟩ := List.mem_map.1 hm
  have hpinned : b.pinned = false := (follows_move s b f).pinned.symm.trans hfree
  refine ⟨_, congrArg Moved.travel (move_of_free hpinned), ?_⟩
  rw [← Bool.not_eq_false]
  intro hnumber
  have hfinite := (isFinite_of_move hideal (congrArg Moved.travel (move_of_free hpinned)) hnumber).2
  rw [show (move s b f).body.position.isFinite = false from hastray] at hfinite
  exact Bool.false_ne_true hfinite

/-- A simulation that is answered with an error has a body that has left the finite plane. -/
theorem exists_astray_of_error {run : Run} {failure : Failure} (h : run.answer r = .error failure) :
    ∃ e ∈ r.nodes.zip run.bodies, e.2.position.isFinite = false := by
  unfold Run.answer at h
  split at h
  · next e he =>
    have hastray : e.2.position.isFinite = false := by simpa using List.find?_some he
    exact ⟨e, List.mem_of_find?_eq_some he, hastray⟩
  · exact absurd h nofun

/-- A pinned sector comes with a position that is not finite. -/
def PinnedAstray (r : Request) : Prop :=
  ∃ n ∈ r.nodes, r.isPinned n.id = true ∧ ∃ p, n.position = some p ∧ p.isFinite = false

/-- A step leaves a body at a position that is not finite, and has no number for its travel. -/
def FlungAt (s : Settings) (r : Request) (k : Nat) : Prop :=
  ∃ m ∈ step s (springs r) (trajectory s r k), m.body.position.isFinite = false ∧
    ∃ t, m.travel = some t ∧ t.isNaN = true

/-- Why a simulation can be answered with an error. -/
theorem astray_or_flung (hs : s.validate = .ok ()) (hr : r.validate = .ok ()) {failure : Failure}
    (h : (simulate s r).answer r = .error failure) :
    PinnedAstray r ∨ ∃ k, (simulate s r).steps = k + 1 ∧ FlungAt s r k := by
  have hideal : Settings.isPositive s.idealLength = true := by
    refine (s.objection?_eq_none_iff.1 (s.validate_eq_ok_iff.1 hs)).1
      ("ideal_length", s.idealLength) ?_
    simp [Settings.positives]
  obtain ⟨⟨n, b⟩, hzip, hastray⟩ := exists_astray_of_error h
  have hn : n ∈ r.nodes := (List.of_mem_zip hzip).1
  have hstands : StandsFor r n b := List.forall₂_zip (forall₂_bodies s r) hzip
  by_cases hpinned : r.isPinned n.id = true
  · left
    -- a valid request has a position for what it pins, and the body never left it
    obtain ⟨p, hp⟩ := Option.isSome_iff_exists.1
      (((Request.validate_eq_ok_iff r).1 hr).1 n hn hpinned)
    have hfixed : b.position = p := hstands.fixed (hstands.pinned.trans hpinned) p hp
    exact ⟨n, hn, hpinned, p, hp, hfixed ▸ hastray⟩
  · right
    rw [Bool.not_eq_true] at hpinned
    have hfree : r.freeIds ≠ [] := by
      intro hnone
      have hmem : n.id ∈ r.freeIds := by
        refine List.mem_filter.2 ⟨List.mem_map_of_mem hn, ?_⟩
        rw [hpinned]
        rfl
      rw [hnone] at hmem
      exact List.not_mem_nil hmem
    obtain ⟨k, hk⟩ := Nat.exists_eq_succ_of_ne_zero (mt (steps_simulate_eq_zero_iff hs).1 hfree)
    refine ⟨k, hk, ?_⟩
    have hb : b ∈ (step s (springs r) (trajectory s r k)).map (·.body) := by
      have hmem := (List.of_mem_zip hzip).2
      rw [bodies_simulate, hk] at hmem
      exact hmem
    obtain ⟨m, hm, rfl⟩ := List.mem_map.1 hb
    exact ⟨m, hm, hastray, travel_of_astray hideal hm (hstands.pinned.trans hpinned) hastray⟩

/-- The step from a point of the trajectory comes to rest as far as its travels are numbers. -/
theorem restsAt_iff {k : Nat} : RestsAt s r k ↔ 0 < s.restThreshold ∧
    ∀ m ∈ step s (springs r) (trajectory s r k), ∀ t, m.travel = some t →
      t.isNaN = true ∨ t < s.restThreshold :=
  greatestTravel_lt_iff

/-- **A pass that diverges** has a pinned sector that was not at a finite position from the
start, or its last step has flung a body off the finite plane, with no number for its travel. It
counts as converged exactly if there was no sector to place, or if in its last step every travel
that is a number is below the threshold. -/
theorem phase_of_diverged (solver : Solver) (r : Request) (hadmitted : Admitted solver.settings r)
    (reason : String) (h : (solver.solve r).1 = .error (.notConverged reason)) :
    let s := solver.settings
    let next := (solver.solve r).2
    (PinnedAstray r ∨ ∃ k, next.steps = k + 1 ∧ FlungAt s r k) ∧
    (next.phase = .converged ↔ r.freeIds = [] ∨ ∃ k, next.steps = k + 1 ∧ 0 < s.restThreshold ∧
      ∀ m ∈ step s (springs r) (trajectory s r k), ∀ t, m.travel = some t →
        t.isNaN = true ∨ t < s.restThreshold) := by
  intro s next
  have hsolve := solve_of_admitted hadmitted
  have hsteps : next.steps = (simulate s r).steps := congrArg (·.2.steps) hsolve
  have hphase : next.phase = (simulate s r).phase := congrArg (·.2.phase) hsolve
  rw [hsolve] at h
  rw [hsteps, hphase]
  refine ⟨astray_or_flung hadmitted.1 hadmitted.2 h, ?_⟩
  by_cases hfree : r.freeIds = []
  · rw [simulate_of_no_free hfree]
    exact iff_of_true rfl (.inl hfree)
  · simp only [or_iff_right hfree, ← restsAt_iff]
    exact (ends_simulate hfree).phase_eq_converged_iff

/-! ## Bodies that are flung away -/

/-- The failure of an answer, if it is one. -/
def failure? : Answer → Option Failure
  | .error failure => some failure
  | .ok _ => none

theorem eq_error_of_failure? {a : Answer} {failure : Failure} (h : failure? a = some failure) :
    a = .error failure := by
  cases a with
  | error f => exact congrArg Except.error (Option.some.inj h)
  | ok solution => exact absurd h nofun

/-- Two sectors that are joined, and so far apart that the square of their distance overflows. -/
def farApart : Request where
  nodes := [⟨1, some ⟨-1e20, 0⟩⟩, ⟨2, some ⟨1e20, 0⟩⟩]
  lanes := [⟨1, 2⟩]
  pinned := IdMap.empty

/-- The lane pulls with a force that is no number. Neither of the two sectors is on the finite plane
after the first step, neither of the travels is a number, and the pass counts as converged. -/
theorem flung_converged :
    Admitted {} farApart ∧
    ((Solver.fresh {}).solve farApart).1 = .error (.notConverged "node 1 left the finite plane") ∧
    ((Solver.fresh {}).solve farApart).2.phase = .converged := by
  refine ⟨admitted_iff.2 ?_, eq_error_of_failure? ?_, ?_⟩ <;> decide +kernel

/-- The same two with others at an ordinary distance of each other. -/
def amongOthers : Request :=
  { farApart with
    nodes := [⟨1, some ⟨-1e20, 0⟩⟩, ⟨2, some ⟨1e20, 0⟩⟩, ⟨3, some ⟨0, 0⟩⟩, ⟨4, some ⟨10, 0⟩⟩] }

/-- A solver that takes one step. -/
def hurried : Solver := Solver.fresh { iterations := 1 }

/-- Here a pass that is as short as that does not count as converged: the two others still move. -/
theorem amongOthers_flung :
    Admitted hurried.settings amongOthers ∧
    (hurried.solve amongOthers).1 = .error (.notConverged "node 1 left the finite plane") ∧
    FlungAt hurried.settings amongOthers 0 ∧
    ¬ ∀ m ∈ step hurried.settings (springs amongOthers) (trajectory hurried.settings amongOthers 0),
      ∀ t, m.travel = some t → t.isNaN = true ∨ t < hurried.settings.restThreshold := by
  have hadmitted : Admitted hurried.settings amongOthers := by
    rw [admitted_iff]
    decide +kernel
  have herror : (hurried.solve amongOthers).1 =
      .error (.notConverged "node 1 left the finite plane") := by
    apply eq_error_of_failure?
    decide +kernel
  have hsteps : (hurried.solve amongOthers).2.steps = 0 + 1 := by decide +kernel
  have hphase : (hurried.solve amongOthers).2.phase = .exhausted := by decide +kernel
  obtain ⟨hcause, hconverged⟩ := phase_of_diverged hurried amongOthers hadmitted _ herror
  refine ⟨hadmitted, herror, ?_, ?_⟩
  · rcases hcause with ⟨n, -, hpinned, -⟩ | ⟨k, hk, hflung⟩
    · exact absurd hpinned Bool.false_ne_true
    · obtain rfl : k = 0 := Nat.succ.inj (hk.symm.trans hsteps)
      exact hflung
  · intro hall
    have hthreshold : 0 < hurried.settings.restThreshold := by decide +kernel
    have hphase' := hconverged.2 (.inr ⟨0, hsteps, hthreshold, hall⟩)
    rw [hphase] at hphase'
    cases hphase'

end LaneChart.Layout.Force
