import LaneChart.Proofs.Layout.Force

/-!
# The trajectory of a simulation

A run stops at the first step that comes to rest, or when its steps are used up; where it stands
then is a point of a trajectory that does not depend on when it stops. `trajectory` is that sequence
of bodies, one step after another without end:

> `bodies_simulate`: a run ends at the point of the trajectory that its number of steps tells.
> `forall₂_held`: at every point the body of a pinned sector is where the request has the
> sector, and has no velocity.

The second statement is about all steps, whichever way repulsion is worked out, so the position that
is echoed for a pinned sector is the one from which it acted on the others all the time:

> `solver_keeps_contract`: a solution keeps the contract, and its pinned positions are those of the
> whole trajectory.
-/

namespace LaneChart.Layout.Force

variable {s : Settings} {r : Request}

/-! ## Points of a trajectory -/

/-- The bodies of a request after some steps, whether or not a run goes that far. -/
def trajectory (s : Settings) (r : Request) : Nat → List Body
  | 0 => startBodies s r
  | k + 1 => (step s (springs r) (trajectory s r k)).map (·.body)

/-- A run that starts at a point of the trajectory, counting on from there, ends at the
point that its count tells. -/
theorem bodies_settle (s : Settings) (r : Request) (n k : Nat) :
    (settle s (springs r) n (trajectory s r k) k).bodies =
      trajectory s r (settle s (springs r) n (trajectory s r k) k).steps := by
  induction n generalizing k with
  | zero => rfl
  | succ n ih =>
    unfold settle
    simp only
    split
    · rfl
    · exact ih (k + 1)

/-- **A run ends on its trajectory.** -/
theorem bodies_simulate (s : Settings) (r : Request) :
    (simulate s r).bodies = trajectory s r (simulate s r).steps := by
  unfold simulate
  simp only
  split
  · rfl
  · exact bodies_settle s r s.iterations.toNat 0

theorem forall₂_trajectory (s : Settings) (r : Request) (k : Nat) :
    List.Forall₂ Follows (startBodies s r) (trajectory s r k) := by
  induction k with
  | zero => exact List.forall₂_same.2 fun b _ => .refl b
  | succ k ih => exact forall₂_trans ih (forall₂_step ..) fun _ _ _ => Follows.trans

/-! ## Pinned sectors -/

/-- A body is held: it is where the request has its sector, and does not move. -/
structure Held (n : Node) (b : Body) : Prop where
  position : n.position = some b.position
  velocity : b.velocity = ⟨0, 0⟩

/-- Every body starts without velocity. -/
theorem velocity_startBodies {b : Body} (h : b ∈ startBodies s r) : b.velocity = ⟨0, 0⟩ := by
  unfold startBodies at h
  rw [← List.map_uncurry_zip_eq_zipWith] at h
  obtain ⟨e, -, rfl⟩ := List.mem_map.1 h
  rfl

/-- **The bodies of pinned sectors are held** at every point of the trajectory. -/
theorem forall₂_held (hvalid : r.validate = .ok ()) (s : Settings) (k : Nat) :
    List.Forall₂ (fun n b => r.isPinned n.id = true → Held n b) r.nodes (trajectory s r k) := by
  have hstart :
      List.Forall₂ (fun n b => r.isPinned n.id = true → b.pinned = true ∧ Held n b) r.nodes
        (startBodies s r) := by
    rw [List.forall₂_iff_zip]
    have hstands := forall₂_startBodies s r
    refine ⟨hstands.length_eq, ?_⟩
    intro n b hzip hpinned
    have hb : StandsFor r n b := List.forall₂_zip hstands hzip
    have hbody : b.pinned = true := hb.pinned.trans hpinned
    obtain ⟨hn, hmem⟩ := List.of_mem_zip hzip
    -- a valid request has a position for what it pins
    obtain ⟨p, hp⟩ := Option.isSome_iff_exists.1
      (((Request.validate_eq_ok_iff r).1 hvalid).1 n hn hpinned)
    exact ⟨hbody, by rw [hp, hb.fixed hbody p hp], velocity_startBodies hmem⟩
  refine forall₂_trans hstart (forall₂_trajectory s r k) ?_
  intro n b b' hb hfollows hpinned
  obtain ⟨hbody, hheld⟩ := hb hpinned
  rw [hfollows.fixed hbody]
  exact hheld

/-! ## What a solution says -/

section Solution

variable {solution : Solution}

theorem allFinite_of_verify (hverify : solution.verify r = .ok ())
    (hknown : ∀ id, solution.positions.contains id = true ↔ id ∈ r.ids) :
    solution.positions.AllFinite := by
  intro id q hq
  have hid : id ∈ r.ids := (hknown id).1 ((IdMap.contains_eq_true_iff _ _).2 ⟨q, hq⟩)
  obtain ⟨n, hn, rfl⟩ := List.mem_map.1 hid
  have hnode : solution.breach? r n = none := (Solution.verify_eq_ok_iff _ _).1 hverify n hn
  obtain ⟨p, hp, hfinite, -⟩ := (Solution.breach?_eq_none_iff _ _ _).1 hnode
  exact Option.some.inj (hp.symm.trans hq) ▸ hfinite

/-- A pinned sector is echoed. -/
theorem echo_of_answer (hvalid : r.validate = .ok ()) (hnodup : r.ids.Nodup)
    (h : (simulate s r).answer r = .ok solution) {n : Node} (hn : n ∈ r.nodes)
    (hpinned : r.isPinned n.id = true) :
    ∃ p, n.position = some p ∧ solution.positions.get? n.id = some p := by
  have hplaced := answer_eq_ok (forall₂_bodies s r) hnodup h
  have hheld := forall₂_held hvalid s (simulate s r).steps
  rw [← bodies_simulate] at hheld
  obtain ⟨b, hzip, hb⟩ := exists_mem_zip hheld hn
  exact ⟨b.position, (hb hpinned).position, (hplaced (n, b) hzip).2⟩

/-- So at every point of the trajectory its body is where the solution has it. -/
theorem forall₂_echoed (hvalid : r.validate = .ok ()) (hnodup : r.ids.Nodup)
    (h : (simulate s r).answer r = .ok solution) (k : Nat) :
    List.Forall₂ (fun n b => r.isPinned n.id = true →
      solution.positions.get? n.id = some b.position ∧ b.velocity = ⟨0, 0⟩) r.nodes
      (trajectory s r k) := by
  have hheld := forall₂_held hvalid s k
  rw [List.forall₂_iff_zip] at hheld ⊢
  obtain ⟨hlength, hheld⟩ := hheld
  refine ⟨hlength, ?_⟩
  intro n b hzip hpinned
  obtain ⟨hposition, hvelocity⟩ := hheld hzip hpinned
  obtain ⟨p, hp, hsolution⟩ := echo_of_answer hvalid hnodup h (List.of_mem_zip hzip).1 hpinned
  rw [hsolution, ← hp]
  exact ⟨hposition, hvelocity⟩

end Solution

/-- **The force layout keeps its contract.** A solution of a request of different sectors keeps the
contract; it knows exactly the requested sectors, at finite positions, and echoes the pinned ones
bit for bit. It was read off a point of the trajectory, on which no step changes a pinned body: at
every point such a body is where the solution has its sector, without velocity. -/
theorem solver_keeps_contract (solver : Solver) (r : Request) (hnodup : r.ids.Nodup)
    (solution : Solution) (h : (solver.solve r).1 = .ok solution) :
    let run := simulate solver.settings r
    let bodies := trajectory solver.settings r
    solution.verify r = .ok () ∧
    (∀ id, id ∈ solution.positions.keys ↔ id ∈ r.ids) ∧
    solution.positions.AllFinite ∧
    (∀ n ∈ r.nodes, r.isPinned n.id = true →
      ∃ p, n.position = some p ∧ solution.positions.get? n.id = some p) ∧
    run.bodies = bodies run.steps ∧
    ∀ k, List.Forall₂ Follows (bodies k) (bodies (k + 1)) ∧
      List.Forall₂ (fun n b => r.isPinned n.id = true →
        solution.positions.get? n.id = some b.position ∧ b.velocity = ⟨0, 0⟩)
        r.nodes (bodies k) := by
  intro run bodies
  obtain ⟨solver', hsolve, -⟩ := solve_eq solver r
  rw [hsolve] at h
  obtain ⟨-, hvalid, hanswer⟩ := respond_eq_ok_iff.1 h
  have hstands : List.Forall₂ (StandsFor r) r.nodes run.bodies := forall₂_bodies solver.settings r
  have hverify : solution.verify r = .ok () := verify_of_answer hnodup hvalid hanswer
  have hknown : ∀ id, solution.positions.contains id = true ↔ id ∈ r.ids :=
    contains_of_answer hstands.length_eq hanswer
  refine ⟨hverify, ?_, allFinite_of_verify hverify hknown, ?_, bodies_simulate _ r, ?_⟩
  · intro id
    rw [← IdMap.contains_iff_mem_keys]
    exact hknown id
  · intro n hn hpinned
    exact echo_of_answer hvalid hnodup hanswer hn hpinned
  · intro k
    exact ⟨forall₂_step _ _ _, forall₂_echoed hvalid hnodup hanswer k⟩

/-! ## A triangle -/

/-- A pinned sector, one to be placed beside it, and one that has a place but is free to leave it.
One lane is listed twice, and one ends where it starts. -/
def triangle : Request where
  nodes := [⟨1, some ⟨0, -0.0⟩⟩, ⟨2, none⟩, ⟨3, some ⟨30, 40⟩⟩]
  lanes := [⟨1, 2⟩, ⟨2, 2⟩, ⟨3, 1⟩, ⟨1, 2⟩]
  pinned := IdSet.ofList [1]

/-- A solver that takes two steps, with a quadtree for the repulsion. -/
def brief : Solver := { settings := { iterations := 2, approximate := true } }

/-- The triangle is laid out, and after a step its pinned sector is where the solution has
it, down to the sign of its zero. -/
theorem triangle_pinned :
    ∃ solution, (brief.solve triangle).1 = .ok solution ∧ triangle.ids.Nodup ∧
      solution.verify triangle = .ok () ∧ solution.positions.get? 1 = some ⟨0, -0.0⟩ ∧
      ∀ b, (trajectory brief.settings triangle 1)[0]? = some b →
        b.position = ⟨0, -0.0⟩ ∧ b.velocity = ⟨0, 0⟩ := by
  have hnodup : triangle.ids.Nodup := by decide
  have hok : (brief.solve triangle).1.isOk = true := by decide +kernel
  cases hsolve : (brief.solve triangle).1 with
  | error failure =>
    rw [hsolve] at hok
    exact absurd hok Bool.false_ne_true
  | ok solution =>
    obtain ⟨hverify, -, -, hechoed, -, hbodies⟩ :=
      solver_keeps_contract brief triangle hnodup solution hsolve
    obtain ⟨p, hp, hposition⟩ := hechoed _ (List.mem_cons_self ..) (by decide)
    obtain rfl := Option.some.inj hp
    refine ⟨solution, rfl, hnodup, hverify, hposition, ?_⟩
    have hheld := (hbodies 1).2
    generalize trajectory brief.settings triangle 1 = bodies at hheld
    cases hheld with
    | cons hfirst hrest =>
      intro b hb
      obtain rfl := Option.some.inj hb
      obtain ⟨hplace, hvelocity⟩ := hfirst (by decide)
      exact ⟨Option.some.inj (hplace.symm.trans hposition), hvelocity⟩

end LaneChart.Layout.Force
