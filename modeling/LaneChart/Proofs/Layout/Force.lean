import LaneChart.Layout.Force.Solver
import LaneChart.Proofs.Layout.Pass
import LaneChart.Proofs.Plane.Finite
import Mathlib.Data.List.Forall2

/-!
# The force layout keeps the contract

A simulation runs on a list of bodies, one for each sector of the request. Two statements about such
lists carry everything:

> `forall₂_step`: a step moves no pinned body and pins or frees none.
> `forall₂_bodies`: at the end of a simulation the pinned bodies are where the request has them.

So the position that is echoed for a pinned sector is the one its body had all along
(`StandsFor.finalPosition_eq`). What is left to break the contract is a coordinate that is not
finite, and that is looked for in every body before there is an answer:

> `verify_of_answer`: an answer that is a solution keeps the contract.
> `answer_eq_error`: any other answer names a sector that left the finite plane.
-/

namespace LaneChart.Layout.Force

/-! ## Lists side by side -/

section Lists

variable {α β γ : Type} {l₁ : List α} {l₂ : List β} {l₃ : List γ}

theorem forall₂_trans {R : α → β → Prop} {S : β → γ → Prop} {T : α → γ → Prop}
    (h : List.Forall₂ R l₁ l₂) (h' : List.Forall₂ S l₂ l₃)
    (hRS : ∀ a b c, R a b → S b c → T a c) : List.Forall₂ T l₁ l₃ := by
  induction h generalizing l₃ with
  | nil =>
    cases h'
    exact .nil
  | cons hab _ ih =>
    cases h' with
    | cons hbc hrest => exact .cons (hRS _ _ _ hab hbc) (ih hrest)

/-- A list that is made from two lists of one length, beside the first of them. -/
theorem forall₂_zipWith {R : α → γ → Prop} {f : α → β → γ} (hlength : l₁.length = l₂.length)
    (h : ∀ e ∈ l₁.zip l₂, R e.1 (f e.1 e.2)) : List.Forall₂ R l₁ (List.zipWith f l₁ l₂) := by
  induction l₁ generalizing l₂ with
  | nil => exact .nil
  | cons a l₁ ih =>
    cases l₂ with
    | nil => exact absurd hlength (Nat.succ_ne_zero _)
    | cons b l₂ =>
      have hrest := ih (Nat.succ.inj hlength) fun e he => h e (List.mem_cons_of_mem _ he)
      exact .cons (h (a, b) (List.mem_cons_self ..)) hrest

/-- Replacing an element keeps two lists side by side if the new one fits in its place. -/
theorem forall₂_set {R : α → β → Prop} (h : List.Forall₂ R l₁ l₂) {i : Nat} {x : β}
    (hx : ∀ a b, l₂[i]? = some b → R a b → R a x) : List.Forall₂ R l₁ (l₂.set i x) := by
  induction h generalizing i with
  | nil => exact .nil
  | cons hab hrest ih =>
    cases i with
    | zero => exact .cons (hx _ _ rfl hab) hrest
    | succ i => exact .cons hab (ih fun a b hb => hx a b hb)

/-- Every element of a list has its partner in the list beside it. -/
theorem exists_mem_zip {R : α → β → Prop} (h : List.Forall₂ R l₁ l₂) {a : α} (ha : a ∈ l₁) :
    ∃ b, (a, b) ∈ l₁.zip l₂ ∧ R a b := by
  rw [← List.map_fst_zip (Nat.le_of_eq h.length_eq)] at ha
  obtain ⟨⟨a, b⟩, hzip, rfl⟩ := List.mem_map.1 ha
  exact ⟨b, hzip, List.forall₂_zip h hzip⟩

end Lists

/-! ## Where the sectors start -/

variable {s : Settings} {r : Request}

/-- A place that is taken is the one that the request has. -/
def Keeps (n : Node) (place : Option Position) : Prop := ∀ p, n.position = some p → place = some p

theorem forall₂_seedNext {lanes : List (Nat × Nat)} {placed : List (Option Position)}
    (h : List.Forall₂ Keeps r.nodes placed) (e : SectorId × Nat) :
    List.Forall₂ Keeps r.nodes (seedNext s lanes placed e) := by
  unfold seedNext
  split
  · exact h
  · next hfree =>
    refine forall₂_set h ?_
    intro n place hplace hkeeps p hp
    -- a sector that comes with a position has its place already
    rw [hplace, hkeeps p hp] at hfree
    exact absurd hfree (by simp)

theorem forall₂_seed (s : Settings) (r : Request) :
    List.Forall₂ (fun n q => ∀ p, n.position = some p → q = p) r.nodes (seed s r) := by
  have hstart : List.Forall₂ Keeps r.nodes (r.nodes.map (·.position)) :=
    List.forall₂_map_right_iff.2 (List.forall₂_same.2 fun n _ p hp => hp)
  have hend : List.Forall₂ Keeps r.nodes (r.ids.zipIdx.foldl (seedNext s (numberedLanes r))
      (r.nodes.map (·.position))) :=
    List.foldlRecOn _ _ hstart fun _ h e _ => forall₂_seedNext h e
  refine List.forall₂_map_right_iff.2 (hend.imp ?_)
  intro n place hkeeps p hp
  rw [hkeeps p hp, Option.getD_some]

/-- A body stands for a sector: it is pinned if the sector is, and then it is where the request has
the sector. -/
structure StandsFor (r : Request) (n : Node) (b : Body) : Prop where
  pinned : b.pinned = r.isPinned n.id
  fixed : b.pinned = true → ∀ p, n.position = some p → b.position = p

theorem forall₂_startBodies (s : Settings) (r : Request) :
    List.Forall₂ (StandsFor r) r.nodes (startBodies s r) := by
  have hseed := forall₂_seed s r
  refine forall₂_zipWith hseed.length_eq ?_
  intro e he
  exact ⟨rfl, fun _ => List.forall₂_zip hseed he⟩

/-! ## Steps -/

/-- What becomes of a body: it stays pinned or free, and where it is if it is pinned. -/
structure Follows (b b' : Body) : Prop where
  pinned : b'.pinned = b.pinned
  fixed : b.pinned = true → b' = b

theorem Follows.refl (b : Body) : Follows b b := ⟨rfl, fun _ => rfl⟩

theorem Follows.trans {b b' b'' : Body} (h : Follows b b') (h' : Follows b' b'') :
    Follows b b'' := by
  refine ⟨h'.pinned.trans h.pinned, ?_⟩
  intro hpinned
  rw [h'.fixed (h.pinned.trans hpinned), h.fixed hpinned]

theorem StandsFor.follows {n : Node} {b b' : Body} (h : StandsFor r n b) (hb : Follows b b') :
    StandsFor r n b' := by
  refine ⟨hb.pinned.trans h.pinned, ?_⟩
  intro hpinned
  rw [hb.pinned] at hpinned
  rw [hb.fixed hpinned]
  exact h.fixed hpinned

theorem follows_move (s : Settings) (b : Body) (f : Position) : Follows b (move s b f).body := by
  unfold move
  by_cases hpinned : b.pinned = true
  · rw [if_pos hpinned]
    exact .refl b
  · rw [if_neg hpinned]
    exact ⟨rfl, fun h => absurd h hpinned⟩

theorem length_repulsions (s : Settings) (bodies : List Body) :
    (repulsions s bodies).length = bodies.length := by
  unfold repulsions
  simp only
  split
  · rw [List.length_map]
  · rw [List.length_map, List.length_zipIdx]

theorem length_addSpring (s : Settings) (positions fs : List Position) (lane : Nat × Nat) :
    (addSpring s positions fs lane).length = fs.length := by
  unfold addSpring
  split
  · simp only [List.length_modify]
  · rfl

/-- There is one force for each body. -/
theorem length_forces (s : Settings) (springs : List (Nat × Nat)) (bodies : List Body) :
    (forces s springs bodies).length = bodies.length := by
  refine List.foldlRecOn (motive := fun fs : List Position => fs.length = bodies.length) springs _
    (length_repulsions s bodies) ?_
  intro fs h lane _
  exact (length_addSpring s _ fs lane).trans h

/-- **A step** leaves every body pinned or free, and pinned ones where they are. -/
theorem forall₂_step (s : Settings) (springs : List (Nat × Nat)) (bodies : List Body) :
    List.Forall₂ Follows bodies ((step s springs bodies).map (·.body)) := by
  refine List.forall₂_map_right_iff.2 (forall₂_zipWith (length_forces s springs bodies).symm ?_)
  intro e _
  exact follows_move s e.1 e.2

theorem forall₂_settle (s : Settings) (springs : List (Nat × Nat)) (n : Nat) (bodies : List Body)
    (steps : Nat) : List.Forall₂ Follows bodies (settle s springs n bodies steps).bodies := by
  induction n generalizing bodies steps with
  | zero => exact List.forall₂_same.2 fun b _ => .refl b
  | succ n ih =>
    have hstep := forall₂_step s springs bodies
    unfold settle
    simp only
    split
    · exact hstep
    · exact forall₂_trans hstep (ih _ _) fun _ _ _ => Follows.trans

theorem forall₂_simulate (s : Settings) (r : Request) :
    List.Forall₂ Follows (startBodies s r) (simulate s r).bodies := by
  unfold simulate
  simp only
  split
  · exact List.forall₂_same.2 fun b _ => .refl b
  · exact forall₂_settle ..

/-- **At the end of a simulation** every sector has its body, and the pinned ones are where the
request has them. -/
theorem forall₂_bodies (s : Settings) (r : Request) :
    List.Forall₂ (StandsFor r) r.nodes (simulate s r).bodies :=
  forall₂_trans (forall₂_startBodies s r) (forall₂_simulate s r) fun _ _ _ => StandsFor.follows

/-! ## The answer -/

/-- The echo of a pinned position says nothing new: the body is there. -/
theorem StandsFor.finalPosition_eq {n : Node} {b : Body} (h : StandsFor r n b) :
    finalPosition r n b = b.position := by
  unfold finalPosition
  cases hp : n.position with
  | none => rfl
  | some p =>
    show (if r.isPinned n.id = true then p else b.position) = b.position
    by_cases hpinned : r.isPinned n.id = true
    · rw [if_pos hpinned, h.fixed (h.pinned.trans hpinned) p hp]
    · rw [if_neg hpinned]

/-- A simulation that does not answer with a solution names a sector that left the finite plane. -/
theorem answer_eq_error {run : Run} {failure : Failure} (h : run.answer r = .error failure) :
    ∃ id ∈ r.ids, failure = .notConverged s!"node {id} left the finite plane" := by
  unfold Run.answer at h
  split at h
  · next e he =>
    have hmem : e.1 ∈ r.nodes := (List.of_mem_zip (List.mem_of_find?_eq_some he)).1
    exact ⟨e.1.id, List.mem_map_of_mem hmem, (Except.error.inj h).symm⟩
  · exact absurd h (by simp)

/-- The entries of a solution are those of the requested sectors, in order. -/
theorem map_fst_finalPosition {bodies : List Body} (hlength : r.nodes.length = bodies.length) :
    ((r.nodes.zip bodies).map fun e => (e.1.id, finalPosition r e.1 e.2)).map (·.1) = r.ids := by
  calc ((r.nodes.zip bodies).map fun e => (e.1.id, finalPosition r e.1 e.2)).map (·.1)
    _ = ((r.nodes.zip bodies).map Prod.fst).map (·.id) := by
      rw [List.map_map, List.map_map]
      rfl
    _ = r.ids := by
      rw [List.map_fst_zip (Nat.le_of_eq hlength)]
      rfl

/-- A solution has every sector where its body ended up, at a finite position. -/
theorem answer_eq_ok {run : Run} {solution : Solution}
    (hbodies : List.Forall₂ (StandsFor r) r.nodes run.bodies) (hnodup : r.ids.Nodup)
    (h : run.answer r = .ok solution) :
    ∀ e ∈ r.nodes.zip run.bodies, e.2.position.isFinite = true ∧
      solution.positions.get? e.1.id = some e.2.position := by
  unfold Run.answer at h
  split at h
  · exact absurd h (by simp)
  · next hnone =>
    rw [← Except.ok.inj h]
    intro e he
    have hfinite := List.find?_eq_none.1 hnone e he
    rw [Bool.not_eq_true', Bool.not_eq_false] at hfinite
    refine ⟨hfinite, ?_⟩
    -- the ids are different, so what is looked up is the entry of this body
    have hkeys := map_fst_finalPosition hbodies.length_eq
    have hstands : StandsFor r e.1 e.2 := List.forall₂_zip hbodies he
    rw [← hstands.finalPosition_eq]
    refine IdMap.get?_ofList_of_mem (hkeys ▸ hnodup) ?_
    exact List.mem_map.2 ⟨e, he, rfl⟩

/-- A solution knows exactly the requested sectors. -/
theorem contains_of_answer {run : Run} {solution : Solution}
    (hlength : r.nodes.length = run.bodies.length) (h : run.answer r = .ok solution)
    (id : SectorId) : solution.positions.contains id = true ↔ id ∈ r.ids := by
  unfold Run.answer at h
  split at h
  · exact absurd h (by simp)
  · rw [← Except.ok.inj h, IdMap.contains_ofList, map_fst_finalPosition hlength]

/-- **A solution of the simulation keeps the contract.** -/
theorem verify_of_answer {solution : Solution} (hnodup : r.ids.Nodup)
    (hvalid : r.validate = .ok ()) (h : (simulate s r).answer r = .ok solution) :
    solution.verify r = .ok () := by
  have hbodies := forall₂_bodies s r
  have hplaced := answer_eq_ok hbodies hnodup h
  refine (Solution.verify_eq_ok_iff _ _).2 ?_
  intro n hn
  obtain ⟨b, hzip, hstands⟩ := exists_mem_zip hbodies hn
  obtain ⟨hfinite, hposition⟩ := hplaced (n, b) hzip
  refine (Solution.breach?_eq_none_iff _ _ _).2 ⟨_, hposition, hfinite, ?_⟩
  intro hpinned
  -- a valid request has a position for what it pins, and the body never left it
  obtain ⟨p, hp⟩ := Option.isSome_iff_exists.1
    (((Request.validate_eq_ok_iff r).1 hvalid).1 n hn hpinned)
  rw [hstands.fixed (hstands.pinned.trans hpinned) p hp] at hfinite ⊢
  rw [hp, Option.any_some]
  exact Position.same_self hfinite

/-! ## The solver -/

/-- Constants and a request that can be used. -/
def Admitted (s : Settings) (r : Request) : Prop := s.validate = .ok () ∧ r.validate = .ok ()

theorem admitted_iff : Admitted s r ↔ Solver.admit? s r = .ok () := by
  unfold Admitted Solver.admit?
  cases s.validate with
  | error failure => simp [bind, Except.bind]
  | ok u => cases r.validate <;> simp [bind, Except.bind]

/-- What a solver with some constants answers, whatever it did before. -/
def respond (s : Settings) (r : Request) : Answer :=
  match Solver.admit? s r with
  | .error failure => .error failure
  | .ok () => (simulate s r).answer r

theorem solve_eq (solver : Solver) (r : Request) :
    ∃ solver', solver.solve r = (respond solver.settings r, solver') ∧
      solver'.settings = solver.settings := by
  unfold Solver.solve respond
  cases Solver.admit? solver.settings r with
  | error failure => exact ⟨solver, rfl, rfl⟩
  | ok u => exact ⟨_, rfl, rfl⟩

theorem respond_of_valid (hs : s.validate = .ok ()) (hr : r.validate = .ok ()) :
    respond s r = (simulate s r).answer r := by
  unfold respond
  rw [admitted_iff.1 ⟨hs, hr⟩]

theorem respond_eq_ok_iff {solution : Solution} :
    respond s r = .ok solution ↔
      s.validate = .ok () ∧ r.validate = .ok () ∧ (simulate s r).answer r = .ok solution := by
  rw [← and_assoc]
  by_cases hadmitted : Admitted s r
  · rw [respond_of_valid hadmitted.1 hadmitted.2]
    exact (and_iff_right hadmitted).symm
  · refine iff_of_false ?_ fun h => hadmitted h.1
    unfold respond
    split
    · exact nofun
    · next hok => exact absurd (admitted_iff.2 hok) hadmitted

/-- **How the force layout fails**: with usable constants it fails a valid request of different
sectors only for a sector that left the finite plane. -/
theorem fails_respond (hs : s.validate = .ok ()) (hr : r.validate = .ok ()) (hnodup : r.ids.Nodup)
    {failure : Failure} (h : (respond s r).Fails r failure) :
    ∃ id ∈ r.ids, failure = .notConverged s!"node {id} left the finite plane" := by
  rw [respond_of_valid hs hr] at h
  rcases h with herror | ⟨solution, hok, hverify⟩
  · exact answer_eq_error herror
  · rw [verify_of_answer hnodup hr hok] at hverify
    exact absurd hverify (by simp)

end LaneChart.Layout.Force
