import LaneChart.Crossing.Search
import LaneChart.Proofs.Crossing.Segments
import LaneChart.Proofs.Plane.Finite

/-!
# A search for fewer crossings, replayed flip by flip

The proposals of a pass are made once, from the positions at its start, while the flips that it
keeps move sectors under way. They do not go stale: a pass proposes at most one flip of a sector,
so nothing has moved that sector when its turn comes.

`Flip.Improves` says what one kept flip does to the positions before it, and `Replays` that every
flip of a list does so in turn. One attempt, one pass and all passes keep `Progress.Sound`:

> `refine_sound`: the flips of a search, replayed from its start, lead to its positions, and each
> one starts where its sector is at that moment, goes to a mirror image, and lowers the number of
> crossings.
> `extend_moved`: writing what was moved over the positions at the start gives those at the end.
-/

namespace LaneChart.Crossing

/-! ## Replaying flips -/

/-- The positions after some flips are made in order. -/
def replay (p : Placement) (flips : List Flip) : Placement :=
  flips.foldl (fun q f => q.insert f.sector f.target) p

theorem replay_append (p : Placement) (flips : List Flip) (f : Flip) :
    replay p (flips ++ [f]) = (replay p flips).insert f.sector f.target := by
  rw [replay, List.foldl_append]
  rfl

/-- A flip as it is proposed for some positions: it starts where its sector is, and goes to the
mirror image in some line. -/
structure Flip.Proposed (p : Placement) (f : Flip) : Prop where
  current : p.get? f.sector = some f.origin
  mirror : ∃ a b, f.target = Point.reflect f.origin a b

/-- A flip as a search keeps it: it also leaves fewer crossings behind. -/
structure Flip.Improves (lanes : List Lane) (p : Placement) (f : Flip) : Prop
    extends f.Proposed p where
  fewer : count (p.insert f.sector f.target) lanes < count p lanes

/-- Every flip of a list improves on the positions that those before it lead to. -/
def Replays (lanes : List Lane) (p : Placement) : List Flip → Prop
  | [] => True
  | f :: rest => f.Improves lanes p ∧ Replays lanes (p.insert f.sector f.target) rest

theorem replays_append {lanes : List Lane} {p : Placement} {flips : List Flip} {f : Flip}
    (h : Replays lanes p flips) (hf : f.Improves lanes (replay p flips)) :
    Replays lanes p (flips ++ [f]) := by
  induction flips generalizing p with
  | nil => exact ⟨hf, trivial⟩
  | cons g rest ih => exact ⟨h.1, ih h.2 hf⟩

/-- Replaying flips leaves the other sectors alone. -/
theorem get?_replay_of_not_mem {flips : List Flip} {id : SectorId} (p : Placement)
    (h : id ∉ flips.map (·.sector)) : (replay p flips).get? id = p.get? id := by
  induction flips generalizing p with
  | nil => rfl
  | cons f rest ih =>
    rw [List.map_cons, List.mem_cons, not_or] at h
    exact (ih (p.insert f.sector f.target) h.2).trans (IdMap.get?_insert_of_ne p f.target h.1)

/-- A flip that improves moves a sector that has a position, so the placed sectors stay the same. -/
theorem Flip.Improves.contains_insert {lanes : List Lane} {p : Placement} {f : Flip}
    (h : f.Improves lanes p) (id : SectorId) :
    (p.insert f.sector f.target).contains id = p.contains id := by
  rw [IdMap.contains_insert]
  by_cases hid : id = f.sector
  · have hplaced : p.contains id = true := (IdMap.contains_eq_true_iff _ _).2 ⟨_, hid ▸ h.current⟩
    rw [hplaced, Bool.or_true]
  · rw [beq_false_of_ne hid, Bool.false_or]

theorem contains_replay {lanes : List Lane} {p : Placement} {flips : List Flip}
    (h : Replays lanes p flips) (id : SectorId) :
    (replay p flips).contains id = p.contains id := by
  induction flips generalizing p with
  | nil => rfl
  | cons f rest ih => exact (ih h.2).trans (h.1.contains_insert id)

/-- Every flipped sector has a position at the start. -/
theorem contains_of_mem_flips {lanes : List Lane} {p : Placement} {flips : List Flip}
    (h : Replays lanes p flips) {f : Flip} (hf : f ∈ flips) : p.contains f.sector = true := by
  induction flips generalizing p with
  | nil => exact absurd hf List.not_mem_nil
  | cons g rest ih =>
    rcases List.mem_cons.1 hf with rfl | hf
    · exact (IdMap.contains_eq_true_iff _ _).2 ⟨_, h.1.current⟩
    · exact (h.1.contains_insert f.sector) ▸ ih h.2 hf

/-! ## Proposals -/

theorem proposed_of_mem_pairFlips {p : Placement} {lanes : List Lane} {moving fixed : Lane}
    {f : Flip} (h : f ∈ pairFlips p lanes moving fixed) : f.Proposed p := by
  obtain ⟨f₁, f₂, m₁, m₂, -, hmoving, h⟩ := mem_pairFlips_iff.1 h
  obtain ⟨h₁, h₂⟩ := segment?_eq_some_iff.1 hmoving
  rcases h with h | h
  · obtain ⟨-, rfl, -⟩ := flip?_eq_some_iff.1 h
    exact ⟨h₁, f₁, f₂, rfl⟩
  · obtain ⟨-, rfl, -⟩ := flip?_eq_some_iff.1 h
    exact ⟨h₂, f₁, f₂, rfl⟩

theorem proposed_of_mem_crossingFlips {p : Placement} {lanes : List Lane} {pair : Nat × Nat}
    {f : Flip} (h : f ∈ crossingFlips p lanes pair) : f.Proposed p := by
  unfold crossingFlips at h
  split at h
  · exact (List.mem_append.1 h).elim proposed_of_mem_pairFlips proposed_of_mem_pairFlips
  · exact absurd h List.not_mem_nil

theorem mem_of_mem_firstOfEach : ∀ {flips : List Flip} {seen : List SectorId} {f : Flip},
    f ∈ firstOfEach flips seen → f ∈ flips ∧ f.sector ∉ seen
  | [], _, _, h => absurd h List.not_mem_nil
  | g :: rest, seen, f, h => by
    unfold firstOfEach at h
    split at h
    · exact (mem_of_mem_firstOfEach h).imp_left (List.mem_cons_of_mem _)
    · next hnew =>
      rcases List.mem_cons.1 h with rfl | h
      · exact ⟨List.mem_cons_self .., fun hmem => hnew (List.contains_iff_mem.2 hmem)⟩
      · obtain ⟨hmem, hseen⟩ := mem_of_mem_firstOfEach h
        exact ⟨List.mem_cons_of_mem _ hmem, fun hs => hseen (List.mem_cons_of_mem _ hs)⟩

/-- No sector is proposed twice. -/
theorem nodup_firstOfEach : ∀ (flips : List Flip) (seen : List SectorId),
    ((firstOfEach flips seen).map (·.sector)).Nodup
  | [], _ => List.nodup_nil
  | g :: rest, seen => by
    unfold firstOfEach
    split
    · exact nodup_firstOfEach rest seen
    · rw [List.map_cons, List.nodup_cons]
      refine ⟨?_, nodup_firstOfEach rest _⟩
      intro hmem
      obtain ⟨f, hf, hsector⟩ := List.mem_map.1 hmem
      exact (mem_of_mem_firstOfEach hf).2 (hsector ▸ List.mem_cons_self ..)

theorem proposed_of_mem_proposals {p : Placement} {lanes : List Lane} {f : Flip}
    (h : f ∈ proposals p lanes) : f.Proposed p := by
  obtain ⟨pair, -, hf⟩ := List.mem_flatMap.1 (mem_of_mem_firstOfEach h).1
  exact proposed_of_mem_crossingFlips hf

/-! ## The search -/

/-- What holds of a search at every moment: its flips replay to its positions, and the crossings it
carries along are those of its positions. -/
structure Progress.Sound (p : Placement) (lanes : List Lane) (s : Progress) : Prop where
  positions : s.positions = replay p s.flips
  replays : Replays lanes p s.flips
  crossings : s.crossings = count s.positions lanes

namespace Progress

variable {p : Placement} {lanes : List Lane} {maxFlips : Nat} {s : Progress}

/-- An attempt changes nothing, or it makes the flip, within the budget and for fewer crossings. -/
theorem attempt_cases (lanes : List Lane) (maxFlips : Nat) (s : Progress) (f : Flip) :
    s.attempt lanes maxFlips f = s ∨
    (s.flips.length < maxFlips ∧
      count (s.positions.insert f.sector f.target) lanes < s.crossings ∧
      s.attempt lanes maxFlips f =
        ⟨s.positions.insert f.sector f.target,
          count (s.positions.insert f.sector f.target) lanes, s.flips ++ [f]⟩) := by
  unfold attempt
  simp only
  split
  · exact .inl rfl
  · next hroom =>
    split
    · next hfewer => exact .inr ⟨Nat.not_le.1 hroom, hfewer, rfl⟩
    · exact .inl rfl

/-- The start of a search. -/
theorem sound_start (p : Placement) (lanes : List Lane) :
    Sound p lanes ⟨p, count p lanes, []⟩ := ⟨rfl, trivial, rfl⟩

theorem Sound.attempt {f : Flip} (h : s.Sound p lanes) (hf : f.Proposed s.positions) :
    (s.attempt lanes maxFlips f).Sound p lanes := by
  rcases attempt_cases lanes maxFlips s f with heq | ⟨-, hfewer, heq⟩
  · rw [heq]
    exact h
  · rw [heq]
    have himproves : f.Improves lanes (replay p s.flips) := by
      rw [← h.positions]
      exact ⟨hf, h.crossings ▸ hfewer⟩
    refine ⟨?_, replays_append h.replays himproves, rfl⟩
    rw [replay_append, ← h.positions]

/-- An attempt moves no sector but that of its flip. -/
theorem get?_positions_attempt {f : Flip} {id : SectorId} (h : id ≠ f.sector) :
    (s.attempt lanes maxFlips f).positions.get? id = s.positions.get? id := by
  rcases attempt_cases lanes maxFlips s f with heq | ⟨-, -, heq⟩
  · rw [heq]
  · rw [heq]
    exact IdMap.get?_insert_of_ne _ _ h

/-- Attempts of flips of different sectors, all of them proposed for the positions at the start:
those still to come start where their sectors are. -/
theorem Sound.foldl_attempt {flips : List Flip} (h : s.Sound p lanes)
    (hproposed : ∀ f ∈ flips, f.Proposed s.positions) (hnodup : (flips.map (·.sector)).Nodup) :
    (flips.foldl (Progress.attempt lanes maxFlips) s).Sound p lanes := by
  induction flips generalizing s with
  | nil => exact h
  | cons f rest ih =>
    rw [List.map_cons, List.nodup_cons] at hnodup
    refine ih (h.attempt (hproposed f (List.mem_cons_self ..))) ?_ hnodup.2
    intro g hg
    -- the attempt may have moved the sector of `f`, but no other flip is about that one
    have hne : g.sector ≠ f.sector := by
      intro he
      exact hnodup.1 (he ▸ List.mem_map_of_mem hg)
    obtain ⟨hcurrent, hmirror⟩ := hproposed g (List.mem_cons_of_mem _ hg)
    exact ⟨(get?_positions_attempt hne).trans hcurrent, hmirror⟩

theorem Sound.pass (h : s.Sound p lanes) : (s.pass lanes maxFlips).Sound p lanes :=
  h.foldl_attempt (fun _ hf => proposed_of_mem_proposals hf) (nodup_firstOfEach _ _)

/-- What every pass keeps holds at the end, of as many passes as were made. -/
theorem passes_induction {P : Progress → Nat → Prop}
    (hpass : ∀ s done, P s done → P (s.pass lanes maxFlips) (done + 1)) (n : Nat) {done : Nat}
    (h : P s done) :
    P (Crossing.passes lanes maxFlips n s done).1 (Crossing.passes lanes maxFlips n s done).2 := by
  induction n generalizing s done with
  | zero => exact h
  | succ n ih =>
    unfold Crossing.passes
    split
    · exact h
    · simp only
      split
      · exact hpass s done h
      · exact ih (hpass s done h)

theorem Sound.passes (h : s.Sound p lanes) (n done : Nat) :
    (Crossing.passes lanes maxFlips n s done).1.Sound p lanes :=
  passes_induction (P := fun s _ => s.Sound p lanes) (fun _ _ h => h.pass) n h

end Progress

/-- **A search, replayed**: its flips lead from its start to its positions, and every one of them
improves on the positions that those before it lead to. -/
theorem refine_sound (p : Placement) (lanes : List Lane) (budget : Budget) :
    (refine p lanes budget).positions = replay p (refine p lanes budget).flips ∧
    Replays lanes p (refine p lanes budget).flips := by
  have hsound : Progress.Sound p lanes (passes lanes budget.maxFlips.toNat
      budget.maxPasses.toNat ⟨p, count p lanes, []⟩ 0).1 :=
    (Progress.sound_start p lanes).passes _ _
  exact ⟨hsound.positions, hsound.replays⟩

/-! ## What a search moves -/

section Moved

variable (p : Placement) (lanes : List Lane) (budget : Budget)

/-- What was moved are the flipped sectors, at their final positions. -/
theorem get?_moved (r : Refinement) (id : SectorId) :
    r.moved.get? id = if id ∈ r.flips.map (·.sector) then r.positions.get? id else none := by
  unfold Refinement.moved
  rw [← IdMap.get?_ofList_read, List.filterMap_map]
  rfl

/-- The placed sectors of a search are those of its start. -/
theorem contains_positions_refine (id : SectorId) :
    (refine p lanes budget).positions.contains id = p.contains id := by
  obtain ⟨hpositions, hreplays⟩ := refine_sound p lanes budget
  rw [hpositions, contains_replay hreplays]

/-- Only placed sectors are moved. -/
theorem contains_of_moved {id : SectorId} (h : (refine p lanes budget).moved.contains id = true) :
    p.contains id = true := by
  rw [IdMap.contains_eq_isSome, get?_moved] at h
  split at h
  · exact contains_positions_refine p lanes budget id ▸ h
  · exact absurd h (by simp)

/-- **What was moved accounts for the whole search**: written over the positions at the start it
gives those at the end. -/
theorem extend_moved :
    p.extend (refine p lanes budget).moved = (refine p lanes budget).positions := by
  obtain ⟨hpositions, hreplays⟩ := refine_sound p lanes budget
  apply IdMap.ext_get?
  intro id
  rw [IdMap.get?_extend, get?_moved]
  by_cases hid : id ∈ (refine p lanes budget).flips.map (·.sector)
  · rw [if_pos hid]
    obtain ⟨f, hf, rfl⟩ := List.mem_map.1 hid
    have hplaced := contains_of_mem_flips hreplays hf
    rw [← contains_positions_refine p lanes budget, IdMap.contains_eq_isSome] at hplaced
    obtain ⟨q, hq⟩ := Option.isSome_iff_exists.1 hplaced
    rw [hq, Option.some_or]
  · rw [if_neg hid, Option.none_or, hpositions, get?_replay_of_not_mem p hid]

end Moved

/-! ## Finite coordinates -/

/-- A flip that improves keeps a position that is not finite where it is, or replaces it by another
one. -/
theorem Flip.Improves.not_allFinite {lanes : List Lane} {p : Placement} {f : Flip}
    (h : f.Improves lanes p) (hp : ¬ p.AllFinite) :
    ¬ (p.insert f.sector f.target).AllFinite := by
  intro hall
  apply hp
  intro id q hq
  by_cases hid : id = f.sector
  · obtain ⟨a, b, hmirror⟩ := h.mirror
    have horigin : q = f.origin := Option.some.inj (hq.symm.trans (hid ▸ h.current))
    have htarget := hall f.sector f.target (IdMap.get?_insert_self ..)
    rw [hmirror] at htarget
    exact horigin ▸ Position.isFinite_of_reflect htarget
  · exact hall id q ((IdMap.get?_insert_of_ne p f.target hid).trans hq)

theorem not_allFinite_replay {lanes : List Lane} {p : Placement} {flips : List Flip}
    (h : Replays lanes p flips) (hp : ¬ p.AllFinite) : ¬ (replay p flips).AllFinite := by
  induction flips generalizing p with
  | nil => exact hp
  | cons f rest ih => exact ih h.2 (h.1.not_allFinite hp)

/-- Flips lead from finite positions to finite ones exactly if all their targets are finite: what is
not finite stays so, whatever is flipped after it. -/
theorem allFinite_replay_iff {lanes : List Lane} {p : Placement} {flips : List Flip}
    (h : Replays lanes p flips) (hp : p.AllFinite) :
    (replay p flips).AllFinite ↔ ∀ f ∈ flips, Position.isFinite f.target = true := by
  induction flips generalizing p with
  | nil => exact iff_of_true hp fun f hf => absurd hf List.not_mem_nil
  | cons f rest ih =>
    rw [List.forall_mem_cons]
    show (replay (p.insert f.sector f.target) rest).AllFinite ↔ _
    by_cases hf : Position.isFinite f.target = true
    · rw [ih h.2 (hp.insert hf), and_iff_right hf]
    · refine iff_of_false (not_allFinite_replay h.2 fun hall => hf ?_) fun hall => hf hall.1
      exact hall f.sector f.target (IdMap.get?_insert_self ..)

/-- **A search keeps positions finite** exactly if it makes no flip to a place that is not. -/
theorem allFinite_refine_iff {p : Placement} {lanes : List Lane} {budget : Budget}
    (hp : p.AllFinite) : (refine p lanes budget).positions.AllFinite ↔
      ∀ f ∈ (refine p lanes budget).flips, Position.isFinite f.target = true := by
  obtain ⟨hpositions, hreplays⟩ := refine_sound p lanes budget
  rw [hpositions]
  exact allFinite_replay_iff hreplays hp

end LaneChart.Crossing
