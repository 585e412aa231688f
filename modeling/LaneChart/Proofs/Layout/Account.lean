import LaneChart.Proofs.Layout.Pass

/-!
# One layout pass in full

A pass is asked to lay out a neighbourhood, and the provider that it may turn to can answer
anything. What comes of it is settled by three things: what the cache knows, whether a
request was made, and whether the answer to it keeps the contract. `Accounted` goes through
all that a pass reports and leaves behind:

> `decided_by_cache_and_answer`: a request is made exactly if some displayed sector is not
> cached, the outcome and the new cache are accounted for, and what was displayed before decides
> nothing but the difference that is reported.

The positions are read off the cache after the pass (`positions_run`); what is new here is where a
position that was not cached comes from (`of_unpinned_run`), and what the cache has after the pass
(`get?_cache_run`).
-/

namespace LaneChart.Layout.Pass

variable {cache : Placement} {n : Neighborhood} {previous : IdSet} {answer : Request → Answer}

/-- What a pass reports and leaves behind. -/
structure Accounted (cache : Placement) (n : Neighborhood) (previous : IdSet)
    (answer : Request → Answer) (o : Outcome) (after : Placement) : Prop where
  /-- The pass goes through if it makes no request, or if the answer keeps the contract. -/
  complete_iff : o.isComplete = true ↔ request? cache n = none ∨
    ∃ r s, request? cache n = some r ∧ answer r = .ok s ∧ s.verify r = .ok ()
  /-- Otherwise it is skipped, and reports why the answer failed. -/
  skipped_iff : ∀ failure, o.status = .skipped failure ↔
    ∃ r, request? cache n = some r ∧ (answer r).Fails r failure
  /-- The sectors to place are the displayed ones that are not cached, in order. -/
  placed : o.placed = n.ids.filter (!cache.contains ·)
  /-- Added are the displayed sectors that were not displayed before, in order. -/
  added : o.added = n.ids.filter (!previous.contains ·)
  /-- Removed are the sectors that were displayed before and are not now, ascending. -/
  removed : o.removed.Pairwise (· < ·) ∧
    ∀ id, id ∈ o.removed ↔ previous.contains id = true ∧ id ∉ n.ids
  /-- Pinned are exactly the sectors that were cached. -/
  pinned : ∀ id p, o.positions.get? id = some p → p.pinned = cache.contains id
  /-- A pinned sector is where the cache has it. -/
  of_pinned : ∀ id p, o.positions.get? id = some p → p.pinned = true →
    cache.get? id = some p.position
  /-- Any other sector is where a solution that keeps the contract puts it. -/
  of_unpinned : ∀ id p, o.positions.get? id = some p → p.pinned = false →
    ∃ r s, request? cache n = some r ∧ answer r = .ok s ∧ s.verify r = .ok () ∧
      s.positions.get? id = some p.position
  /-- If the pass goes through, exactly the displayed sectors have a position, and the cache gains
  exactly the sectors that were to be placed, at the positions reported. -/
  complete : o.isComplete = true →
    (∀ id, o.positions.contains id = true ↔ id ∈ n.ids) ∧
    ∀ id, after.get? id =
      if id ∈ o.placed then (o.positions.get? id).map (·.position) else cache.get? id
  /-- If it is skipped, the cache stays, and exactly the displayed sectors that are cached have a
  position. -/
  skipped : o.isComplete = false →
    (∀ id, o.positions.contains id = true ↔ id ∈ n.ids ∧ cache.contains id = true) ∧
    after = cache

/-! ## Requests -/

/-- A request is made exactly if some displayed sector is not cached. -/
theorem isSome_request?_iff :
    (request? cache n).isSome = true ↔ ∃ id ∈ n.ids, cache.contains id = false := by
  rw [request?_eq]
  by_cases hall : n.ids.all (cache.contains ·) = true
  · rw [if_pos hall]
    refine iff_of_false Bool.false_ne_true ?_
    rintro ⟨id, hid, hnot⟩
    exact Bool.false_ne_true (hnot.symm.trans (List.all_eq_true.1 hall id hid))
  · rw [if_neg hall]
    refine iff_of_true rfl ?_
    rw [Bool.not_eq_true, List.all_eq_false] at hall
    obtain ⟨id, hid, hnot⟩ := hall
    exact ⟨id, hid, Bool.not_eq_true _ ▸ hnot⟩

theorem unplaced_eq (cache : Placement) (n : Neighborhood) :
    unplaced cache n = n.ids.filter (!cache.contains ·) := by
  refine List.filter_congr fun id hid => ?_
  rw [IdMap.contains_eq_isSome, get?_known, if_pos hid, IdMap.contains_eq_isSome]

theorem isComplete_run_iff :
    (run cache n previous answer).1.isComplete = true ↔ request? cache n = none ∨
      ∃ r s, request? cache n = some r ∧ answer r = .ok s ∧ s.verify r = .ok () := by
  cases hr : request? cache n with
  | none =>
    refine iff_of_true (isComplete_run.2 ⟨0, 0, ?_⟩) (.inl rfl)
    unfold place
    rw [hr]
  | some r =>
    rw [isComplete_run_of_request hr]
    simp

/-! ## Positions -/

/-- A position that was not cached is one that the provider gave. -/
theorem of_unpinned_run {id : SectorId} {p : Placed}
    (h : (run cache n previous answer).1.positions.get? id = some p) (hp : p.pinned = false) :
    ∃ r s, request? cache n = some r ∧ answer r = .ok s ∧ s.verify r = .ok () ∧
      s.positions.get? id = some p.position := by
  rw [get?_positions_run] at h
  have hfresh : (place cache n answer).1.get? id = some p.position := by
    cases hw : (place cache n answer).1.get? id with
    | some q =>
      rw [hw, Option.map_some, Option.some_or, Option.some.injEq] at h
      rw [← h]
    | none =>
      -- a position from the cache would be pinned
      rw [hw, Option.map_none, Option.none_or, Option.map_eq_some_iff] at h
      obtain ⟨q, -, rfl⟩ := h
      exact absurd hp (by simp)
  rcases place_cases cache n answer with ⟨-, heq⟩ | ⟨s, hr, hs, hv, heq⟩ | ⟨failure, -, -, heq⟩
  · rw [heq] at hfresh
    exact absurd hfresh (by simp)
  · rw [heq, get?_batch] at hfresh
    split at hfresh
    · exact ⟨_, s, hr, hs, hv, hfresh⟩
    · exact absurd hfresh (by simp)
  · rw [heq] at hfresh
    exact absurd hfresh (by simp)

theorem pinned_run {id : SectorId} {p : Placed}
    (h : (run cache n previous answer).1.positions.get? id = some p) :
    p.pinned = cache.contains id := by
  rw [positions_run] at h
  split at h
  · obtain ⟨q, -, rfl⟩ := Option.map_eq_some_iff.1 h
    rfl
  · exact absurd h (by simp)

theorem of_pinned_run {id : SectorId} {p : Placed}
    (h : (run cache n previous answer).1.positions.get? id = some p) (hp : p.pinned = true) :
    cache.get? id = some p.position := by
  obtain ⟨q, hq⟩ := (IdMap.contains_eq_true_iff _ _).1 ((pinned_run h).symm.trans hp)
  rw [positions_run] at h
  split at h
  · rw [cache_run_of_cached hq, Option.map_some, Option.some.injEq] at h
    rw [hq, ← h]
  · exact absurd h (by simp)

/-- A displayed sector has a position exactly if the cache knows it after the pass. -/
theorem contains_positions_run (id : SectorId) :
    (run cache n previous answer).1.positions.contains id = true ↔
      id ∈ n.ids ∧ (run cache n previous answer).2.contains id = true := by
  rw [IdMap.contains_eq_isSome, positions_run]
  by_cases hid : id ∈ n.ids
  · simp [hid, IdMap.contains_eq_isSome]
  · simp [hid]

/-! ## The cache -/

/-- **The cache after a pass** has what it had, and the reported positions of the sectors that were
to be placed. -/
theorem get?_cache_run (id : SectorId) :
    (run cache n previous answer).2.get? id =
      if id ∈ (run cache n previous answer).1.placed then
        ((run cache n previous answer).1.positions.get? id).map (·.position)
      else cache.get? id := by
  have hmem : id ∈ (run cache n previous answer).1.placed ↔ id ∈ n.ids ∧ cache.get? id = none :=
    mem_unplaced_iff
  by_cases hplaced : id ∈ (run cache n previous answer).1.placed
  · rw [if_pos hplaced, positions_run, if_pos (hmem.1 hplaced).1, Option.map_map]
    exact Option.map_id'.symm
  · rw [if_neg hplaced]
    cases hc : cache.get? id with
    | some p => exact cache_run_of_cached hc
    | none =>
      -- a sector that was not cached and is not to be placed is not displayed
      cases hnew : (run cache n previous answer).2.get? id with
      | none => rfl
      | some p => exact absurd (hmem.2 ⟨(cache_run_of_uncached hc hnew).1, hc⟩) hplaced

/-! ## The pass -/

theorem mem_removed_run (id : SectorId) :
    id ∈ (run cache n previous answer).1.removed ↔ previous.contains id = true ∧ id ∉ n.ids := by
  show id ∈ removed previous n ↔ _
  unfold removed
  rw [List.mem_filter, ← IdMap.contains_iff_mem_keys, Bool.not_eq_true', ← Bool.not_eq_true,
    Neighborhood.contains_idSet]

theorem accounted_run (cache : Placement) (n : Neighborhood) (previous : IdSet)
    (answer : Request → Answer) :
    Accounted cache n previous answer (run cache n previous answer).1
      (run cache n previous answer).2 := by
  refine
    { complete_iff := isComplete_run_iff
      skipped_iff := fun failure => status_run_eq_skipped_iff
      placed := unplaced_eq cache n
      added := rfl
      removed := ⟨previous.keys_ascending.filter _, mem_removed_run⟩
      pinned := fun id p h => pinned_run h
      of_pinned := fun id p h => of_pinned_run h
      of_unpinned := fun id p h => of_unpinned_run h
      complete := ?_
      skipped := ?_ }
  · intro h
    refine ⟨fun id => ?_, get?_cache_run⟩
    rw [contains_positions_run]
    exact ⟨And.left, fun hid => ⟨hid, contains_cache_run h hid⟩⟩
  · intro h
    have hcache := cache_run_of_skipped h
    refine ⟨fun id => ?_, hcache⟩
    rw [contains_positions_run, hcache]

/-- **One layout pass.** It makes a request exactly if some displayed sector is not cached. What it
reports and leaves behind is accounted for. And it goes as it does whatever was displayed before,
except for what is added and removed, and whatever the provider would answer to other requests. -/
theorem decided_by_cache_and_answer (cache : Placement) (n : Neighborhood) (previous : IdSet)
    (answer : Request → Answer) :
    ((request? cache n).isSome = true ↔ ∃ id ∈ n.ids, cache.contains id = false) ∧
    Accounted cache n previous answer (run cache n previous answer).1
      (run cache n previous answer).2 ∧
    ∀ (previous' : IdSet) (answer' : Request → Answer),
      (∀ r, request? cache n = some r → answer' r = answer r) →
        let o := (run cache n previous answer).1
        let o' := (run cache n previous' answer').1
        o'.focus = o.focus ∧ o'.positions = o.positions ∧ o'.placed = o.placed ∧
        o'.styles = o.styles ∧ o'.status = o.status ∧
        (run cache n previous' answer').2 = (run cache n previous answer).2 := by
  refine ⟨isSome_request?_iff, accounted_run cache n previous answer, ?_⟩
  intro previous' answer' hanswer o o'
  have hplace : place cache n answer' = place cache n answer := place_congr hanswer
  refine ⟨rfl, ?_, rfl, rfl, congrArg Prod.snd hplace, ?_⟩
  · show IdMap.extend _ ((place cache n answer').1.mapValues _) = _
    rw [hplace]
    rfl
  · rw [cache_run, cache_run, hplace]

/-- Sector 1 is cached and its zero comes back with the other sign; 9 is nobody's concern. -/
example :
    let cache : Placement := IdMap.ofList [(1, ⟨0, 0⟩), (4, ⟨8, 8⟩)]
    let n : Neighborhood := ⟨1, [.ofSector 1 { adjacent := [2] }, .placeholder 2]⟩
    let given : Placement := IdMap.ofList [(1, ⟨-0.0, 0⟩), (2, ⟨1, 0⟩), (9, ⟨5, 5⟩)]
    let pass := run cache n (IdSet.ofList [4]) fun _ => .ok ⟨given, 7⟩
    pass.1.positions.entries = [(1, ⟨⟨0, 0⟩, true⟩), (2, ⟨⟨1, 0⟩, false⟩)] ∧
    pass.2.entries = [(1, ⟨0, 0⟩), (2, ⟨1, 0⟩), (4, ⟨8, 8⟩)] ∧
    pass.1.added = [1, 2] ∧ pass.1.removed = [4] := by
  decide +kernel

end LaneChart.Layout.Pass
