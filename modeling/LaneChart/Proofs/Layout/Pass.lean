import LaneChart.Layout.Pass
import LaneChart.Proofs.Neighborhood.Lanes

/-!
# What a layout pass does to the cache

A pass asks for positions of the sectors that the cache does not know and writes what it gets. The
provider may answer anything, so every statement here is for an arbitrary answer. Three facts are
all that the view needs of a pass:

> `cache_run_of_cached`: what the cache knows stays, bit for bit.
> `positions_run`: the displayed sectors are reported where the cache has them afterwards.
> `cache_run_of_skipped`: a skipped pass leaves the cache alone.

The first two rest on one observation about the batch that a pass writes (`Fresh`): it holds
displayed sectors only, none that the cache knew, and only finite positions. The contract
(`Solution.verify`) is what makes it so; it compares pinned positions by the equality of the
arithmetic, so an echoed zero may have either sign, and it does not look at ids that nobody asked
for. Neither reaches the batch.

A pass can go wrong in one place only, at the answer to its request (`status_run_eq_skipped_iff`),
and the request itself is always a valid one (`validate_request`).
-/

namespace LaneChart.Layout

/-! ## The contract of a solution -/

namespace Solution

/-- A solution keeps the contract for a sector when it places it at a finite position, and a pinned
one where the request has it. -/
theorem breach?_eq_none_iff (s : Solution) (r : Request) (n : Node) :
    s.breach? r n = none ↔
      ∃ p, s.positions.get? n.id = some p ∧ p.isFinite = true ∧
        (r.isPinned n.id = true → n.position.any (·.same p) = true) := by
  unfold breach?
  cases hp : s.positions.get? n.id with
  | none => simp
  | some p =>
    by_cases hf : p.isFinite = true
    · by_cases hpin : r.isPinned n.id = true
      · by_cases hs : n.position.any (·.same p) = true
        · simp [hf, hpin, hs]
        · simp [hf, hpin, hs]
      · simp [hf, hpin]
    · simp [hf]

theorem verify_eq_ok_iff (s : Solution) (r : Request) :
    s.verify r = .ok () ↔ ∀ n ∈ r.nodes, s.breach? r n = none := by
  unfold verify
  rw [← List.findSome?_eq_none_iff]
  cases r.nodes.findSome? (s.breach? r) <;> simp

end Solution

/-- A request is admitted if its pinned sectors have positions and its lanes lead to its sectors. -/
theorem Request.validate_eq_ok_iff (r : Request) :
    r.validate = .ok () ↔
      (∀ n ∈ r.nodes, r.isPinned n.id = true → n.position.isSome = true) ∧
      ∀ l ∈ r.lanes, l.start ∈ r.ids ∧ l.stop ∈ r.ids := by
  have hnodes : r.nodes.find? (fun n => r.isPinned n.id && n.position.isNone) = none ↔
      ∀ n ∈ r.nodes, r.isPinned n.id = true → n.position.isSome = true := by
    rw [List.find?_eq_none]
    refine forall_congr' fun n => imp_congr_right fun _ => ?_
    rw [Bool.and_eq_true, not_and, Bool.not_eq_true, Option.isNone_eq_false_iff]
  have hlanes : r.lanes.find? (fun l => !(IdSet.ofList r.ids).contains l.start ||
      !(IdSet.ofList r.ids).contains l.stop) = none ↔
      ∀ l ∈ r.lanes, l.start ∈ r.ids ∧ l.stop ∈ r.ids := by
    rw [List.find?_eq_none]
    refine forall_congr' fun l => imp_congr_right fun _ => ?_
    rw [Bool.or_eq_true, not_or, Bool.not_eq_true', Bool.not_eq_false, Bool.not_eq_true',
      Bool.not_eq_false, IdSet.contains_ofList, IdSet.contains_ofList]
  unfold validate
  rw [← hnodes, ← hlanes]
  cases r.nodes.find? (fun n => r.isPinned n.id && n.position.isNone) with
  | some n => simp
  | none =>
    simp only [true_and]
    cases r.lanes.find? (fun l => !(IdSet.ofList r.ids).contains l.start ||
      !(IdSet.ofList r.ids).contains l.stop) <;> simp

/-- An answer fails a request: the provider gave up, or its solution breaks the contract. -/
def Answer.Fails (a : Answer) (r : Request) (failure : Failure) : Prop :=
  a = .error failure ∨ ∃ s, a = .ok s ∧ s.verify r = .error failure

/-! ## The request of a pass -/

namespace Pass

variable {cache : Placement} {n : Neighborhood} {previous : IdSet} {answer : Request → Answer}

theorem get?_known (cache : Placement) (ids : List SectorId) (id : SectorId) :
    (known cache ids).get? id = if id ∈ ids then cache.get? id else none :=
  IdMap.get?_ofList_read _ _ _

/-- The sectors to place are the displayed ones that the cache does not know. -/
theorem mem_unplaced_iff {id : SectorId} :
    id ∈ unplaced cache n ↔ id ∈ n.ids ∧ cache.get? id = none := by
  unfold unplaced
  rw [List.mem_filter]
  apply and_congr_right
  intro hid
  rw [Bool.not_eq_true', IdMap.contains_eq_false_iff, get?_known, if_pos hid]

/-- The request that a pass puts to the provider, whether or not it needs one. -/
def request (cache : Placement) (n : Neighborhood) : Request :=
  Request.ofPinned n.ids n.lanes (known cache n.ids)

/-- A request is made exactly when there is a sector to place. -/
theorem request?_eq (cache : Placement) (n : Neighborhood) :
    request? cache n = if n.ids.all (cache.contains ·) then none else some (request cache n) := by
  have hall : (unplaced cache n).isEmpty = n.ids.all (cache.contains ·) := by
    rw [Bool.eq_iff_iff, List.isEmpty_iff, List.eq_nil_iff_forall_not_mem, List.all_eq_true]
    apply forall_congr'
    intro id
    rw [mem_unplaced_iff, ← IdMap.contains_eq_false_iff, not_and, Bool.not_eq_false]
  unfold request?
  rw [hall]
  rfl

/-- The request pins the displayed sectors that the cache knows. -/
theorem isPinned_request (cache : Placement) (n : Neighborhood) (id : SectorId) :
    (request cache n).isPinned id = true ↔ id ∈ n.ids ∧ cache.contains id = true := by
  show ((known cache n.ids).mapValues fun _ _ => ()).contains id = true ↔ _
  rw [IdMap.contains_mapValues, IdMap.contains_eq_isSome, get?_known]
  by_cases hid : id ∈ n.ids
  · simp [hid, IdMap.contains_eq_isSome]
  · simp [hid]

theorem ids_request (cache : Placement) (n : Neighborhood) : (request cache n).ids = n.ids := by
  simp [request, Request.ofPinned, Request.ids, Function.comp_def]

theorem mem_freeIds_request {id : SectorId} :
    id ∈ (request cache n).freeIds ↔ id ∈ n.ids ∧ cache.get? id = none := by
  unfold Request.freeIds
  rw [List.mem_filter, ids_request]
  apply and_congr_right
  intro hid
  rw [Bool.not_eq_true', ← Bool.not_eq_true, isPinned_request, ← IdMap.contains_eq_false_iff,
    not_and, Bool.not_eq_true]
  exact ⟨fun h => h hid, fun h _ => h⟩

/-- The sectors of the request, with what the cache knows of them. -/
theorem mem_nodes_request {node : Node} :
    node ∈ (request cache n).nodes ↔ ∃ id ∈ n.ids, node = ⟨id, cache.get? id⟩ := by
  simp only [request, Request.ofPinned, List.mem_map]
  apply exists_congr
  intro id
  apply and_congr_right
  intro hid
  rw [get?_known, if_pos hid]
  exact eq_comm

/-- **A pass makes no request that is refused.** -/
theorem validate_request (cache : Placement) (n : Neighborhood) :
    (request cache n).validate = .ok () := by
  refine (Request.validate_eq_ok_iff _).2 ⟨?_, ?_⟩
  · intro node hnode hpinned
    obtain ⟨id, -, rfl⟩ := mem_nodes_request.1 hnode
    exact ((isPinned_request cache n id).1 hpinned).2
  · intro l hl
    rw [ids_request]
    exact Neighborhood.ends_of_mem_lanes hl

/-! ## The batch that a pass writes -/

/-- The positions that a solution gives to the sectors that were to be placed. -/
def batch (r : Request) (s : Solution) : Placement :=
  IdMap.ofList (r.freeIds.filterMap fun id => (s.positions.get? id).map (id, ·))

theorem accept_eq_ok_iff {r : Request} {a : Answer} {x : Placement × UInt32} :
    accept r a = .ok x ↔
      ∃ s, a = .ok s ∧ s.verify r = .ok () ∧ x = (batch r s, s.iterations) := by
  cases a with
  | error failure => simp [accept, bind, Except.bind]
  | ok s =>
    simp only [accept, bind, Except.bind]
    cases hv : s.verify r with
    | error failure => simp [hv]
    | ok u =>
      simp only [Except.ok.injEq, exists_eq_left', hv, true_and]
      exact ⟨fun h => (Except.ok.inj h).symm, fun h => congrArg Except.ok h.symm⟩

theorem accept_eq_error_iff {r : Request} {a : Answer} {failure : Failure} :
    accept r a = .error failure ↔ a.Fails r failure := by
  unfold Answer.Fails
  cases a with
  | error failure' => simp [accept, bind, Except.bind]
  | ok s =>
    simp only [accept, bind, Except.bind]
    cases hv : s.verify r with
    | error failure' => simp [hv]
    | ok u => simp [hv, pure, Except.pure]

/-- Everything that the provider step of a pass can come to: nothing had to be placed, or the answer
kept the contract, or the pass was skipped. -/
theorem place_cases (cache : Placement) (n : Neighborhood) (answer : Request → Answer) :
    (request? cache n = none ∧ place cache n answer = (IdMap.empty, .complete 0 0)) ∨
    (∃ s, request? cache n = some (request cache n) ∧ answer (request cache n) = .ok s ∧
      s.verify (request cache n) = .ok () ∧
      place cache n answer =
        (batch (request cache n) s, .complete (unplaced cache n).length s.iterations)) ∨
    (∃ failure, request? cache n = some (request cache n) ∧
      (answer (request cache n)).Fails (request cache n) failure ∧
      place cache n answer = (IdMap.empty, .skipped failure)) := by
  unfold place
  rw [request?_eq]
  by_cases hknown : n.ids.all (cache.contains ·) = true
  · rw [if_pos hknown]
    exact .inl ⟨rfl, rfl⟩
  · rw [if_neg hknown]
    right
    cases ha : accept (request cache n) (answer (request cache n)) with
    | ok x =>
      obtain ⟨s, hs, hv, rfl⟩ := accept_eq_ok_iff.1 ha
      refine .inl ⟨s, rfl, hs, hv, ?_⟩
      simp only [ha]
    | error failure =>
      refine .inr ⟨failure, rfl, accept_eq_error_iff.1 ha, ?_⟩
      simp only [ha]

/-- A pass depends on the provider through its answer to the request, if there is one. -/
theorem place_congr {answer' : Request → Answer}
    (h : ∀ r, request? cache n = some r → answer r = answer' r) :
    place cache n answer = place cache n answer' := by
  unfold place
  cases hr : request? cache n with
  | none => rfl
  | some r => simp only [h r hr]

theorem get?_batch (s : Solution) (id : SectorId) :
    (batch (request cache n) s).get? id =
      if id ∈ n.ids ∧ cache.get? id = none then s.positions.get? id else none := by
  unfold batch
  rw [IdMap.get?_ofList_read]
  simp only [mem_freeIds_request]

/-- A solution that keeps the contract places every displayed sector at a finite position. -/
theorem exists_position_of_verify {s : Solution} (hv : s.verify (request cache n) = .ok ())
    {id : SectorId} (hid : id ∈ n.ids) :
    ∃ p, s.positions.get? id = some p ∧ p.isFinite = true := by
  have hnode := (Solution.verify_eq_ok_iff _ _).1 hv _ (mem_nodes_request.2 ⟨id, hid, rfl⟩)
  obtain ⟨p, hp, hf, -⟩ := (Solution.breach?_eq_none_iff _ _ _).1 hnode
  exact ⟨p, hp, hf⟩

/-- What a pass writes: finite positions of displayed sectors that the cache does not know. -/
structure Fresh (cache : Placement) (n : Neighborhood) (written : Placement) : Prop where
  displayed : ∀ {id p}, written.get? id = some p → id ∈ n.ids
  unknown : ∀ {id p}, written.get? id = some p → cache.get? id = none
  finite : ∀ {id p}, written.get? id = some p → p.isFinite = true

theorem fresh_empty (cache : Placement) (n : Neighborhood) : Fresh cache n IdMap.empty :=
  ⟨fun h => by simp at h, fun h => by simp at h, fun h => by simp at h⟩

theorem fresh_batch {s : Solution} (hv : s.verify (request cache n) = .ok ()) :
    Fresh cache n (batch (request cache n) s) := by
  have hget : ∀ {id p}, (batch (request cache n) s).get? id = some p →
      (id ∈ n.ids ∧ cache.get? id = none) ∧ s.positions.get? id = some p := by
    intro id p h
    rw [get?_batch] at h
    split at h
    · next hid => exact ⟨hid, h⟩
    · exact absurd h (by simp)
  refine ⟨fun h => (hget h).1.1, fun h => (hget h).1.2, ?_⟩
  intro id p h
  obtain ⟨q, hq, hf⟩ := exists_position_of_verify hv (hget h).1.1
  rw [(hget h).2] at hq
  exact Option.some.inj hq ▸ hf

/-- Whatever the provider answers, the batch is `Fresh`. -/
theorem fresh_place (cache : Placement) (n : Neighborhood) (answer : Request → Answer) :
    Fresh cache n (place cache n answer).1 := by
  rcases place_cases cache n answer with ⟨-, h⟩ | ⟨s, -, -, hv, h⟩ | ⟨failure, -, -, h⟩
  · rw [h]
    exact fresh_empty cache n
  · rw [h]
    exact fresh_batch hv
  · rw [h]
    exact fresh_empty cache n

/-- Nothing is written for a sector that the cache knows. -/
theorem place_of_cached {id : SectorId} {p : Position} (h : cache.get? id = some p) :
    (place cache n answer).1.get? id = none := by
  cases hw : (place cache n answer).1.get? id with
  | none => rfl
  | some q =>
    have hunknown := (fresh_place cache n answer).unknown hw
    rw [h] at hunknown
    exact absurd hunknown (by simp)

/-! ## The pass as a whole -/

/-- Whether a pass went through, told by its provider step. -/
theorem isComplete_run :
    (run cache n previous answer).1.isComplete = true ↔
      ∃ placed iterations, (place cache n answer).2 = .complete placed iterations := by
  have hstatus : (run cache n previous answer).1.status = (place cache n answer).2 := rfl
  unfold Outcome.isComplete
  rw [hstatus]
  cases (place cache n answer).2 <;> simp

/-- **When a pass is skipped**: a request was made, and the answer fails it. -/
theorem status_run_eq_skipped_iff {failure : Failure} :
    (run cache n previous answer).1.status = .skipped failure ↔
      ∃ r, request? cache n = some r ∧ (answer r).Fails r failure := by
  show (place cache n answer).2 = .skipped failure ↔ _
  unfold place
  cases request? cache n with
  | none => simp
  | some r =>
    simp only [Option.some.injEq, exists_eq_left', ← accept_eq_error_iff]
    cases accept r (answer r) <;> simp

/-- A pass that makes a request goes through exactly if the answer keeps the contract. -/
theorem isComplete_run_of_request {r : Request} (hr : request? cache n = some r) :
    (run cache n previous answer).1.isComplete = true ↔
      ∃ s, answer r = .ok s ∧ s.verify r = .ok () := by
  rw [isComplete_run]
  unfold place
  rw [hr]
  simp only
  cases ha : accept r (answer r) with
  | ok x =>
    obtain ⟨s, hs, hv, -⟩ := accept_eq_ok_iff.1 ha
    exact iff_of_true ⟨_, _, rfl⟩ ⟨s, hs, hv⟩
  | error failure =>
    refine iff_of_false (by simp) ?_
    rintro ⟨s, hs, hv⟩
    rw [accept_eq_ok_iff.2 ⟨s, hs, hv, rfl⟩] at ha
    exact absurd ha (by simp)

theorem cache_run : (run cache n previous answer).2 = cache.extend (place cache n answer).1 := rfl

/-- **A skipped pass leaves the cache alone.** -/
theorem cache_run_of_skipped (h : (run cache n previous answer).1.isComplete = false) :
    (run cache n previous answer).2 = cache := by
  have hnot : ¬ ∃ placed iterations, (place cache n answer).2 = .complete placed iterations := by
    intro hstatus
    have hcomplete : (run cache n previous answer).1.isComplete = true :=
      isComplete_run.2 hstatus
    exact Bool.false_ne_true (h.symm.trans hcomplete)
  rw [cache_run]
  rcases place_cases cache n answer with ⟨-, hp⟩ | ⟨s, -, -, -, hp⟩ | ⟨failure, -, -, hp⟩
  · exact absurd ⟨0, 0, by rw [hp]⟩ hnot
  · exact absurd ⟨_, _, by rw [hp]⟩ hnot
  · rw [hp, IdMap.extend_empty]

/-- **What the cache knows stays**, bit for bit. -/
theorem cache_run_of_cached {id : SectorId} {p : Position} (h : cache.get? id = some p) :
    (run cache n previous answer).2.get? id = some p := by
  rw [cache_run, IdMap.get?_extend, place_of_cached h, Option.none_or, h]

/-- What a pass adds to the cache is a finite position of a displayed sector. -/
theorem cache_run_of_uncached {id : SectorId} {p : Position} (hnone : cache.get? id = none)
    (h : (run cache n previous answer).2.get? id = some p) :
    id ∈ n.ids ∧ p.isFinite = true := by
  rw [cache_run, IdMap.get?_extend, hnone, Option.or_none] at h
  exact ⟨(fresh_place cache n answer).displayed h, (fresh_place cache n answer).finite h⟩

/-- After a complete pass the cache knows every displayed sector. -/
theorem contains_cache_run (h : (run cache n previous answer).1.isComplete = true)
    {id : SectorId} (hid : id ∈ n.ids) :
    (run cache n previous answer).2.contains id = true := by
  cases hc : cache.get? id with
  | some p => exact (IdMap.contains_eq_true_iff _ _).2 ⟨p, cache_run_of_cached hc⟩
  | none =>
    rw [IdMap.contains_eq_true_iff]
    rw [cache_run, IdMap.get?_extend, hc, Option.or_none]
    obtain ⟨placed, iterations, hs⟩ := isComplete_run.1 h
    rcases place_cases cache n answer with ⟨hr, hp⟩ | ⟨s, -, -, hv, hp⟩ | ⟨failure, -, -, hp⟩
    · -- no request was made, so the cache knew the sector
      rw [request?_eq] at hr
      split at hr
      · next hall =>
        have hcached := List.all_eq_true.1 hall id hid
        exact absurd hcached (by simp [IdMap.contains_eq_isSome, hc])
      · exact absurd hr (by simp)
    · rw [hp, get?_batch, if_pos ⟨hid, hc⟩]
      obtain ⟨p, hp, -⟩ := exists_position_of_verify hv hid
      exact ⟨p, hp⟩
    · rw [hp] at hs
      exact absurd hs (by simp)

/-- After a complete pass the cache knows what it knew before, and the displayed sectors. -/
theorem contains_cache_run_iff (h : (run cache n previous answer).1.isComplete = true)
    (id : SectorId) :
    (run cache n previous answer).2.contains id = true ↔
      cache.contains id = true ∨ id ∈ n.ids := by
  constructor
  · intro hid
    obtain ⟨p, hp⟩ := (IdMap.contains_eq_true_iff _ _).1 hid
    cases hc : cache.get? id with
    | none => exact .inr (cache_run_of_uncached hc hp).1
    | some q => exact .inl ((IdMap.contains_eq_true_iff _ _).2 ⟨q, hc⟩)
  · rintro (hid | hid)
    · obtain ⟨p, hp⟩ := (IdMap.contains_eq_true_iff _ _).1 hid
      exact (IdMap.contains_eq_true_iff _ _).2 ⟨p, cache_run_of_cached hp⟩
    · exact contains_cache_run h hid

/-- The positions of an outcome: those that the pass was given for the sectors it placed, and those
of the cache, pinned, for the others. -/
theorem get?_positions_run (id : SectorId) :
    (run cache n previous answer).1.positions.get? id =
      (((place cache n answer).1.get? id).map fun p => ⟨p, false⟩).or
        ((if id ∈ n.ids then cache.get? id else none).map fun p => ⟨p, true⟩) := by
  show (((known cache n.ids).mapValues fun _ p => (⟨p, true⟩ : Placed)).extend
    ((place cache n answer).1.mapValues fun _ p => ⟨p, false⟩)).get? id = _
  rw [IdMap.get?_extend, IdMap.get?_mapValues, IdMap.get?_mapValues, get?_known]

/-- A displayed sector that the cache knows is reported where the cache has it, pinned, whether the
pass went through or not. -/
theorem positions_run_of_cached {id : SectorId} {p : Position} (hid : id ∈ n.ids)
    (h : cache.get? id = some p) :
    (run cache n previous answer).1.positions.get? id = some ⟨p, true⟩ := by
  rw [get?_positions_run, place_of_cached h, if_pos hid, h]
  rfl

/-- **The positions of an outcome** are those that the cache has after the pass for displayed
sectors; pinned are the ones that it had before. -/
theorem positions_run (id : SectorId) :
    (run cache n previous answer).1.positions.get? id =
      if id ∈ n.ids then
        ((run cache n previous answer).2.get? id).map fun p => ⟨p, cache.contains id⟩
      else none := by
  by_cases hid : id ∈ n.ids
  · rw [if_pos hid]
    cases hc : cache.get? id with
    | some p =>
      rw [positions_run_of_cached hid hc, cache_run_of_cached hc, IdMap.contains_eq_isSome, hc]
      rfl
    | none =>
      rw [get?_positions_run, if_pos hid, hc, Option.map_none, Option.or_none, cache_run,
        IdMap.get?_extend, hc, Option.or_none, IdMap.contains_eq_isSome, hc]
      rfl
  · rw [if_neg hid, get?_positions_run, if_neg hid, Option.map_none, Option.or_none]
    cases hw : (place cache n answer).1.get? id with
    | none => rfl
    | some p => exact absurd ((fresh_place cache n answer).displayed hw) hid

/-- A sector that the cache knows is never among those that a pass has to place. -/
theorem not_mem_placed_run {id : SectorId} {p : Position} (h : cache.get? id = some p) :
    id ∉ (run cache n previous answer).1.placed := by
  show id ∉ unplaced cache n
  rw [mem_unplaced_iff, h]
  exact fun hmem => by simp at hmem

end Pass

end LaneChart.Layout
