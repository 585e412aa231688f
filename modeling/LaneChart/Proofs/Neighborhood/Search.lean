import LaneChart.Neighborhood.Extract
import LaneChart.Proofs.IdMap

/-!
# The bookkeeping of the breadth-first search

What one step of the search can do (`step_cases`), the part of its state that only has to be kept
consistent (`Books`), and that it comes to an end of its own accord:

> `step_run_start`: the steps that `stepBound` allows end in a state that has no step left.

The last is an argument about a potential: the queue, and the lanes of the sectors that are not
recorded. A step takes an entry from the queue, and what it adds to the queue it takes from the
lanes. What order the sectors come in is the subject of
`LaneChart.Proofs.Neighborhood.BreadthFirst`.
-/

namespace LaneChart.Search

variable {map : SectorMap} {limits : Limits} {s s' : Search}

/-- The recorded ids, in order. -/
def ids (s : Search) : List SectorId := s.found.map (·.1.id)

/-! ## What a step can do -/

/-- A search has no step when its queue is empty or the cap is reached. -/
theorem step_eq_none_iff :
    s.step map limits = none ↔ s.queue = [] ∨ limits.maxSectors ≤ s.found.length := by
  unfold step
  cases hq : s.queue with
  | nil => simp
  | cons e rest =>
    obtain ⟨id, distance⟩ := e
    by_cases hcap : limits.maxSectors ≤ s.found.length
    · simp [hcap]
    · simp only [hcap, if_false, reduceCtorEq, or_self, iff_false]
      split
      · simp
      · cases map.get? id <;> simp

/-- **Everything a step can do**: below the cap it takes the first entry of the queue. It drops an
entry that is too far, recorded already or not in the map, and records any other. -/
theorem step_cases (h : s.step map limits = some s') :
    s.found.length < limits.maxSectors ∧ ∃ id distance rest, s.queue = (id, distance) :: rest ∧
      ((s' = { s with queue := rest } ∧ (limits.maxHops.toNat < distance ∨
          s.seen.contains id = true ∨ map.contains id = false)) ∨
        (∃ sector, map.get? id = some sector ∧ s.seen.contains id = false ∧
          distance ≤ limits.maxHops.toNat ∧ s' = s.record limits id sector distance rest)) := by
  unfold step at h
  split at h
  · exact absurd h (by simp)
  · next id distance rest hq =>
    split at h
    · exact absurd h (by simp)
    · next hcap =>
      refine ⟨Nat.not_le.1 hcap, id, distance, rest, hq, ?_⟩
      split at h
      · next hskip =>
        refine .inl ⟨(Option.some.inj h).symm, ?_⟩
        rcases Bool.or_eq_true _ _ ▸ hskip with hfar | hseen
        · exact .inl (of_decide_eq_true hfar)
        · exact .inr (.inl hseen)
      · next hkeep =>
        rw [Bool.or_eq_true, not_or, decide_eq_true_eq, Bool.not_eq_true] at hkeep
        split at h
        · next hmap =>
          have hnone : map.contains id = false := (IdMap.contains_eq_false_iff _ _).2 hmap
          exact .inl ⟨(Option.some.inj h).symm, .inr (.inr hnone)⟩
        · next sector hmap =>
          exact .inr ⟨sector, hmap, hkeep.2, Nat.not_lt.1 hkeep.1, (Option.some.inj h).symm⟩

/-! ## Books -/

/-- The state of a search is consistent: the recorded sectors are sectors of the map, each recorded
once and as its record describes it, `seen` is the set of their ids, and they fit under the cap. -/
structure Books (map : SectorMap) (limits : Limits) (s : Search) : Prop where
  seen : ∀ id, s.seen.contains id = true ↔ id ∈ s.ids
  distinct : s.ids.Nodup
  recorded : ∀ e ∈ s.found, ∃ sector, map.get? e.1.id = some sector ∧
    e.1 = Shown.ofSector e.1.id sector
  room : s.found.length ≤ limits.maxSectors

theorem Books.not_mem_ids (h : Books map limits s) {id : SectorId}
    (hid : s.seen.contains id = false) : id ∉ s.ids := by
  intro hmem
  rw [(h.seen id).2 hmem] at hid
  exact Bool.noConfusion hid

theorem Books.seen_eq_false (h : Books map limits s) {id : SectorId} (hid : id ∉ s.ids) :
    s.seen.contains id = false := by
  rw [← Bool.not_eq_true]
  intro hseen
  exact hid ((h.seen id).1 hseen)

/-- What is recorded is in the map. -/
theorem Books.contains_of_seen (h : Books map limits s) {id : SectorId}
    (hid : s.seen.contains id = true) : map.contains id = true := by
  obtain ⟨e, he, rfl⟩ := List.mem_map.1 ((h.seen id).1 hid)
  obtain ⟨sector, hmap, -⟩ := h.recorded e he
  exact (IdMap.contains_eq_true_iff _ _).2 ⟨sector, hmap⟩

@[simp] theorem ids_record (id : SectorId) (sector : Sector) (distance : Nat)
    (rest : List (SectorId × Nat)) :
    (s.record limits id sector distance rest).ids = s.ids ++ [id] := by
  simp [record, ids, Shown.ofSector]

theorem books_start (map : SectorMap) (limits : Limits) (center : SectorId) :
    Books map limits (start center) :=
  ⟨fun id => by simp [start, ids], List.nodup_nil, fun e he => by simp [start] at he,
    Nat.zero_le _⟩

/-- Recording a sector of the map that is not recorded yet keeps the books. -/
theorem books_record (h : Books map limits s) {id : SectorId} {sector : Sector} {distance : Nat}
    {rest : List (SectorId × Nat)} (hcap : s.found.length < limits.maxSectors)
    (hmap : map.get? id = some sector) (hseen : s.seen.contains id = false) :
    Books map limits (s.record limits id sector distance rest) := by
  refine ⟨?_, ?_, ?_, ?_⟩
  · intro j
    show (s.seen.insert id ()).contains j = true ↔ _
    rw [IdMap.contains_insert, Bool.or_eq_true, beq_iff_eq, h.seen, ids_record, List.mem_append,
      List.mem_singleton, or_comm]
  · rw [ids_record, List.nodup_append]
    refine ⟨h.distinct, by simp, ?_⟩
    intro a ha b hb
    rw [List.mem_singleton.1 hb]
    rintro rfl
    exact h.not_mem_ids hseen ha
  · intro e he
    rcases List.mem_append.1 he with he | he
    · exact h.recorded e he
    · rw [List.mem_singleton.1 he]
      exact ⟨sector, hmap, rfl⟩
  · show (s.found ++ [_]).length ≤ limits.maxSectors
    rw [List.length_append]
    exact hcap

theorem books_step (h : Books map limits s) (hs : s.step map limits = some s') :
    Books map limits s' := by
  obtain ⟨hcap, id, distance, rest, -, hcase⟩ := step_cases hs
  rcases hcase with ⟨rfl, -⟩ | ⟨sector, hmap, hseen, -, rfl⟩
  · exact ⟨h.seen, h.distinct, h.recorded, h.room⟩
  · exact books_record h hcap hmap hseen

theorem run_of_none (hs : s.step map limits = none) (k : Nat) : s.run map limits k = s := by
  cases k with
  | zero => rfl
  | succ k => rw [run, hs]

theorem run_of_some (hs : s.step map limits = some s') (k : Nat) :
    s.run map limits (k + 1) = s'.run map limits k := by
  rw [run, hs]

/-- What every step keeps is kept by a run. -/
theorem run_induction {P : Search → Prop}
    (hstep : ∀ {s s'}, P s → s.step map limits = some s' → P s') :
    ∀ (k : Nat) {s : Search}, P s → P (run map limits k s)
  | 0, _, h => h
  | k + 1, s, h => by
    unfold run
    split
    · exact h
    · next s' hs => exact run_induction hstep k (hstep h hs)

theorem books_run (k : Nat) (h : Books map limits s) : Books map limits (s.run map limits k) :=
  run_induction books_step k h

/-! ## The search comes to an end -/

/-- How many lanes the sectors have that are not recorded. -/
def lanesLeft (seen : IdSet) (sectors : List (SectorId × Sector)) : Nat :=
  ((sectors.filter fun e => !seen.contains e.1).flatMap (·.2.adjacent)).length

theorem lanesLeft_cons (seen : IdSet) (e : SectorId × Sector) (l : List (SectorId × Sector)) :
    lanesLeft seen (e :: l) =
      (if seen.contains e.1 then 0 else e.2.adjacent.length) + lanesLeft seen l := by
  unfold lanesLeft
  rw [List.filter_cons]
  by_cases h : seen.contains e.1 = true
  · simp [h]
  · simp [h]

/-- Recording a sector takes its lanes away from those that are left. -/
theorem lanesLeft_insert {seen : IdSet} {id : SectorId} {sector : Sector}
    (hseen : seen.contains id = false) {l : List (SectorId × Sector)} :
    lanesLeft (seen.insert id ()) l ≤ lanesLeft seen l ∧
      ((id, sector) ∈ l →
        lanesLeft (seen.insert id ()) l + sector.adjacent.length ≤ lanesLeft seen l) := by
  induction l with
  | nil => exact ⟨Nat.le_refl _, fun h => absurd h (List.not_mem_nil)⟩
  | cons e l ih =>
    obtain ⟨ihle, ihmem⟩ := ih
    rw [lanesLeft_cons, lanesLeft_cons, IdMap.contains_insert]
    have hhead : (if (e.1 == id || seen.contains e.1) = true then 0 else e.2.adjacent.length) ≤
        if seen.contains e.1 = true then 0 else e.2.adjacent.length := by
      by_cases h : seen.contains e.1 = true
      · simp [h]
      · by_cases he : e.1 = id <;> simp [h, he]
    refine ⟨Nat.add_le_add hhead ihle, ?_⟩
    intro hmem
    rcases List.mem_cons.1 hmem with rfl | hmem
    · -- its lanes are no longer left, and those behind it are at most what they were
      simp only [beq_self_eq_true, Bool.true_or, if_true, hseen, Bool.false_eq_true, if_false]
      omega
    · have := ihmem hmem
      omega

/-- What a search has still to do: the entries of its queue, and the lanes that may yet enter it. -/
def potential (map : SectorMap) (s : Search) : Nat :=
  s.queue.length + lanesLeft s.seen map.entries

theorem length_successors_le (limits : Limits) (seen : IdSet) (sector : Sector) (distance : Nat) :
    (successors limits seen sector distance).length ≤ sector.adjacent.length := by
  unfold successors
  split
  · rw [List.length_map]
    exact List.length_filter_le _ _
  · exact Nat.zero_le _

/-- Every step lowers the potential. -/
theorem potential_step (hs : s.step map limits = some s') :
    potential map s' < potential map s := by
  obtain ⟨-, id, distance, rest, hq, hcase⟩ := step_cases hs
  unfold potential
  rw [hq, List.length_cons]
  rcases hcase with ⟨rfl, -⟩ | ⟨sector, hmap, hseen, -, rfl⟩
  · show rest.length + lanesLeft s.seen map.entries < _
    omega
  · show (rest ++ successors limits (s.seen.insert id ()) sector distance).length +
      lanesLeft (s.seen.insert id ()) map.entries < _
    rw [List.length_append]
    have hleft : lanesLeft (s.seen.insert id ()) map.entries + sector.adjacent.length ≤
        lanesLeft s.seen map.entries :=
      (lanesLeft_insert hseen).2 ((IdMap.get?_eq_some_iff _).1 hmap)
    have hnew := length_successors_le limits (s.seen.insert id ()) sector distance
    omega

/-- As many steps as the potential says end in a state that has no step left. -/
theorem step_run_of_potential_le : ∀ (k : Nat) {s : Search}, potential map s ≤ k →
    (run map limits k s).step map limits = none
  | 0, s, h => by
    have hq : s.queue = [] := by
      unfold potential at h
      exact List.eq_nil_of_length_eq_zero (by omega)
    exact step_eq_none_iff.2 (.inl hq)
  | k + 1, s, h => by
    unfold run
    split
    · next hs => exact hs
    · next s' hs =>
      have hlt := potential_step hs
      exact step_run_of_potential_le k (by omega)

theorem stepBound_pos (map : SectorMap) : 0 < stepBound map := Nat.le_add_right ..

theorem potential_start (map : SectorMap) (center : SectorId) :
    potential map (start center) = stepBound map := by
  have hall : (map.entries.filter fun e => !(IdMap.empty : IdSet).contains e.1) = map.entries :=
    List.filter_eq_self.2 fun _ _ => rfl
  show 1 + lanesLeft IdMap.empty map.entries = _
  rw [lanesLeft, hall, stepBound]

/-- **The search ends of its own accord** within the steps that it is given. -/
theorem step_run_start (map : SectorMap) (limits : Limits) (center : SectorId) :
    ((start center).run map limits (stepBound map)).step map limits = none :=
  step_run_of_potential_le _ (Nat.le_of_eq (potential_start map center))

/-- Further steps change nothing once a search has ended. -/
theorem run_of_ended : ∀ {k j : Nat} {s : Search}, (run map limits k s).step map limits = none →
    k ≤ j → run map limits j s = run map limits k s
  | 0, j, _, hend, _ => run_of_none hend j
  | k + 1, j + 1, s, hend, hle => by
    cases hs : s.step map limits with
    | none => rw [run_of_none hs, run_of_none hs]
    | some s' =>
      rw [run_of_some hs] at hend
      rw [run_of_some hs, run_of_some hs]
      exact run_of_ended hend (Nat.le_of_succ_le_succ hle)

/-- A search has one end, however many steps it is given to reach it. -/
theorem run_eq_of_ended {k j : Nat} (hk : (run map limits k s).step map limits = none)
    (hj : (run map limits j s).step map limits = none) :
    run map limits j s = run map limits k s := by
  rcases Nat.le_total k j with hle | hle
  · exact run_of_ended hk hle
  · exact (run_of_ended hj hle).symm

end LaneChart.Search
