import LaneChart.IdMap

/-!
# Laws of maps keyed by sector ids

`LaneChart.IdMap` says what one entry does to `get?`; here are the operations on whole maps. The
view writes its cache and its table of rendered positions by `extend`, and every batch it writes is
read off a list of ids by `ofList`, so two statements carry most of what is proved of the view:

> `get?_extend`: an id answers from the second map, and from the first where that is silent.
> `get?_ofList_read`: a map read off a list of ids answers exactly for the listed ids.

The rest removes entries (`erase`) and compares the listed ids of two maps.
-/

namespace LaneChart.IdMap

variable {α β : Type}

/-! ## Writing a whole map -/

/-- Behind the head of an ascending list there is no second entry of its id. -/
theorem lookup_head_eq_none {a : SectorId × α} {l : List (SectorId × α)}
    (h : (a :: l).Pairwise (fun a b => a.1 < b.1)) : l.lookup a.1 = none := by
  obtain ⟨ha, hl⟩ := List.pairwise_cons.1 h
  cases hv : l.lookup a.1 with
  | none => rfl
  | some v => exact absurd (ha _ ((lookup_eq_some_iff hl).1 hv)) (UInt64.lt_irrefl _)

/-- Reading an ascending list backwards finds the same entries. -/
theorem lookup_reverse {l : List (SectorId × α)} (h : l.Pairwise (fun a b => a.1 < b.1))
    (id : SectorId) : l.reverse.lookup id = l.lookup id := by
  induction l with
  | nil => rfl
  | cons a l ih =>
    rw [List.reverse_cons, List.lookup_append, ih (List.pairwise_cons.1 h).2, lookup_cons,
      lookup_cons, List.lookup_nil]
    by_cases he : id = a.1
    · rw [he, lookup_head_eq_none h, Option.none_or, if_pos rfl]
    · rw [if_neg he, Option.or_none, if_neg he]

/-- **Writing one map over another**: an id answers from the second map, and from the first where
the second is silent. -/
theorem get?_extend (m n : IdMap α) (id : SectorId) :
    (m.extend n).get? id = (n.get? id).or (m.get? id) := by
  rw [extend, get?_insertAll, lookup_reverse n.ascending]
  rfl

@[simp] theorem extend_empty (m : IdMap α) : m.extend empty = m := rfl

/-- A list of ids, each with what a function answers for it, finds exactly the listed ids. -/
theorem lookup_read (f : SectorId → Option α) (ids : List SectorId) (id : SectorId) :
    (ids.filterMap fun i => (f i).map (i, ·)).lookup id = if id ∈ ids then f id else none := by
  induction ids with
  | nil => rfl
  | cons a ids ih =>
    by_cases he : id = a
    · subst he
      rw [if_pos (List.mem_cons_self ..)]
      cases hf : f id with
      | none =>
        rw [List.filterMap_cons_none (by rw [hf]; rfl), ih, hf, ite_self]
      | some v =>
        rw [List.filterMap_cons_some (by rw [hf]; rfl), lookup_cons, if_pos rfl]
    · have hmem : (id ∈ a :: ids) = (id ∈ ids) := by
        rw [List.mem_cons]
        exact propext ⟨fun h => h.resolve_left he, .inr⟩
      simp only [hmem]
      cases hf : f a with
      | none => rw [List.filterMap_cons_none (by rw [hf]; rfl), ih]
      | some v =>
        rw [List.filterMap_cons_some (by rw [hf]; rfl), lookup_cons, if_neg he, ih]

/-- **A map read off a list of ids** answers exactly for the listed ids, with what was read. Ids
may be listed more than once. -/
theorem get?_ofList_read (f : SectorId → Option α) (ids : List SectorId) (id : SectorId) :
    (ofList (ids.filterMap fun i => (f i).map (i, ·))).get? id =
      if id ∈ ids then f id else none := by
  rw [ofList, get?_insertAll, get?_empty, Option.or_none, ← List.filterMap_reverse, lookup_read]
  simp only [List.mem_reverse]

/-- Among entries of different ids each one is found. -/
theorem lookup_of_mem {l : List (SectorId × α)} (hnodup : (l.map (·.1)).Nodup) {id : SectorId}
    {value : α} (h : (id, value) ∈ l) : l.lookup id = some value := by
  induction l with
  | nil => exact absurd h List.not_mem_nil
  | cons a l ih =>
    obtain ⟨ha, hl⟩ := List.nodup_cons.1 hnodup
    rw [lookup_cons]
    rcases List.mem_cons.1 h with rfl | h
    · exact if_pos rfl
    · have hne : id ≠ a.1 := by
        rintro rfl
        exact ha (List.mem_map.2 ⟨_, h, rfl⟩)
      rw [if_neg hne, ih hl h]

/-- A map of entries of different ids holds each one of them. -/
theorem get?_ofList_of_mem {l : List (SectorId × α)} (hnodup : (l.map (·.1)).Nodup) {id : SectorId}
    {value : α} (h : (id, value) ∈ l) : (ofList l).get? id = some value := by
  have hreverse : (l.reverse.map (·.1)).Nodup := by
    rw [List.map_reverse]
    exact List.pairwise_reverse.2 (hnodup.imp Ne.symm)
  rw [ofList, get?_insertAll, lookup_of_mem hreverse (List.mem_reverse.2 h), Option.some_or]

/-- A map of some entries knows exactly their ids. -/
theorem contains_ofList (l : List (SectorId × α)) (id : SectorId) :
    (ofList l).contains id = true ↔ id ∈ l.map (·.1) := by
  rw [contains, ofList, get?_insertAll, get?_empty, Option.or_none, List.lookup_isSome_iff,
    List.mem_map]
  refine exists_congr fun e => ?_
  rw [List.mem_reverse, beq_iff_eq, eq_comm]

/-! ## Removing entries -/

/-- The entries of the ids that a test accepts. -/
theorem get?_filterKeys (p : SectorId → Bool) (m : IdMap α) (id : SectorId) :
    (m.filterKeys p).get? id = if p id then m.get? id else none := by
  obtain ⟨l, hl⟩ := m
  show (l.filter fun e => p e.1).lookup id = if p id then l.lookup id else none
  clear hl
  induction l with
  | nil => rw [List.filter_nil, List.lookup_nil, ite_self]
  | cons a l ih =>
    by_cases hp : p a.1
    · rw [List.filter_cons, if_pos hp, lookup_cons, lookup_cons, ih]
      by_cases he : id = a.1
      · rw [if_pos he, if_pos he, he, if_pos hp]
      · rw [if_neg he, if_neg he]
    · rw [List.filter_cons, if_neg hp, lookup_cons, ih]
      by_cases he : id = a.1
      · rw [he, if_neg hp, if_neg hp]
      · rw [if_neg he]

/-- Remove the entry of an id. -/
def erase (m : IdMap α) (id : SectorId) : IdMap α := m.filterKeys (· != id)

theorem get?_erase (m : IdMap α) (id j : SectorId) :
    (m.erase id).get? j = if j = id then none else m.get? j := by
  rw [erase, get?_filterKeys]
  by_cases h : j = id
  · rw [if_neg (by simp [h]), if_pos h]
  · rw [if_pos (by simp [h]), if_neg h]

/-- Removing some entries, one after the other. -/
theorem get?_foldl_erase (m : IdMap α) (ids : List SectorId) (j : SectorId) :
    (ids.foldl erase m).get? j = if j ∈ ids then none else m.get? j := by
  induction ids generalizing m with
  | nil => rfl
  | cons a ids ih =>
    rw [List.foldl_cons, ih, get?_erase]
    by_cases hj : j ∈ ids
    · rw [if_pos hj, if_pos (List.mem_cons_of_mem _ hj)]
    · rw [if_neg hj]
      simp only [List.mem_cons, hj, or_false]

/-! ## The listed ids -/

theorem contains_eq_isSome (m : IdMap α) (id : SectorId) :
    m.contains id = (m.get? id).isSome := rfl

theorem contains_eq_true_iff (m : IdMap α) (id : SectorId) :
    m.contains id = true ↔ ∃ value, m.get? id = some value := by
  rw [contains_eq_isSome, Option.isSome_iff_exists]

theorem contains_eq_false_iff (m : IdMap α) (id : SectorId) :
    m.contains id = false ↔ m.get? id = none := by
  rw [contains_eq_isSome, Option.isSome_eq_false_iff, Option.isNone_iff_eq_none]

@[simp] theorem contains_empty (id : SectorId) : (empty : IdMap α).contains id = false := rfl

theorem contains_insert (m : IdMap α) (id : SectorId) (value : α) (j : SectorId) :
    (m.insert id value).contains j = (j == id || m.contains j) := by
  rw [contains_eq_isSome, get?_insert]
  by_cases h : j = id
  · simp [h]
  · simp [h, contains_eq_isSome]

theorem contains_mapValues (f : SectorId → α → β) (m : IdMap α) (id : SectorId) :
    (m.mapValues f).contains id = m.contains id := by
  rw [contains_eq_isSome, get?_mapValues, Option.isSome_map, contains_eq_isSome]

/-- Two maps that know the same ids list the same ids. -/
theorem keys_eq_of_contains {m : IdMap α} {n : IdMap β}
    (h : ∀ id, m.contains id = n.contains id) : m.keys = n.keys := by
  have hm : m.keys = (m.mapValues fun _ _ => ()).keys := by
    simp [keys, mapValues, List.map_map, Function.comp_def]
  have hn : n.keys = (n.mapValues fun _ _ => ()).keys := by
    simp [keys, mapValues, List.map_map, Function.comp_def]
  rw [hm, hn]
  refine congrArg keys (ext_get? ?_)
  intro id
  have hid : (m.get? id).isSome = (n.get? id).isSome := h id
  rw [get?_mapValues, get?_mapValues]
  cases hm : m.get? id <;> cases hn : n.get? id <;> simp_all

theorem keys_nodup (m : IdMap α) : m.keys.Nodup :=
  m.keys_ascending.imp fun hlt => UInt64.ne_of_lt hlt

end LaneChart.IdMap
