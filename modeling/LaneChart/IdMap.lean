/-!
# Maps keyed by sector ids

Coordinates, sector records and displayed sets are all keyed by sector ids and all listed in
ascending order of id. `IdMap` is that one container: a list of entries whose ids strictly
ascend. The order is a field of the type, so a map is determined by what it holds:

> `IdMap.ext_get?`: two maps that answer every id alike are the same map.

Every operation is described by what it does to `get?` (`get?_insert`, `get?_extend`, …), and
the list of ids by membership (`mem_keys_iff`), so nothing else needs to look at the entries.
-/

namespace LaneChart

/-- The identifier of a sector in the travel graph. -/
abbrev SectorId := UInt64

/-- A finite map from sector ids, held as its entries in strictly ascending order of id. -/
structure IdMap (α : Type) where
  entries : List (SectorId × α)
  ascending : entries.Pairwise (fun a b => a.1 < b.1)

namespace IdMap

variable {α β : Type}

/-! ## Building and reading -/

/-- The map that holds nothing. -/
def empty : IdMap α := ⟨[], List.Pairwise.nil⟩

instance : Inhabited (IdMap α) := ⟨empty⟩

/-- Put an entry at its place in an ascending list, replacing one of the same id. -/
def insertEntry (id : SectorId) (value : α) : List (SectorId × α) → List (SectorId × α)
  | [] => [(id, value)]
  | e :: rest =>
    if id < e.1 then (id, value) :: e :: rest
    else if e.1 < id then e :: insertEntry id value rest
    else (id, value) :: rest

theorem mem_insertEntry {id : SectorId} {value : α} {l : List (SectorId × α)}
    {e : SectorId × α} (h : e ∈ insertEntry id value l) : e = (id, value) ∨ e ∈ l := by
  induction l with
  | nil => simpa [insertEntry] using h
  | cons a l ih =>
    unfold insertEntry at h
    split at h
    · simpa using h
    · split at h
      · rcases List.mem_cons.1 h with h | h
        · exact .inr (List.mem_cons.2 (.inl h))
        · rcases ih h with h | h
          · exact .inl h
          · exact .inr (List.mem_cons_of_mem _ h)
      · rcases List.mem_cons.1 h with h | h
        · exact .inl h
        · exact .inr (List.mem_cons_of_mem _ h)

theorem insertEntry_ascending {id : SectorId} {value : α} {l : List (SectorId × α)}
    (h : l.Pairwise (fun a b => a.1 < b.1)) :
    (insertEntry id value l).Pairwise (fun a b => a.1 < b.1) := by
  induction l with
  | nil => simp [insertEntry]
  | cons a l ih =>
    obtain ⟨ha, hl⟩ := List.pairwise_cons.1 h
    unfold insertEntry
    split
    · next hlt =>
      refine List.pairwise_cons.2 ⟨fun b hb => ?_, h⟩
      rcases List.mem_cons.1 hb with rfl | hb
      · exact hlt
      · exact UInt64.lt_trans hlt (ha b hb)
    · split
      · next hgt =>
        refine List.pairwise_cons.2 ⟨fun b hb => ?_, ih hl⟩
        rcases mem_insertEntry hb with rfl | hb
        · exact hgt
        · exact ha b hb
      · next hge hle =>
        have heq : a.1 = id := UInt64.le_antisymm (UInt64.not_lt.1 hge) (UInt64.not_lt.1 hle)
        exact List.pairwise_cons.2 ⟨fun b hb => heq ▸ ha b hb, hl⟩

/-- Set the value of an id. -/
def insert (m : IdMap α) (id : SectorId) (value : α) : IdMap α :=
  ⟨insertEntry id value m.entries, insertEntry_ascending m.ascending⟩

/-- The value held for an id. -/
def get? (m : IdMap α) (id : SectorId) : Option α := m.entries.lookup id

/-- Whether an id has a value. -/
def contains (m : IdMap α) (id : SectorId) : Bool := (m.get? id).isSome

/-- The ids that have a value, ascending. -/
def keys (m : IdMap α) : List SectorId := m.entries.map (·.1)

/-- How many ids have a value. -/
def size (m : IdMap α) : Nat := m.entries.length

/-- Whether no id has a value. -/
def isEmpty (m : IdMap α) : Bool := m.entries.isEmpty

/-- Set every listed entry in turn, so that the last one of an id stays. -/
def insertAll (m : IdMap α) (l : List (SectorId × α)) : IdMap α :=
  l.foldl (fun acc e => acc.insert e.1 e.2) m

/-- The map of a list of entries; the last entry of an id counts. -/
def ofList (l : List (SectorId × α)) : IdMap α := empty.insertAll l

/-- Set every entry of a second map. -/
def extend (m n : IdMap α) : IdMap α := m.insertAll n.entries

/-- Apply a function to every value. -/
def mapValues (f : SectorId → α → β) (m : IdMap α) : IdMap β :=
  ⟨m.entries.map (fun e => (e.1, f e.1 e.2)), by
    rw [List.pairwise_map]
    exact m.ascending⟩

/-- The entries whose ids a test accepts. -/
def filterKeys (p : SectorId → Bool) (m : IdMap α) : IdMap α :=
  ⟨m.entries.filter (fun e => p e.1), m.ascending.filter _⟩

/-! ## What the operations do to `get?` -/

/-- Looking an id up in a list compares it with the head first. -/
theorem lookup_cons (e : SectorId × α) (l : List (SectorId × α)) (j : SectorId) :
    (e :: l).lookup j = if j = e.1 then some e.2 else l.lookup j := by
  obtain ⟨k, v⟩ := e
  rw [List.lookup_cons]
  by_cases h : j = k
  · simp [h]
  · have hb : (j == k) = false := by simp [h]
    simp [h, hb]

theorem lookup_insertEntry (id : SectorId) (value : α) (j : SectorId) {l : List (SectorId × α)}
    (h : l.Pairwise (fun a b => a.1 < b.1)) :
    (insertEntry id value l).lookup j = if j = id then some value else l.lookup j := by
  induction l with
  | nil => simp only [insertEntry, lookup_cons, List.lookup_nil]
  | cons a l ih =>
    obtain ⟨ha, hl⟩ := List.pairwise_cons.1 h
    unfold insertEntry
    split
    · simp only [lookup_cons]
    · split
      · next hgt =>
        have hne : a.1 ≠ id := fun e => UInt64.lt_irrefl _ (e ▸ hgt)
        rw [lookup_cons, lookup_cons, ih hl]
        by_cases hja : j = a.1
        · have hj : j ≠ id := fun e => hne (hja ▸ e)
          simp only [hja, hne, if_true, if_false]
        · simp only [hja, if_false]
      · next hge hle =>
        have heq : a.1 = id := UInt64.le_antisymm (UInt64.not_lt.1 hge) (UInt64.not_lt.1 hle)
        rw [lookup_cons, lookup_cons, heq]
        by_cases hj : j = id
        · simp only [hj, if_true]
        · simp only [hj, if_false]

@[simp] theorem get?_empty (id : SectorId) : (empty : IdMap α).get? id = none := rfl

theorem get?_insert (m : IdMap α) (id : SectorId) (value : α) (j : SectorId) :
    (m.insert id value).get? j = if j = id then some value else m.get? j :=
  lookup_insertEntry id value j m.ascending

@[simp] theorem get?_insert_self (m : IdMap α) (id : SectorId) (value : α) :
    (m.insert id value).get? id = some value := by simp [get?_insert]

theorem get?_insert_of_ne (m : IdMap α) {id j : SectorId} (value : α) (h : j ≠ id) :
    (m.insert id value).get? j = m.get? j := by simp [get?_insert, h]

/-- An ascending list finds exactly its entries. -/
theorem lookup_eq_some_iff {l : List (SectorId × α)}
    (h : l.Pairwise (fun a b => a.1 < b.1)) {id : SectorId} {value : α} :
    l.lookup id = some value ↔ (id, value) ∈ l := by
  induction l with
  | nil => simp only [List.lookup_nil, List.not_mem_nil, reduceCtorEq]
  | cons a l ih =>
    obtain ⟨ha, hl⟩ := List.pairwise_cons.1 h
    rw [lookup_cons, List.mem_cons]
    by_cases he : id = a.1
    · subst he
      rw [if_pos rfl, Option.some.injEq]
      refine ⟨fun e => .inl (e ▸ rfl), fun e => ?_⟩
      rcases e with e | e
      · exact (congrArg Prod.snd e).symm
      · exact absurd (ha _ e) (UInt64.lt_irrefl _)
    · rw [if_neg he, ih hl]
      refine ⟨.inr, fun e => ?_⟩
      rcases e with e | e
      · exact absurd (congrArg Prod.fst e) he
      · exact e

theorem get?_eq_some_iff (m : IdMap α) {id : SectorId} {value : α} :
    m.get? id = some value ↔ (id, value) ∈ m.entries :=
  lookup_eq_some_iff m.ascending

/-- The listed ids are those that have a value. -/
theorem mem_keys_iff (m : IdMap α) {id : SectorId} : id ∈ m.keys ↔ (m.get? id).isSome := by
  rw [Option.isSome_iff_exists]
  simp only [get?_eq_some_iff, keys, List.mem_map]
  constructor
  · rintro ⟨e, he, rfl⟩
    exact ⟨e.2, he⟩
  · rintro ⟨v, hv⟩
    exact ⟨(id, v), hv, rfl⟩

theorem contains_iff_mem_keys (m : IdMap α) {id : SectorId} :
    m.contains id = true ↔ id ∈ m.keys := m.mem_keys_iff.symm

theorem keys_ascending (m : IdMap α) : m.keys.Pairwise (· < ·) := by
  rw [keys, List.pairwise_map]
  exact m.ascending

/-- Two ascending lists with the same entries are equal. -/
theorem entries_ext {l k : List (SectorId × α)}
    (hl : l.Pairwise (fun a b => a.1 < b.1)) (hk : k.Pairwise (fun a b => a.1 < b.1))
    (h : ∀ e, e ∈ l ↔ e ∈ k) : l = k := by
  induction l generalizing k with
  | nil =>
    cases k with
    | nil => rfl
    | cons b k => exact absurd ((h b).2 (List.mem_cons_self ..)) (List.not_mem_nil)
  | cons a l ih =>
    cases k with
    | nil => exact absurd ((h a).1 (List.mem_cons_self ..)) (List.not_mem_nil)
    | cons b k =>
      obtain ⟨ha, hl'⟩ := List.pairwise_cons.1 hl
      obtain ⟨hb, hk'⟩ := List.pairwise_cons.1 hk
      have hab : a = b := by
        rcases List.mem_cons.1 ((h a).1 (List.mem_cons_self ..)) with e | e
        · exact e
        · rcases List.mem_cons.1 ((h b).2 (List.mem_cons_self ..)) with e' | e'
          · exact e'.symm
          · exact absurd (UInt64.lt_trans (hb _ e) (ha _ e')) (UInt64.lt_irrefl _)
      subst hab
      refine congrArg (a :: ·) (ih hl' hk' fun e => ⟨fun he => ?_, fun he => ?_⟩)
      · rcases List.mem_cons.1 ((h e).1 (List.mem_cons_of_mem _ he)) with e' | e'
        · exact absurd (e' ▸ ha _ he) (UInt64.lt_irrefl _)
        · exact e'
      · rcases List.mem_cons.1 ((h e).2 (List.mem_cons_of_mem _ he)) with e' | e'
        · exact absurd (e' ▸ hb _ he) (UInt64.lt_irrefl _)
        · exact e'

/-- A map is determined by its answers. -/
theorem ext_get? {m n : IdMap α} (h : ∀ id, m.get? id = n.get? id) : m = n := by
  have he : m.entries = n.entries := by
    refine entries_ext m.ascending n.ascending fun e => ?_
    obtain ⟨id, v⟩ := e
    rw [← get?_eq_some_iff, ← get?_eq_some_iff, h id]
  cases m
  cases n
  cases he
  rfl

/-- After setting a list of entries an id answers with its last one, or as before. -/
theorem get?_insertAll (m : IdMap α) (l : List (SectorId × α)) (id : SectorId) :
    (m.insertAll l).get? id = (l.reverse.lookup id).or (m.get? id) := by
  induction l generalizing m with
  | nil => rfl
  | cons a l ih =>
    rw [insertAll, List.foldl_cons]
    show ((m.insert a.1 a.2).insertAll l).get? id = _
    rw [ih, List.reverse_cons, List.lookup_append, get?_insert, Option.or_assoc]
    congr 1
    rw [lookup_cons, List.lookup_nil]
    by_cases he : id = a.1
    · simp only [he, if_true, Option.some_or]
    · simp only [he, if_false, Option.none_or]

theorem get?_mapValues (f : SectorId → α → β) (m : IdMap α) (id : SectorId) :
    (m.mapValues f).get? id = (m.get? id).map (f id) := by
  obtain ⟨l, hl⟩ := m
  show (l.map (fun e => (e.1, f e.1 e.2))).lookup id = (l.lookup id).map (f id)
  clear hl
  induction l with
  | nil => rfl
  | cons a l ih =>
    rw [List.map_cons, lookup_cons, lookup_cons, ih]
    by_cases he : id = a.1
    · simp only [he, if_true, Option.map_some]
    · simp only [he, if_false]

end IdMap

/-! ## Sets of ids -/

/-- A finite set of sector ids, listed in ascending order by `IdMap.keys`. -/
abbrev IdSet := IdMap Unit

namespace IdSet

/-- The set of the listed ids. -/
def ofList (ids : List SectorId) : IdSet := IdMap.ofList (ids.map (·, ()))

theorem contains_ofList (ids : List SectorId) (id : SectorId) :
    (ofList ids).contains id = true ↔ id ∈ ids := by
  rw [IdMap.contains, ofList, IdMap.ofList, IdMap.get?_insertAll, ← List.map_reverse]
  simp only [IdMap.get?_empty, Option.or_none]
  rw [← List.mem_reverse]
  generalize ids.reverse = l
  induction l with
  | nil => simp only [List.map_nil, List.lookup_nil, Option.isSome_none, List.not_mem_nil,
      Bool.false_eq_true]
  | cons a l ih =>
    rw [List.map_cons, IdMap.lookup_cons, List.mem_cons]
    by_cases he : id = a
    · simp only [he, if_true, Option.isSome_some, true_or]
    · simp only [he, if_false, ih, false_or]

end IdSet

end LaneChart
