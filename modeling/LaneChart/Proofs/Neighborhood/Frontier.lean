import LaneChart.Proofs.Neighborhood.Search

/-!
# Stand-ins, and the neighbourhood as a whole

A neighbourhood is what the search recorded followed by stand-ins. Choosing a stand-in looks at two
things, the map and the ids that have a place already, so the choice keeps one invariant
(`Frontier.Books`): the recorded ids and the ids of the stand-ins are all different. With it the
whole neighbourhood has no id twice:

> `nodup_ids_extract`: every displayed sector is displayed once.

Which stand-ins there are, and in which order, is said without the loop that chooses them
(`Search.frontier_eq`): they are the first unknown ids among the mentions, as many as there is room
for.
-/

namespace LaneChart

namespace Frontier

variable {map : SectorMap} {room : Nat} {recorded : List SectorId} {f : Frontier}

/-- Next to the recorded ids, the ids of the stand-ins are new and all different, and `seen` knows
them all. -/
structure Books (recorded : List SectorId) (f : Frontier) : Prop where
  seen : ∀ id, f.seen.contains id = true ↔ id ∈ recorded ∨ id ∈ f.standIns.map (·.id)
  distinct : (recorded ++ f.standIns.map (·.id)).Nodup
  placeholders : ∀ s ∈ f.standIns, s = Shown.placeholder s.id

theorem books_mention (h : Books recorded f) (id : SectorId) :
    Books recorded (f.mention map room id) := by
  unfold mention
  split
  · exact h
  · split
    · exact h
    · next hnew =>
      rw [Bool.or_eq_true, not_or, h.seen] at hnew
      have hids : (f.standIns ++ [Shown.placeholder id]).map (·.id) =
          f.standIns.map (·.id) ++ [id] := by
        rw [List.map_append]
        rfl
      -- the id is neither recorded nor a stand-in yet, and there is room for it
      refine ⟨?_, ?_, ?_⟩
      · intro j
        rw [IdMap.contains_insert, Bool.or_eq_true, beq_iff_eq, h.seen, hids, List.mem_append,
          List.mem_singleton, or_comm, or_assoc]
      · rw [hids, ← List.append_assoc, List.nodup_append]
        refine ⟨h.distinct, by simp, ?_⟩
        intro a ha b hb
        rw [List.mem_singleton.1 hb]
        rintro rfl
        exact hnew.2 (List.mem_append.1 ha)
      · intro s hs
        rcases List.mem_append.1 hs with hs | hs
        · exact h.placeholders s hs
        · rw [List.mem_singleton.1 hs]
          rfl

theorem books_mentions (h : Books recorded f) (ids : List SectorId) :
    Books recorded (ids.foldl (mention map room) f) := by
  induction ids generalizing f with
  | nil => exact h
  | cons id ids ih => exact ih (books_mention h id)

theorem contains_mention (h : ∀ x ∈ f.standIns, map.contains x.id = false) (id : SectorId) :
    ∀ x ∈ (f.mention map room id).standIns, map.contains x.id = false := by
  unfold mention
  split
  · exact h
  · split
    · exact h
    · next hnew =>
      rw [Bool.or_eq_true, not_or, Bool.not_eq_true] at hnew
      intro x hx
      rcases List.mem_append.1 hx with hx | hx
      · exact h x hx
      · rw [List.mem_singleton.1 hx]
        exact hnew.1

/-- Stand-ins are chosen for sectors that are not in the map. -/
theorem contains_mentions (h : ∀ x ∈ f.standIns, map.contains x.id = false)
    (ids : List SectorId) :
    ∀ x ∈ (ids.foldl (mention map room) f).standIns, map.contains x.id = false := by
  induction ids generalizing f with
  | nil => exact h
  | cons id ids ih => exact ih (contains_mention h id)

/-! ### The stand-ins as a list -/

/-- The ids of a list that are neither in the map nor seen, each once, in the order of first
mention. -/
def unknown (map : SectorMap) (seen : IdSet) (ids : List SectorId) : List SectorId :=
  (ids.filter fun id => !(map.contains id || seen.contains id)).eraseDups

variable {seen : IdSet} {id : SectorId} {ids : List SectorId}

theorem unknown_cons_of_known (h : (map.contains id || seen.contains id) = true) :
    unknown map seen (id :: ids) = unknown map seen ids := by
  unfold unknown
  rw [List.filter_cons_of_neg (by simp [h])]

/-- What is unknown once an id is seen is what was unknown before, without the id. -/
theorem unknown_cons_of_unknown (h : (map.contains id || seen.contains id) = false) :
    unknown map seen (id :: ids) = id :: unknown map (seen.insert id ()) ids := by
  unfold unknown
  rw [List.filter_cons_of_pos (by simp [h]), List.eraseDups_cons, List.filter_filter]
  congr 2
  apply List.filter_congr
  intro j _
  rw [IdMap.contains_insert]
  cases j == id <;> cases map.contains j <;> cases seen.contains j <;> rfl

/-- **The stand-ins** for some mentions are the first unknown ids among them, as many as there is
room for. -/
theorem standIns_mentions (f : Frontier) (ids : List SectorId) :
    (ids.foldl (mention map room) f).standIns = f.standIns ++
      ((unknown map f.seen ids).take (room - f.standIns.length)).map Shown.placeholder := by
  induction ids generalizing f with
  | nil => simp [unknown]
  | cons id ids ih =>
    rw [List.foldl_cons, ih]
    unfold mention
    split
    · next hfull =>
      rw [Nat.sub_eq_zero_of_le hfull, List.take_zero, List.take_zero]
    · next hroom =>
      split
      · next hknown =>
        rw [unknown_cons_of_known hknown]
      · next hnew =>
        have hleft : room - f.standIns.length =
            room - (f.standIns ++ [Shown.placeholder id]).length + 1 := by
          rw [List.length_append, List.length_singleton]
          omega
        rw [unknown_cons_of_unknown (Bool.eq_false_iff.2 hnew), hleft, List.take_succ_cons,
          List.map_cons, List.append_assoc, List.singleton_append]

end Frontier

namespace Search

variable {map : SectorMap} {limits : Limits} {s : Search}

/-- The stand-ins of a search, listed. -/
theorem frontier_eq (map : SectorMap) (limits : Limits) (s : Search) :
    s.frontier map limits = ((Frontier.unknown map s.seen (s.mentions limits)).take
      (limits.maxSectors - s.found.length)).map Shown.placeholder := by
  unfold frontier
  rw [Frontier.standIns_mentions, List.nil_append, List.length_nil, Nat.sub_zero]

/-- The stand-ins of a finished search, in the terms of its invariant. -/
theorem books_frontier (h : Books map limits s) :
    (s.ids ++ (s.frontier map limits).map (·.id)).Nodup ∧
      ∀ x ∈ s.frontier map limits, x = Shown.placeholder x.id := by
  have hstart : Frontier.Books s.ids ⟨[], s.seen⟩ := by
    refine ⟨?_, ?_, fun x hx => absurd hx List.not_mem_nil⟩
    · intro id
      rw [h.seen]
      simp
    · rw [List.map_nil, List.append_nil]
      exact h.distinct
  have hend : Frontier.Books s.ids ((s.mentions limits).foldl
      (Frontier.mention map (limits.maxSectors - s.found.length)) ⟨[], s.seen⟩) :=
    Frontier.books_mentions hstart _
  exact ⟨hend.distinct, hend.placeholders⟩

/-- Recorded sectors are in the map, and no stand-ins. -/
theorem frontier_of_mem_found (h : Books map limits s) {x : Shown}
    (hx : x ∈ s.found.map (·.1)) : x.frontier = false ∧ map.contains x.id = true := by
  obtain ⟨e, he, rfl⟩ := List.mem_map.1 hx
  obtain ⟨sector, hmap, hshown⟩ := h.recorded e he
  exact ⟨congrArg Shown.frontier hshown, (IdMap.contains_eq_true_iff _ _).2 ⟨sector, hmap⟩⟩

theorem frontier_of_mem_frontier (h : Books map limits s) {x : Shown}
    (hx : x ∈ s.frontier map limits) : x.frontier = true ∧ map.contains x.id = false :=
  ⟨congrArg Shown.frontier ((books_frontier h).2 x hx),
    Frontier.contains_mentions (fun _ hx => absurd hx List.not_mem_nil) _ x hx⟩

end Search

namespace Neighborhood

variable {map : SectorMap} {center : SectorId} {limits : Limits}

/-- A neighbourhood is empty, or it is what a search recorded and then its stand-ins. -/
theorem extract_cases (map : SectorMap) (center : SectorId) (limits : Limits) :
    extract map center limits = .empty center ∨
      extract map center limits = ⟨center,
        ((Search.start center).run map limits (Search.stepBound map)).found.map (·.1) ++
          ((Search.start center).run map limits (Search.stepBound map)).frontier map limits⟩ := by
  unfold extract
  split
  · exact .inl rfl
  · exact .inr rfl

/-- Nothing is displayed around a center that is not in the map, or under a cap of zero. -/
theorem extract_eq_empty (h : limits.maxSectors = 0 ∨ map.contains center = false) :
    extract map center limits = .empty center := by
  unfold extract
  rw [if_pos]
  rcases h with h | h
  · simp [h]
  · simp [h]

/-- What is displayed around any other center. -/
theorem extract_eq (hcap : 1 ≤ limits.maxSectors) (hcenter : map.contains center = true) :
    extract map center limits = ⟨center,
      ((Search.start center).run map limits (Search.stepBound map)).found.map (·.1) ++
        ((Search.start center).run map limits (Search.stepBound map)).frontier map limits⟩ := by
  have hguard : (decide (limits.maxSectors = 0) || !map.contains center) = false := by
    rw [hcenter, decide_eq_false (by omega)]
    rfl
  unfold extract
  rw [hguard, if_neg Bool.false_ne_true]

/-- **Every displayed sector is displayed once.** -/
theorem nodup_ids_extract (map : SectorMap) (center : SectorId) (limits : Limits) :
    (extract map center limits).ids.Nodup := by
  rcases extract_cases map center limits with h | h
  · rw [h]
    exact List.nodup_nil
  · have hbooks := Search.books_run (Search.stepBound map) (Search.books_start map limits center)
    rw [h, ids, List.map_append, List.map_map]
    exact (Search.books_frontier hbooks).1

/-- A displayed sector has the port of its record, and none if it has no record. -/
theorem port_of_mem_extract {x : Shown} (h : x ∈ (extract map center limits).sectors) :
    x.port = (map.get? x.id).bind (·.port) := by
  rcases extract_cases map center limits with heq | heq
  · rw [heq] at h
    exact absurd h List.not_mem_nil
  · have hbooks := Search.books_run (Search.stepBound map) (Search.books_start map limits center)
    rw [heq] at h
    rcases List.mem_append.1 h with hfound | hstandIn
    · obtain ⟨e, he, rfl⟩ := List.mem_map.1 hfound
      obtain ⟨sector, hmap, hshown⟩ := hbooks.recorded e he
      rw [hmap, Option.bind_some]
      exact congrArg Shown.port hshown
    · have hunknown : map.contains x.id = false :=
        (Search.frontier_of_mem_frontier hbooks hstandIn).2
      rw [(IdMap.contains_eq_false_iff _ _).1 hunknown, Option.bind_none]
      exact congrArg Shown.port ((Search.books_frontier hbooks).2 x hstandIn)

theorem contains_idSet (n : Neighborhood) (id : SectorId) :
    n.idSet.contains id = true ↔ id ∈ n.ids := IdSet.contains_ofList _ _

end Neighborhood

end LaneChart
