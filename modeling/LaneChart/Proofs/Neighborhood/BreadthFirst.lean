import LaneChart.Proofs.Neighborhood.Frontier
import LaneChart.Proofs.Neighborhood.Trace

/-!
# A neighbourhood lists sectors in breadth-first order

What a breadth-first listing of a map is can be said without a queue: `IsBreadthFirst` speaks of
distances and of the places where sectors are first referred to. The references that a search has
followed (`Search.Trace`) say the same of what it recorded, once it has no step left:

> `extract_isBreadthFirst`: below the frontier, a neighbourhood is the breadth-first listing of the
> map from its center, cut off at the greatest distance and at the cap.
-/

namespace LaneChart

/-- A list of sectors is the breadth-first listing of a map from a center, cut off at the greatest
distance and at the cap. -/
structure IsBreadthFirst (map : SectorMap) (center : SectorId) (limits : Limits)
    (sectors : List Shown) : Prop where
  /-- The center comes first. -/
  starts : sectors.head?.map (·.id) = some center
  /-- No sector is listed twice. -/
  distinct : (sectors.map (·.id)).Nodup
  /-- Every listed sector is in the map, and listed as its record describes it. -/
  recorded : ∀ s ∈ sectors, ∃ sector, map.get? s.id = some sector ∧
    s.adjacent = sector.adjacent ∧ s.visited = sector.visited ∧ s.port = sector.port
  /-- Every listed sector is within the greatest distance. -/
  near : ∀ s ∈ sectors, ∃ d, IsDistance map center s.id d ∧ d ≤ limits.maxHops.toNat
  /-- Distances never decrease along the list. -/
  sorted : sectors.Pairwise fun a b => ∀ d e, IsDistance map center a.id d →
    IsDistance map center b.id e → d ≤ e
  /-- The earliest listed parent of a sector is one lane nearer to the center than the sector. -/
  nearer : ∀ s ∈ sectors, ∀ d, IsDistance map center s.id (d + 1) →
    ∃ r p, FirstReference sectors s.id r ∧ sectors[r.parent]? = some p ∧
      IsDistance map center p.id d
  /-- Within one distance the order is that of the first references. -/
  ordered : sectors.Pairwise fun a b => ∀ d, IsDistance map center a.id d →
    IsDistance map center b.id d →
      ∃ r t, FirstReference sectors a.id r ∧ FirstReference sectors b.id t ∧ r.Before t
  /-- A sector within the greatest distance is missing only where nearer ones use up the cap. -/
  complete : ∀ q d, IsDistance map center q d → d ≤ limits.maxHops.toNat →
    q ∉ sectors.map (·.id) → sectors.length = limits.maxSectors ∧
      ∀ s ∈ sectors, ∃ e, IsDistance map center s.id e ∧ e ≤ d

namespace Search

variable {map : SectorMap} {limits : Limits} {center : SectorId} {s : Search}
  {taken waiting : List Traced}

/-! ## The listing at the end -/

/-- The reference that recorded a sector is the first one to it. -/
theorem Trace.firstReference (h : Trace map limits center s taken waiting) {t : Traced}
    (ht : t ∈ taken) : FirstReference (s.found.map (·.1)) t.id t.source := by
  obtain ⟨p, hp, hplace, -⟩ := h.sourced t (List.mem_append_left _ ht)
  refine ⟨⟨p.1, by rw [List.getElem?_map, hp]; rfl, hplace⟩, ?_⟩
  intro r hr
  exact h.first t ht r hr

/-- The recorded sectors behind the center are numbered like the references that recorded them. -/
theorem Trace.exists_taken (h : Trace map limits center s taken waiting) {i : Nat}
    {e : Shown × Nat} (he : s.found[i + 1]? = some e) :
    ∃ t, taken[i]? = some t ∧ t.id = e.1.id ∧ t.distance = e.2 := by
  have hget := congrArg (·[i + 1]?) h.found
  simp only [List.getElem?_map, List.getElem?_cons_succ, he, Option.map_some] at hget
  obtain ⟨t, ht, hentry⟩ := Option.map_eq_some_iff.1 hget.symm
  exact ⟨t, ht, (Prod.mk.inj hentry).1, (Prod.mk.inj hentry).2⟩

theorem Trace.exists_center (h : Trace map limits center s taken waiting) :
    ∃ e rest, s.found = e :: rest ∧ e.1.id = center ∧ e.2 = 0 := by
  cases hfound : s.found with
  | nil => exact absurd h.found (by simp [hfound])
  | cons e rest =>
    have hhead := (List.cons.inj (hfound ▸ h.found)).1
    exact ⟨e, rest, rfl, (Prod.mk.inj hhead).1, (Prod.mk.inj hhead).2⟩

/-- Two recorded sectors at one distance come in the order of the first references to them. -/
theorem Trace.ordered_found (h : Trace map limits center s taken waiting) {i j : Nat}
    {a b : Shown × Nat} (ha : s.found[i]? = some a) (hb : s.found[j]? = some b) (hij : i < j)
    (hab : a.2 = b.2) :
    ∃ r t, FirstReference (s.found.map (·.1)) a.1.id r ∧
      FirstReference (s.found.map (·.1)) b.1.id t ∧ r.Before t := by
  obtain ⟨j, rfl⟩ : ∃ k, j = k + 1 := ⟨j - 1, by omega⟩
  obtain ⟨y, hy, hyid, hyd⟩ := h.exists_taken hb
  have hymem : y ∈ taken := List.mem_of_getElem? hy
  cases i with
  | zero =>
    -- the center is alone at its distance
    exfalso
    obtain ⟨e, rest, hfound, -, hzero⟩ := h.exists_center
    rw [hfound] at ha
    rw [← Option.some.inj ha, hzero] at hab
    obtain ⟨p, -, -, -, hpd⟩ := h.sourced y (List.mem_append_left _ hymem)
    omega
  | succ i =>
    obtain ⟨x, hx, hxid, -⟩ := h.exists_taken ha
    have hxmem : x ∈ taken := List.mem_of_getElem? hx
    refine ⟨x.source, y.source, hxid ▸ h.firstReference hxmem, hyid ▸ h.firstReference hymem, ?_⟩
    obtain ⟨hi, rfl⟩ := List.getElem?_eq_some_iff.1 hx
    obtain ⟨hj, rfl⟩ := List.getElem?_eq_some_iff.1 hy
    exact List.pairwise_iff_getElem.1 (List.pairwise_append.1 h.ordered).1 i j hi hj (by omega)

/-- The earliest listed parent of a recorded sector is one lane nearer to the center. -/
theorem Trace.nearer_parent (h : Trace map limits center s taken waiting) {e : Shown × Nat}
    (he : e ∈ s.found) {d : Nat} (hd : e.2 = d + 1) :
    ∃ r p, FirstReference (s.found.map (·.1)) e.1.id r ∧
      (s.found.map (·.1))[r.parent]? = some p ∧ IsDistance map center p.id d := by
  rcases h.mem_found he with ⟨-, hzero⟩ | ⟨t, ht, hid, htd⟩
  · omega
  · obtain ⟨p, hp, -, -, hpd⟩ := h.sourced t (List.mem_append_left _ ht)
    refine ⟨t.source, p.1, hid ▸ h.firstReference ht, by rw [List.getElem?_map, hp]; rfl, ?_⟩
    have hdist := h.distance p (List.mem_of_getElem? hp)
    rw [show d = p.2 by omega]
    exact hdist

/-- When no step is left, whatever is missing within the greatest distance is missing for want of
room. -/
theorem Trace.complete (h : Trace map limits center s taken waiting)
    (hend : s.step map limits = none) {q : SectorId} {d : Nat} (hq : IsDistance map center q d)
    (hd : d ≤ limits.maxHops.toNat) (hmissing : q ∉ s.ids) :
    s.found.length = limits.maxSectors ∧ ∀ e ∈ s.found, e.2 ≤ d := by
  obtain ⟨w, hw, hwd⟩ := h.exists_waiting hq.route hd hmissing
  refine ⟨?_, ?_⟩
  · -- something waits, so it is the cap that stopped the search
    rcases step_eq_none_iff.1 hend with hempty | hcap
    · rw [h.queue, List.map_eq_nil_iff] at hempty
      rw [hempty] at hw
      exact absurd hw List.not_mem_nil
    · exact Nat.le_antisymm h.books.room hcap
  · intro e he
    exact Nat.le_trans (h.found_le_waiting he hw) hwd

/-- The sectors that a search has recorded when it has no step left. -/
theorem Trace.isBreadthFirst (h : Trace map limits center s taken waiting)
    (hend : s.step map limits = none) :
    IsBreadthFirst map center limits (s.found.map (·.1)) := by
  have hids : (s.found.map (·.1)).map (·.id) = s.ids := by rw [List.map_map]; rfl
  refine
    { starts := ?_
      distinct := hids ▸ h.books.distinct
      recorded := ?_
      near := ?_
      sorted := ?_
      nearer := ?_
      ordered := ?_
      complete := ?_ }
  · obtain ⟨e, rest, hfound, hcenter, -⟩ := h.exists_center
    rw [hfound, List.map_cons, List.head?_cons, Option.map_some, hcenter]
  · intro x hx
    obtain ⟨e, he, rfl⟩ := List.mem_map.1 hx
    obtain ⟨sector, hsector, hshown⟩ := h.books.recorded e he
    refine ⟨sector, hsector, ?_⟩
    rw [hshown]
    exact ⟨rfl, rfl, rfl⟩
  · intro x hx
    obtain ⟨e, he, rfl⟩ := List.mem_map.1 hx
    exact ⟨e.2, h.distance e he, h.near e he⟩
  · rw [List.pairwise_map]
    refine h.sorted.imp_of_mem ?_
    intro a b ha hb hle d e hd he
    rw [hd.unique (h.distance a ha), he.unique (h.distance b hb)]
    exact hle
  · intro x hx d hd
    obtain ⟨e, he, rfl⟩ := List.mem_map.1 hx
    exact h.nearer_parent he ((h.distance e he).unique hd)
  · rw [List.pairwise_map, List.pairwise_iff_getElem]
    intro i j hi hj hij d hda hdb
    refine h.ordered_found (List.getElem?_eq_getElem hi) (List.getElem?_eq_getElem hj) hij ?_
    rw [(h.distance _ (List.getElem_mem hi)).unique hda,
      (h.distance _ (List.getElem_mem hj)).unique hdb]
  · intro q d hq hd hmissing
    obtain ⟨hlength, hle⟩ := h.complete hend hq hd (hids ▸ hmissing)
    refine ⟨by rw [List.length_map, hlength], ?_⟩
    intro x hx
    obtain ⟨e, he, rfl⟩ := List.mem_map.1 hx
    exact ⟨e.2, h.distance e he, hle e he⟩

theorem run_start (hcap : 0 < limits.maxSectors) {sector : Sector}
    (hmap : map.get? center = some sector) (k : Nat) :
    (start center).run map limits (k + 1) =
      ((start center).record limits center sector 0 []).run map limits k := by
  have hstep : (start center).step map limits =
      some ((start center).record limits center sector 0 []) := by
    have hroom : ¬ limits.maxSectors ≤ 0 := Nat.not_le.2 hcap
    simp [step, start, hmap, hroom]
  rw [run, hstep]

/-- A search that has taken a step has a trace. -/
theorem trace_run_start (hcap : 0 < limits.maxSectors) {sector : Sector}
    (hmap : map.get? center = some sector) {k : Nat} (hk : 0 < k) :
    ∃ taken waiting, Trace map limits center ((start center).run map limits k) taken waiting := by
  obtain ⟨k, rfl⟩ : ∃ j, k = j + 1 := ⟨k - 1, by omega⟩
  rw [run_start hcap hmap]
  exact (trace_center hcap hmap).run k

end Search

/-- Below the frontier a neighbourhood is what the search recorded. -/
theorem Neighborhood.filter_frontier_extract {map : SectorMap} {center : SectorId}
    {limits : Limits} (hcap : 1 ≤ limits.maxSectors) (hcenter : map.contains center = true) :
    (extract map center limits).sectors.filter (!·.frontier) =
      ((Search.start center).run map limits (Search.stepBound map)).found.map (·.1) := by
  have hbooks := Search.books_run (Search.stepBound map) (Search.books_start map limits center)
  rw [extract_eq hcap hcenter]
  generalize (Search.start center).run map limits (Search.stepBound map) = s at hbooks ⊢
  have hfound : (s.found.map (·.1)).filter (!·.frontier) = s.found.map (·.1) := by
    apply List.filter_eq_self.2
    intro x hx
    rw [(Search.frontier_of_mem_found hbooks hx).1]
    rfl
  have hstandIns : (s.frontier map limits).filter (!·.frontier) = [] := by
    apply List.filter_eq_nil_iff.2
    intro x hx
    rw [(Search.frontier_of_mem_frontier hbooks hx).1]
    exact Bool.false_ne_true
  show (s.found.map (·.1) ++ s.frontier map limits).filter (!·.frontier) = s.found.map (·.1)
  rw [List.filter_append, hfound, hstandIns, List.append_nil]

/-- **The discovered sectors of a neighbourhood are the breadth-first listing of the map** from its
center, within the greatest distance and as far as the cap reaches. -/
theorem Neighborhood.extract_isBreadthFirst {map : SectorMap} {center : SectorId}
    {limits : Limits} (hcap : 1 ≤ limits.maxSectors) (hcenter : map.contains center = true) :
    IsBreadthFirst map center limits
      ((extract map center limits).sectors.filter (!·.frontier)) := by
  obtain ⟨sector, hmap⟩ := (IdMap.contains_eq_true_iff _ _).1 hcenter
  have hrun : (Search.start center).run map limits (Search.stepBound map) =
      ((Search.start center).record limits center sector 0 []).run map limits
        (Search.stepBound map - 1) := by
    rw [← Search.run_start hcap hmap,
      Nat.sub_add_cancel (show 1 ≤ Search.stepBound map from Nat.le_add_right ..)]
  obtain ⟨taken, waiting, htrace⟩ :=
    (Search.trace_center hcap hmap).run (Search.stepBound map - 1)
  rw [← hrun] at htrace
  rw [filter_frontier_extract hcap hcenter]
  exact htrace.isBreadthFirst (Search.step_run_start map limits center)

/-- A map with a lane from a sector to itself, a lane listed twice, a cycle, and a lane to a sector
that is not in the map. -/
def SectorMap.tangled : SectorMap := IdMap.ofList
  [(1, { adjacent := [1, 3, 2, 3, 9] }), (2, { adjacent := [4, 1] }),
   (3, { adjacent := [5, 4], visited := true, port := some "BSB" }), (4, { adjacent := [6] }),
   (5, { adjacent := [1] }), (6, {})]

/-- In the tangled map a cap of five sectors leaves out the last one. -/
theorem Neighborhood.extract_tangled_isBreadthFirst :
    1 ≤ (⟨5, 3⟩ : Limits).maxSectors ∧ SectorMap.tangled.contains 1 = true ∧
    ((extract .tangled 1 ⟨5, 3⟩).sectors.filter (!·.frontier)).map (·.id) = [1, 3, 2, 5, 4] ∧
    IsBreadthFirst .tangled 1 ⟨5, 3⟩ ((extract .tangled 1 ⟨5, 3⟩).sectors.filter (!·.frontier)) :=
  ⟨by decide, by decide, by decide, extract_isBreadthFirst (by decide) (by decide)⟩

end LaneChart
