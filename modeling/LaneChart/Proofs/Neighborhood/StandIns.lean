import LaneChart.Proofs.Neighborhood.Reach
import LaneChart.Proofs.Occurrence

/-!
# Which stand-ins a neighbourhood has

Stand-ins are chosen by a loop over everything that the recorded sectors mention. What it comes to
can be said without the loop. There is one list of the undiscovered sectors that a neighbourhood
leads to: those that are referred to by a listed sector nearer than the greatest distance, in the
order of the first references (`ListsUndiscovered`, and `ListsUndiscovered.unique` for "one"). The
stand-ins are its first entries, as many as the cap leaves room for:

> `extract_standIns`: a neighbourhood is its discovered sectors and then the stand-ins for the first
> undiscovered ones.

The references that a search has followed are one ascending list (`followed_ordered`), and the loop
takes the ids of this list, each the first time (`pairwise_eraseDups`).
-/

namespace LaneChart

/-! ## The undiscovered sectors -/

theorem Reference.Before.asymm {r t : Reference} (h : r.Before t) : ¬ t.Before r := by
  unfold Before at *
  omega

theorem Reference.Before.irrefl (r : Reference) : ¬ r.Before r := fun h => h.asymm h

/-- Only one reference can be the first of those of one kind. -/
theorem Reference.eq_of_first {P : Reference → Prop} {r t : Reference} (hr : P r) (ht : P t)
    (hfirst : ∀ u, P u → r = u ∨ r.Before u) (hfirst' : ∀ u, P u → t = u ∨ t.Before u) : r = t := by
  rcases hfirst t ht with h | h
  · exact h
  · rcases hfirst' r hr with h' | h'
    · exact h'.symm
    · exact absurd h' h.asymm

theorem FirstReference.unique {sectors : List Shown} {id : SectorId} {r t : Reference}
    (hr : FirstReference sectors id r) (ht : FirstReference sectors id t) : r = t :=
  Reference.eq_of_first hr.refers ht.refers (fun _ => hr.first) (fun _ => ht.first)

/-- A list of ids lists the undiscovered sectors that a list of sectors leads to. -/
structure ListsUndiscovered (map : SectorMap) (center : SectorId) (limits : Limits)
    (sectors : List Shown) (ids : List SectorId) : Prop where
  /-- Listed are the ids that are not in the map and that a sector nearer to the center than the
  greatest distance refers to. -/
  mem_iff : ∀ id, id ∈ ids ↔ map.contains id = false ∧ ∃ s ∈ sectors, id ∈ s.adjacent ∧
    ∃ d, IsDistance map center s.id d ∧ d < limits.maxHops.toNat
  /-- No id is listed twice. -/
  distinct : ids.Nodup
  /-- The order is that of the first references: by the referring sector, and within one sector by
  the place in its adjacency. -/
  ordered : ids.Pairwise fun a b => ∃ r t, FirstReference sectors a r ∧
    FirstReference sectors b t ∧ r.Before t

/-- There is one such list. -/
theorem ListsUndiscovered.unique {map : SectorMap} {center : SectorId} {limits : Limits}
    {sectors : List Shown} {ids other : List SectorId}
    (h : ListsUndiscovered map center limits sectors ids)
    (h' : ListsUndiscovered map center limits sectors other) : other = ids := by
  have hperm : other.Perm ids := by
    rw [List.perm_ext_iff_of_nodup h'.distinct h.distinct]
    intro id
    rw [h'.mem_iff, h.mem_iff]
  refine hperm.eq_of_pairwise ?_ h'.ordered h.ordered
  rintro a b - - ⟨r, t, hr, ht, hrt⟩ ⟨t', r', ht', hr', htr⟩
  -- the first references to the two cannot each come before the other
  rw [ht'.unique ht, hr'.unique hr] at htr
  exact absurd htr hrt.asymm

namespace Search

variable {map : SectorMap} {limits : Limits} {center : SectorId} {s : Search}
  {taken waiting : List Traced}

/-! ## Each id once, by its first reference -/

/-- The first of some references to an id. -/
abbrev First (l : List Traced) (id : SectorId) (t : Traced) : Prop :=
  FirstEntry Traced.id (fun a b => a.source.Before b.source) l id t

/-! ## The references that a search has followed -/

/-- The references by the recorded sectors that are near enough to lead on, in order. -/
def followed (limits : Limits) (s : Search) : List Traced :=
  s.found.zipIdx.flatMap fun e =>
    references limits IdMap.empty { adjacent := e.1.1.adjacent } e.1.2 e.2

theorem mem_followed {t : Traced} : t ∈ s.followed limits ↔ Sourced limits s t := by
  unfold followed Sourced
  rw [List.mem_flatMap]
  constructor
  · rintro ⟨e, he, ht⟩
    obtain ⟨hnear, hd, hparent, hplace, -⟩ := mem_references.1 ht
    refine ⟨e.1, ?_, hplace, hnear, hd⟩
    rw [hparent]
    exact List.mem_zipIdx_iff_getElem?.1 he
  · rintro ⟨p, hp, hplace, hnear, hd⟩
    refine ⟨(p, t.source.parent), List.mem_zipIdx_iff_getElem?.2 hp, mem_references.2 ?_⟩
    exact ⟨hnear, hd, rfl, hplace, rfl⟩

theorem followed_ordered (limits : Limits) (s : Search) :
    (s.followed limits).Pairwise fun a b => a.source.Before b.source := by
  unfold followed
  rw [List.pairwise_flatMap]
  refine ⟨fun e _ => references_ordered .., ?_⟩
  rw [List.pairwise_iff_getElem]
  intro i j hi hj hij a ha b hb
  left
  rw [(mem_references.1 ha).2.2.1, (mem_references.1 hb).2.2.1]
  simpa using hij

theorem map_id_references (limits : Limits) (sector : Sector) (distance number : Nat) :
    (references limits IdMap.empty sector distance number).map (·.id) =
      if distance < limits.maxHops.toNat then sector.adjacent else [] := by
  unfold references
  split
  · have hall : (sector.adjacent.zipIdx.filter fun e => !(IdMap.empty : IdSet).contains e.1) =
        sector.adjacent.zipIdx := List.filter_eq_self.2 fun _ _ => rfl
    rw [hall, List.map_map]
    exact List.zipIdx_map_fst 0 sector.adjacent
  · rfl

theorem mentions_eq_flatMap (limits : Limits) (s : Search) :
    s.mentions limits =
      s.found.flatMap fun e => if e.2 < limits.maxHops.toNat then e.1.adjacent else [] := by
  unfold mentions
  induction s.found with
  | nil => rfl
  | cons e rest ih =>
    by_cases hnear : e.2 < limits.maxHops.toNat
    · simp [hnear, ih]
    · simp [hnear, ih]

/-- The references lead to what the recorded sectors mention. -/
theorem map_id_followed (limits : Limits) (s : Search) :
    (s.followed limits).map (·.id) = s.mentions limits := by
  unfold followed
  rw [List.map_flatMap, mentions_eq_flatMap]
  conv => rhs; rw [← List.zipIdx_map_fst 0 s.found, List.flatMap_map]
  simp only [map_id_references]

/-- The first of the references that a search has followed to an id is the first reference to the id
among the recorded sectors. -/
theorem Trace.firstReference_of_first (h : Trace map limits center s taken waiting) {id : SectorId}
    {t : Traced} (ht : First (s.followed limits) id t) :
    FirstReference (s.found.map (·.1)) id t.source := by
  have hsourced : Sourced limits s t := mem_followed.1 ht.mem
  constructor
  · obtain ⟨p, hp, hplace, -⟩ := hsourced
    refine ⟨p.1, ?_, ht.key_eq ▸ hplace⟩
    rw [List.getElem?_map, hp]
    rfl
  · rintro r ⟨x, hx, hplace⟩
    rw [List.getElem?_map, Option.map_eq_some_iff] at hx
    obtain ⟨p, hp, rfl⟩ := hx
    rcases Nat.lt_or_ge p.2 limits.maxHops.toNat with hnear | hfar
    · have hentry := ht.first ⟨id, p.2 + 1, r⟩ (mem_followed.2 ⟨p, hp, hplace, hnear, rfl⟩) rfl
      exact hentry.imp_left (congrArg Traced.source)
    · exact .inr (h.before_of_far hsourced hp hfar)

/-- What recorded sectors mention, in terms of their distances. -/
theorem Trace.mem_mentions_iff (h : Trace map limits center s taken waiting) {id : SectorId} :
    id ∈ s.mentions limits ↔ ∃ x ∈ s.found.map (·.1), id ∈ x.adjacent ∧
      ∃ d, IsDistance map center x.id d ∧ d < limits.maxHops.toNat := by
  unfold mentions
  rw [List.mem_flatMap]
  constructor
  · rintro ⟨e, he, hid⟩
    obtain ⟨hfound, hnear⟩ := List.mem_filter.1 he
    exact ⟨e.1, List.mem_map_of_mem hfound, hid, e.2, h.distance e hfound,
      of_decide_eq_true hnear⟩
  · rintro ⟨x, hx, hid, d, hdistance, hnear⟩
    obtain ⟨e, he, rfl⟩ := List.mem_map.1 hx
    rw [hdistance.unique (h.distance e he)] at hnear
    exact ⟨e, List.mem_filter.2 ⟨he, decide_eq_true hnear⟩, hid⟩

/-- The unknown ids among the mentions are in the order of the first references to them. -/
theorem Trace.unknown_ordered (h : Trace map limits center s taken waiting) :
    (Frontier.unknown map s.seen (s.mentions limits)).Pairwise fun a b =>
      ∃ r t, FirstReference (s.found.map (·.1)) a r ∧ FirstReference (s.found.map (·.1)) b t ∧
        r.Before t := by
  have hids : (s.mentions limits).filter (fun id => !(map.contains id || s.seen.contains id)) =
      ((s.followed limits).filter fun t =>
        !(map.contains t.id || s.seen.contains t.id)).map (·.id) := by
    rw [← map_id_followed, List.filter_map]
    rfl
  have hfirst : ∀ {id w}, First ((s.followed limits).filter fun t =>
      !(map.contains t.id || s.seen.contains t.id)) id w →
      FirstReference (s.found.map (·.1)) id w.source := fun hw =>
    h.firstReference_of_first
      (FirstEntry.of_filter (p := fun id => !(map.contains id || s.seen.contains id)) hw)
  unfold Frontier.unknown
  rw [hids]
  refine (pairwise_eraseDups Traced.id _ ((followed_ordered limits s).filter _)).imp ?_
  rintro a b ⟨t, u, ht, hu, htu⟩
  exact ⟨_, _, hfirst ht, hfirst hu, htu⟩

/-- **The unknown ids among the mentions** are the undiscovered sectors that the recorded ones lead
to. -/
theorem Trace.listsUndiscovered (h : Trace map limits center s taken waiting) :
    ListsUndiscovered map center limits (s.found.map (·.1))
      (Frontier.unknown map s.seen (s.mentions limits)) := by
  refine ⟨?_, ?_, h.unknown_ordered⟩
  · intro id
    have hseen : map.contains id = false → s.seen.contains id = false := by
      intro hid
      rw [← Bool.not_eq_true]
      intro hseen
      exact Bool.false_ne_true (hid.symm.trans (h.books.contains_of_seen hseen))
    unfold Frontier.unknown
    rw [List.mem_eraseDups, List.mem_filter, h.mem_mentions_iff, and_comm, Bool.not_eq_true',
      Bool.or_eq_false_iff]
    exact and_congr_left fun _ => ⟨And.left, fun hid => ⟨hid, hseen hid⟩⟩
  · refine h.unknown_ordered.imp ?_
    rintro a b ⟨r, t, hr, ht, hrt⟩ rfl
    rw [hr.unique ht] at hrt
    exact hrt.irrefl

/-- Every stand-in is for a mentioned id. -/
theorem mem_mentions_of_mem_frontier {x : Shown} (hx : x ∈ s.frontier map limits) :
    x.id ∈ s.mentions limits := by
  rw [frontier_eq] at hx
  obtain ⟨id, hid, rfl⟩ := List.mem_map.1 hx
  exact (List.mem_filter.1 (List.mem_eraseDups.1 (List.mem_of_mem_take hid))).1

/-- A stand-in shows nothing of its sector, which is within the greatest distance. -/
theorem Trace.of_mem_frontier (h : Trace map limits center s taken waiting) {x : Shown}
    (hx : x ∈ s.frontier map limits) : x.visited = false ∧ x.adjacent = [] ∧ x.port = none ∧
      ∃ d ≤ limits.maxHops.toNat, x.id ∈ map.reached center d := by
  have hplaceholder := (books_frontier h.books).2 x hx
  exact ⟨congrArg Shown.visited hplaceholder, congrArg Shown.adjacent hplaceholder,
    congrArg Shown.port hplaceholder, h.reached_mentions (mem_mentions_of_mem_frontier hx)⟩

end Search

theorem listsUndiscovered_nil (map : SectorMap) (center : SectorId) (limits : Limits) :
    ListsUndiscovered map center limits [] [] :=
  ⟨fun id => by simp, List.nodup_nil, List.Pairwise.nil⟩

/-! ## The stand-ins of a neighbourhood -/

namespace Neighborhood

variable {map : SectorMap} {center : SectorId} {limits : Limits}

/-- The sectors of a neighbourhood that are known from the map. -/
def discovered (n : Neighborhood) : List Shown := n.sectors.filter (!·.frontier)

/-- The stand-ins of a neighbourhood. -/
def standIns (n : Neighborhood) : List Shown := n.sectors.filter (·.frontier)

theorem discovered_extract (hcap : 1 ≤ limits.maxSectors) (hcenter : map.contains center = true) :
    (extract map center limits).discovered =
      ((Search.start center).run map limits (Search.stepBound map)).found.map (·.1) :=
  filter_frontier_extract hcap hcenter

theorem standIns_extract (hcap : 1 ≤ limits.maxSectors) (hcenter : map.contains center = true) :
    (extract map center limits).standIns =
      ((Search.start center).run map limits (Search.stepBound map)).frontier map limits := by
  have hbooks := Search.books_run (Search.stepBound map) (Search.books_start map limits center)
  unfold standIns
  rw [extract_eq hcap hcenter]
  generalize (Search.start center).run map limits (Search.stepBound map) = s at hbooks ⊢
  have hfound : (s.found.map (·.1)).filter (·.frontier) = [] := by
    apply List.filter_eq_nil_iff.2
    intro x hx
    rw [(Search.frontier_of_mem_found hbooks hx).1]
    exact Bool.false_ne_true
  have hstandIns : (s.frontier map limits).filter (·.frontier) = s.frontier map limits :=
    List.filter_eq_self.2 fun x hx => (Search.frontier_of_mem_frontier hbooks hx).1
  show (s.found.map (·.1) ++ s.frontier map limits).filter (·.frontier) = s.frontier map limits
  rw [List.filter_append, hfound, hstandIns, List.nil_append]

/-- **The stand-ins of a neighbourhood.** It is its discovered sectors, which are in the map, and
then its stand-ins, which are not. The stand-ins are those for the first undiscovered sectors
that the discovered ones lead to, as many as the cap leaves room for. A stand-in is unvisited,
has no lanes and no port, and is within the greatest distance. All in all no sector is displayed
twice, and no more than the cap allows. -/
theorem extract_standIns (map : SectorMap) (center : SectorId) (limits : Limits) :
    let n := extract map center limits
    n.sectors = n.discovered ++ n.standIns ∧
    (∀ x ∈ n.discovered, map.contains x.id = true) ∧
    (∀ x ∈ n.standIns, map.contains x.id = false) ∧
    (∃ ids, ListsUndiscovered map center limits n.discovered ids ∧
      (∀ other, ListsUndiscovered map center limits n.discovered other → other = ids) ∧
      n.standIns = (ids.take (limits.maxSectors - n.discovered.length)).map Shown.placeholder) ∧
    (∀ x ∈ n.standIns, x.visited = false ∧ x.adjacent = [] ∧ x.port = none ∧
      ∃ d ≤ limits.maxHops.toNat, x.id ∈ map.reached center d) ∧
    n.ids.Nodup ∧ n.size ≤ limits.maxSectors := by
  intro n
  by_cases hnothing : limits.maxSectors = 0 ∨ map.contains center = false
  · have hn : n = empty center := extract_eq_empty hnothing
    rw [hn]
    have hnil := listsUndiscovered_nil map center limits
    refine ⟨rfl, fun x hx => absurd hx List.not_mem_nil, fun x hx => absurd hx List.not_mem_nil,
      ⟨[], hnil, fun _ h => hnil.unique h, ?_⟩, fun x hx => absurd hx List.not_mem_nil,
      List.nodup_nil, Nat.zero_le _⟩
    rw [List.take_nil]
    rfl
  · rw [not_or, Bool.not_eq_false] at hnothing
    obtain ⟨hm, hcenter⟩ := hnothing
    have hcap : 0 < limits.maxSectors := Nat.pos_of_ne_zero hm
    obtain ⟨sector, hmap⟩ := (IdMap.contains_eq_true_iff _ _).1 hcenter
    obtain ⟨taken, waiting, htrace⟩ :=
      Search.trace_run_start hcap hmap (Search.stepBound_pos map)
    have hdiscovered : n.discovered = _ := discovered_extract hcap hcenter
    have hstandIns : n.standIns = _ := standIns_extract hcap hcenter
    have hsectors : n.sectors = _ := congrArg sectors (extract_eq hcap hcenter)
    have hnodup : n.ids.Nodup := nodup_ids_extract map center limits
    generalize (Search.start center).run map limits (Search.stepBound map) = s at *
    rw [size, hsectors, hdiscovered, hstandIns]
    have hlist := htrace.listsUndiscovered
    refine ⟨rfl, fun x hx => (Search.frontier_of_mem_found htrace.books hx).2,
      fun x hx => (Search.frontier_of_mem_frontier htrace.books hx).2,
      ⟨_, hlist, fun _ h => hlist.unique h, ?_⟩, fun x hx => htrace.of_mem_frontier hx, hnodup, ?_⟩
    · rw [List.length_map]
      exact Search.frontier_eq map limits s
    · have hroom := htrace.books.room
      rw [List.length_append, List.length_map, Search.frontier_eq, List.length_map,
        List.length_take]
      omega

/-- Sector 3 is at the greatest distance, so what it refers to gets no stand-in. -/
example : (extract (IdMap.ofList [(1, { adjacent := [9, 2, 8] }), (2, { adjacent := [8, 7, 3] }),
    (3, { adjacent := [6, 1] })]) 1 ⟨12, 2⟩).standIns = [9, 8, 7].map Shown.placeholder := by
  decide

end Neighborhood

end LaneChart
