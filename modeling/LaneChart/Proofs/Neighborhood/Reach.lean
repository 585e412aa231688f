import LaneChart.Proofs.Neighborhood.BreadthFirst

/-!
# What a neighbourhood depends on

An extraction looks a sector up in the map when it takes it from the queue, and again when it
decides whether a mentioned sector needs a stand-in. Both times the id is at the end of a route of
at most as many lanes as the greatest distance (`Trace.reached_waiting`, `Trace.reached_mentions`).
What the map holds elsewhere is never looked at:

> `extract_local`: two maps that agree on every id within the greatest distance of a center have the
> same neighbourhood there.

The two extractions take the same steps, since the entry at the front of the queue is looked up
with the same answer (`Trace.step_congr`). They are not given the same number of steps: that
depends on the whole map. It makes no difference, because both searches end of their own accord and
a search has one end (`run_eq_of_ended`).
-/

namespace LaneChart

/-! ## Reach -/

namespace SectorMap

/-- The ids at the ends of all routes of so many lanes from a center. The sectors that a route
passes are in the map; the last one need not be. -/
def reached (map : SectorMap) (center : SectorId) : Nat → List SectorId
  | 0 => [center]
  | d + 1 => (map.reached center d).flatMap fun p =>
    match map.get? p with
    | none => []
    | some sector => sector.adjacent

/-- Two maps agree on every id within so many lanes of a center: they have the same record of it, or
both have none. -/
def AgreesWithin (map other : SectorMap) (center : SectorId) (hops : Nat) : Prop :=
  ∀ d ≤ hops, ∀ id ∈ map.reached center d, other.get? id = map.get? id

instance decidableAgreesWithin (map other : SectorMap) (center : SectorId) (hops : Nat) :
    Decidable (map.AgreesWithin other center hops) :=
  decidable_of_iff
    ((List.range (hops + 1)).all fun d => (map.reached center d).all fun id =>
      decide (other.get? id = map.get? id))
    (by simp only [AgreesWithin, List.all_eq_true, List.mem_range, Nat.lt_succ_iff,
      decide_eq_true_eq])

variable {map other : SectorMap} {center q : SectorId} {d hops : Nat}

theorem mem_reached_succ :
    q ∈ map.reached center (d + 1) ↔
      ∃ p ∈ map.reached center d, ∃ sector, map.get? p = some sector ∧ q ∈ sector.adjacent := by
  rw [reached, List.mem_flatMap]
  refine exists_congr fun p => and_congr_right fun _ => ?_
  cases map.get? p <;> simp

/-- A sector of the map is reached exactly if a route leads to it. -/
theorem route_iff_mem_reached :
    Route map center d q ↔ q ∈ map.reached center d ∧ map.contains q = true := by
  constructor
  · intro h
    induction h with
    | here hcenter => exact ⟨List.mem_singleton.2 rfl, hcenter⟩
    | lane _ hsector hq hmap ih => exact ⟨mem_reached_succ.2 ⟨_, ih.1, _, hsector, hq⟩, hmap⟩
  · rintro ⟨hreached, hmap⟩
    induction d generalizing q with
    | zero =>
      rw [reached, List.mem_singleton] at hreached
      subst hreached
      exact .here hmap
    | succ d ih =>
      obtain ⟨p, hp, sector, hsector, hq⟩ := mem_reached_succ.1 hreached
      exact .lane (ih hp ((IdMap.contains_eq_true_iff _ _).2 ⟨_, hsector⟩)) hsector hq hmap

/-- The maps agree on the center itself. -/
theorem AgreesWithin.get?_center (h : map.AgreesWithin other center hops) :
    other.get? center = map.get? center :=
  h 0 (Nat.zero_le _) center (List.mem_singleton.2 rfl)

end SectorMap

namespace Search

variable {map other : SectorMap} {limits : Limits} {center : SectorId} {s : Search}
  {taken waiting : List Traced}

/-- What a recorded sector mentions is one lane farther than the sector. -/
theorem Trace.reached_adjacent (h : Trace map limits center s taken waiting) {e : Shown × Nat}
    (he : e ∈ s.found) {q : SectorId} (hq : q ∈ e.1.adjacent) :
    q ∈ map.reached center (e.2 + 1) := by
  obtain ⟨sector, hsector, hshown⟩ := h.books.recorded e he
  rw [hshown] at hq
  have hreached := (SectorMap.route_iff_mem_reached.1 (h.distance e he).route).1
  exact SectorMap.mem_reached_succ.2 ⟨_, hreached, sector, hsector, hq⟩

/-- The search looks only at ids within the greatest distance. -/
theorem Trace.reached_waiting (h : Trace map limits center s taken waiting) {w : Traced}
    (hw : w ∈ waiting) :
    w.distance ≤ limits.maxHops.toNat ∧ w.id ∈ map.reached center w.distance := by
  obtain ⟨p, hp, hplace, hnear, hd⟩ := h.sourced w (List.mem_append_right _ hw)
  rw [hd]
  exact ⟨hnear, h.reached_adjacent (List.mem_of_getElem? hp) (List.mem_of_getElem? hplace)⟩

/-- Stand-ins are considered only for ids within the greatest distance. -/
theorem Trace.reached_mentions (h : Trace map limits center s taken waiting) {id : SectorId}
    (hid : id ∈ s.mentions limits) :
    ∃ d ≤ limits.maxHops.toNat, id ∈ map.reached center d := by
  obtain ⟨e, he, hadjacent⟩ := List.mem_flatMap.1 hid
  obtain ⟨hfound, hnear⟩ := List.mem_filter.1 he
  exact ⟨e.2 + 1, of_decide_eq_true hnear, h.reached_adjacent hfound hadjacent⟩

/-! ## Two maps -/

/-- The next step is the same in both maps. -/
theorem Trace.step_congr (h : Trace map limits center s taken waiting)
    (hagree : map.AgreesWithin other center limits.maxHops.toNat) :
    s.step other limits = s.step map limits := by
  have hqueue := h.queue
  cases waiting with
  | nil =>
    unfold Search.step
    rw [hqueue]
    rfl
  | cons w waiting =>
    obtain ⟨hnear, hreached⟩ := h.reached_waiting (List.mem_cons_self ..)
    unfold Search.step
    rw [hqueue]
    simp only [List.map_cons, Traced.entry, hagree _ hnear _ hreached]

theorem Trace.run_congr (hagree : map.AgreesWithin other center limits.maxHops.toNat) :
    ∀ (k : Nat) {s : Search} {taken waiting : List Traced},
      Trace map limits center s taken waiting → s.run other limits k = s.run map limits k
  | 0, _, _, _, _ => rfl
  | k + 1, s, _, _, h => by
    have hstep := h.step_congr hagree
    cases hs : s.step map limits with
    | none => rw [run_of_none hs, run_of_none (hstep.trans hs)]
    | some s' =>
      obtain ⟨_, _, hafter⟩ := h.step hs
      rw [run_of_some hs, run_of_some (hstep.trans hs)]
      exact hafter.run_congr hagree k

/-- Any number of steps is the same in both maps. -/
theorem run_start_congr (hagree : map.AgreesWithin other center limits.maxHops.toNat)
    (hcap : 0 < limits.maxSectors) {sector : Sector} (hmap : map.get? center = some sector)
    (k : Nat) : (start center).run other limits k = (start center).run map limits k := by
  cases k with
  | zero => rfl
  | succ k =>
    rw [run_start hcap hmap, run_start hcap (hagree.get?_center.trans hmap)]
    exact (trace_center hcap hmap).run_congr hagree k

/-- **The finished search** is the same in both maps, though its number of steps was bounded by
different numbers. -/
theorem finished_congr (hagree : map.AgreesWithin other center limits.maxHops.toNat)
    (hcap : 0 < limits.maxSectors) {sector : Sector} (hmap : map.get? center = some sector) :
    (start center).run other limits (stepBound other) =
      (start center).run map limits (stepBound map) := by
  have hend := step_run_start other limits center
  rw [run_start_congr hagree hcap hmap] at hend ⊢
  refine run_eq_of_ended (step_run_start map limits center) ?_
  obtain ⟨_, _, htrace⟩ := trace_run_start hcap hmap (stepBound_pos other)
  rw [← htrace.step_congr hagree]
  exact hend

/-- Maps that agree on what a search mentions give it the same stand-ins. -/
theorem frontier_congr (h : ∀ id ∈ s.mentions limits, other.get? id = map.get? id) :
    s.frontier other limits = s.frontier map limits := by
  have hunknown : Frontier.unknown other s.seen (s.mentions limits) =
      Frontier.unknown map s.seen (s.mentions limits) := by
    refine congrArg List.eraseDups (List.filter_congr fun id hid => ?_)
    have hcontains : other.contains id = map.contains id := congrArg Option.isSome (h id hid)
    rw [hcontains]
  rw [frontier_eq, frontier_eq, hunknown]

end Search

/-- **A neighbourhood is local**: two maps that agree on every id within the greatest distance of a
center have the same neighbourhood there. -/
theorem Neighborhood.extract_local {map other : SectorMap} {center : SectorId} {limits : Limits}
    (h : map.AgreesWithin other center limits.maxHops.toNat) :
    extract other center limits = extract map center limits := by
  have hcontains : other.contains center = map.contains center :=
    congrArg Option.isSome h.get?_center
  by_cases hnothing : limits.maxSectors = 0 ∨ map.contains center = false
  · rw [extract_eq_empty hnothing, extract_eq_empty (hcontains ▸ hnothing)]
  · rw [not_or, Bool.not_eq_false] at hnothing
    obtain ⟨hm, hcenter⟩ := hnothing
    have hcap : 0 < limits.maxSectors := Nat.pos_of_ne_zero hm
    obtain ⟨sector, hmap⟩ := (IdMap.contains_eq_true_iff _ _).1 hcenter
    obtain ⟨_, _, htrace⟩ := Search.trace_run_start hcap hmap (Search.stepBound_pos map)
    rw [extract_eq hcap hcenter, extract_eq hcap (hcontains.trans hcenter),
      Search.finished_congr h hcap hmap]
    refine congrArg (fun standIns => mk center (_ ++ standIns)) (Search.frontier_congr ?_)
    intro id hid
    obtain ⟨d, hd, hreached⟩ := htrace.reached_mentions hid
    exact h d hd id hreached

/-- The tangled map with another record of sector 6, three lanes from the center, and with sector 77
discovered, which no lane leads to. -/
def SectorMap.retangled : SectorMap :=
  tangled.insertAll [(6, { adjacent := [9, 77], visited := true }), (77, { adjacent := [1] })]

/-- Within two lanes of the center nobody can tell the two maps apart. -/
theorem Neighborhood.extract_retangled_local :
    SectorMap.retangled.get? 6 ≠ SectorMap.tangled.get? 6 ∧
    SectorMap.tangled.AgreesWithin .retangled 1 (⟨12, 2⟩ : Limits).maxHops.toNat ∧
    (extract .tangled 1 ⟨12, 2⟩).ids = [1, 3, 2, 5, 4, 9] ∧
    extract .retangled 1 ⟨12, 2⟩ = extract .tangled 1 ⟨12, 2⟩ :=
  ⟨by decide, by decide, by decide, extract_local (by decide)⟩

end LaneChart
