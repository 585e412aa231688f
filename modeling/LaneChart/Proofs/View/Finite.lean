import LaneChart.Proofs.View.Run

/-!
# When coordinates stay finite

The contract of a solution lets only finite coordinates in (`Layout.Solution.verify`), but a search
for fewer crossings writes mirror images by a way of its own, and those overflow where coordinates
are large. Nothing checks them: a comparison with a value that is no number is false, so a lane
with such an end crosses nothing, and the flip that produced it counts as an improvement.

> `finite_iff_flips`: in a run all coordinates are finite at every moment exactly if every flip that
> was kept has a finite target; and a neighbourhood can be laid out by some answer exactly if the
> coordinates that the cache has for its sectors are finite.

So one flip that overflows does not only misplace a sector. It stays in the cache until a reset, and
no render that displays the sector next to a new one can succeed before that
(`Solution.exists_verify_iff`); `overflow_sticks` is such a run.
-/

namespace LaneChart

/-! ## Which requests can be answered -/

namespace Layout

/-- The answer that keeps every position that the cache knows and puts every other sector at the
origin. -/
def Solution.echo (cache : Placement) (n : Neighborhood) : Solution where
  positions := IdMap.ofList (n.ids.filterMap fun id =>
    (some ((cache.get? id).getD Position.origin)).map (id, ·))
  iterations := 0

theorem Solution.get?_echo (cache : Placement) (n : Neighborhood) (id : SectorId) :
    (Solution.echo cache n).positions.get? id =
      if id ∈ n.ids then some ((cache.get? id).getD Position.origin) else none :=
  IdMap.get?_ofList_read _ _ _

/-- **A request can be answered** exactly if every position that it pins is finite. -/
theorem Solution.exists_verify_iff (cache : Placement) (n : Neighborhood) :
    (∃ s : Solution, s.verify (Pass.request cache n) = .ok ()) ↔
      ∀ id ∈ n.ids, ∀ p, cache.get? id = some p → p.isFinite = true := by
  constructor
  · rintro ⟨s, hs⟩ id hid p hp
    have hnode := (verify_eq_ok_iff _ _).1 hs _ (Pass.mem_nodes_request.2 ⟨id, hid, rfl⟩)
    obtain ⟨q, -, hq, hecho⟩ := (breach?_eq_none_iff _ _ _).1 hnode
    have hpinned : (Pass.request cache n).isPinned id = true :=
      (Pass.isPinned_request cache n id).2 ⟨hid, (IdMap.contains_eq_true_iff _ _).2 ⟨p, hp⟩⟩
    have hsame := hecho hpinned
    rw [hp, Option.any_some] at hsame
    exact Position.isFinite_of_same hsame hq
  · intro hfinite
    refine ⟨echo cache n, (verify_eq_ok_iff _ _).2 ?_⟩
    intro node hnode
    obtain ⟨id, hid, rfl⟩ := Pass.mem_nodes_request.1 hnode
    refine (breach?_eq_none_iff _ _ _).2 ⟨_, (get?_echo cache n id).trans (if_pos hid), ?_⟩
    cases hp : cache.get? id with
    | none =>
      refine ⟨by decide +kernel, ?_⟩
      intro hpinned
      -- what the cache does not know is not pinned
      obtain ⟨p, hp'⟩ := (IdMap.contains_eq_true_iff _ _).1
        ((Pass.isPinned_request cache n id).1 hpinned).2
      exact absurd (hp.symm.trans hp') (by simp)
    | some p =>
      have hpf := hfinite id hid p hp
      exact ⟨hpf, fun _ => Position.same_self hpf⟩

end Layout

namespace View

variable {v : View}

/-! ## Events -/

/-- Whether every coordinate that the view holds is finite. -/
structure Finite (v : View) : Prop where
  cache : v.cache.AllFinite
  rendered : v.rendered.AllFinite

/-- The flips that an event keeps. -/
def flips (v : View) : Event → List Crossing.Flip
  | .refine =>
    match v.displayed with
    | none => []
    | some n => if n.isEmpty then [] else (v.search n).flips
  | _ => []

/-- The flips that are kept in a run. -/
def flipsRun (v : View) : List Event → List Crossing.Flip
  | [] => []
  | event :: rest => v.flips event ++ flipsRun (v.after event) rest

theorem finite_start (settings : Settings) : (start settings).Finite :=
  ⟨IdMap.allFinite_empty, IdMap.allFinite_empty⟩

theorem Consistent.finite_of_cache (h : v.Consistent) (hcache : v.cache.AllFinite) : v.Finite :=
  ⟨hcache, fun id p hp => hcache id p (h.rendered_eq_cache hp)⟩

/-- A render keeps coordinates finite, whatever the provider answers. -/
theorem finite_render (h : v.Consistent) (hfinite : v.Finite) (map : SectorMap) (focus : SectorId)
    (answer : Layout.Request → Layout.Answer) : (v.render map focus answer).2.Finite := by
  refine (h.render map focus answer).finite_of_cache ?_
  rcases v.render_cases map focus answer with ⟨-, heq⟩ | ⟨-, heq⟩
  · rw [heq]
    intro id p hp
    change (v.pass map focus answer).2.get? id = some p at hp
    cases hcache : v.cache.get? id with
    | none => exact (Layout.Pass.cache_run_of_uncached hcache hp).2
    | some q =>
      have hsame : q = p := Option.some.inj ((Layout.Pass.cache_run_of_cached hcache).symm.trans hp)
      exact hsame ▸ hfinite.cache id q hcache
  · rw [heq]
    exact hfinite.cache

/-- A refinement that searches keeps the flips of its search; any other keeps none. -/
theorem flips_refine_cases (v : View) :
    (v.refine.2 = v ∧ v.flips .refine = []) ∨
    ∃ n, v.flips .refine = (v.search n).flips ∧ v.refine.2 =
      { v with
        rendered := v.rendered.extend (v.search n).moved
        cache := v.cache.extend (v.search n).moved } := by
  unfold refine flips
  cases v.displayed with
  | none => exact .inl ⟨rfl, rfl⟩
  | some n =>
    cases hempty : n.isEmpty with
    | true => exact .inl ⟨by simp [hempty], by simp [hempty]⟩
    | false => exact .inr ⟨n, by simp [hempty], by simp [hempty, search]⟩

/-- **A search keeps coordinates finite** exactly if every flip that it keeps has a finite
target. -/
theorem finite_refine_iff (hfinite : v.Finite) :
    v.refine.2.Finite ↔ ∀ f ∈ v.flips .refine, Position.isFinite f.target = true := by
  rcases v.flips_refine_cases with ⟨hview, hflips⟩ | ⟨n, hflips, hview⟩
  · rw [hview, hflips]
    exact iff_of_true hfinite fun f hf => absurd hf List.not_mem_nil
  · rw [hview, hflips, search, ← Crossing.allFinite_refine_iff hfinite.rendered,
      ← Crossing.extend_moved]
    constructor
    · intro h
      exact h.rendered
    · intro h
      refine ⟨hfinite.cache.extend ?_, h⟩
      -- what was moved is on the surface
      intro id p hp
      refine h id p ?_
      rw [IdMap.get?_extend, hp, Option.some_or]

theorem finite_after_iff (h : v.Consistent) (hfinite : v.Finite) : ∀ event,
    (v.after event).Finite ↔ ∀ f ∈ v.flips event, Position.isFinite f.target = true
  | .render map focus answer =>
    iff_of_true (finite_render h hfinite map focus answer) fun _ hf => absurd hf List.not_mem_nil
  | .refine => finite_refine_iff hfinite
  | .tap _ => iff_of_true hfinite fun _ hf => absurd hf List.not_mem_nil
  | .reset => iff_of_true (finite_start v.settings) fun _ hf => absurd hf List.not_mem_nil

theorem throughout_flips_iff (v : View) (events : List Event) :
    v.Throughout (fun v event => ∀ f ∈ v.flips event, Position.isFinite f.target = true) events ↔
      ∀ f ∈ v.flipsRun events, Position.isFinite f.target = true := by
  induction events generalizing v with
  | nil => exact iff_of_true trivial fun f hf => absurd hf List.not_mem_nil
  | cons event rest ih =>
    unfold Throughout flipsRun
    rw [ih, List.forall_mem_append]

theorem finite_run_iff (h : v.Consistent) (hfinite : v.Finite) (events : List Event) :
    (∀ k, (v.run (events.take k)).Finite) ↔
      ∀ f ∈ v.flipsRun events, Position.isFinite f.target = true := by
  rw [← throughout_flips_iff]
  exact forall_take_iff (I := Consistent) (P := Finite) id after (fun _ _ => rfl)
    (fun _ event h => h.after event) (fun _ event h hfinite => finite_after_iff h hfinite event)
    h hfinite events

/-- **When coordinates stay finite.** In a run all coordinates are finite at every moment exactly if
every flip that was kept has a finite target. And after a run some answer keeps the contract for a
neighbourhood exactly if the coordinates that the cache has for its sectors are finite. -/
theorem finite_iff_flips (settings : Settings) (events : List Event) :
    ((∀ k, ((start settings).run (events.take k)).Finite) ↔
      ∀ f ∈ (start settings).flipsRun events, Position.isFinite f.target = true) ∧
    ∀ n : Neighborhood,
      (∃ s : Layout.Solution,
        s.verify (Layout.Pass.request ((start settings).run events).cache n) = .ok ()) ↔
      ∀ id ∈ n.ids, ∀ p, ((start settings).run events).cache.get? id = some p →
        p.isFinite = true :=
  ⟨finite_run_iff (consistent_start settings) (finite_start settings) events,
    fun n => Layout.Solution.exists_verify_iff _ n⟩

/-! ## A flip that overflows -/

/-- The path 2, 1, 3, 4. -/
def path : SectorMap := IdMap.ofList
  [(1, { adjacent := [2, 3], visited := true }), (2, { adjacent := [1], visited := true }),
   (3, { adjacent := [1, 4], visited := true }), (4, { adjacent := [3], visited := true })]

/-- The same path after a sector was discovered next to 1. -/
def longerPath : SectorMap :=
  path.insertAll [(1, { adjacent := [2, 3, 5], visited := true }), (5, { adjacent := [1] })]

/-- Positions that the contract accepts, with the first and the last lane of the path crossing at
the origin. The squares of their distances are out of range. -/
def farApart : Layout.Solution :=
  ⟨IdMap.ofList [(1, ⟨-1e20, 0⟩), (2, ⟨1e20, 0⟩), (3, ⟨0, -1e20⟩), (4, ⟨0, 1e20⟩)], 0⟩

/-- The path is displayed at these positions, and then searched for fewer crossings. -/
def overflowing : List Event := [.render path 1 fun _ => .ok farApart, .refine]

/-- The search sends sector 1 to coordinates that are no numbers, and from then on no answer is good
enough for a display of 1 with its new neighbour. -/
theorem overflow_sticks :
    new {} = .ok (start {}) ∧
    ((start {}).run overflowing).cache.get? 1 = some ⟨0 / 0, 0 / 0⟩ ∧
    ((start {}).run overflowing).rendered.get? 1 = some ⟨0 / 0, 0 / 0⟩ ∧
    ¬ ((start {}).run overflowing).Finite ∧
    (((start {}).run overflowing).hood longerPath 1).ids = [1, 2, 3, 5, 4] ∧
    ∀ s : Layout.Solution, s.verify (Layout.Pass.request ((start {}).run overflowing).cache
      (((start {}).run overflowing).hood longerPath 1)) ≠ .ok () := by
  have hcache : ((start {}).run overflowing).cache.get? 1 = some ⟨0 / 0, 0 / 0⟩ := by
    decide +kernel
  have hids : (((start {}).run overflowing).hood longerPath 1).ids = [1, 2, 3, 5, 4] := by
    decide +kernel
  have hnan : Position.isFinite ⟨0 / 0, 0 / 0⟩ = false := by decide +kernel
  have hmem : 1 ∈ (((start {}).run overflowing).hood longerPath 1).ids := by
    rw [hids]
    exact List.mem_cons_self ..
  refine ⟨rfl, hcache, by decide +kernel, ?_, hids, ?_⟩
  · intro h
    exact Bool.false_ne_true (hnan.symm.trans (h.cache 1 _ hcache))
  · intro s hs
    have hfinite := (Layout.Solution.exists_verify_iff _ _).1 ⟨s, hs⟩ 1 hmem _ hcache
    exact Bool.false_ne_true (hnan.symm.trans hfinite)

end View

end LaneChart
