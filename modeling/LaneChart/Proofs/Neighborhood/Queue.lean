import Mathlib.Data.Nat.Find
import LaneChart.Proofs.Neighborhood.BreadthFirst

/-!
# The queue of the search

The queue is longer than the list of sectors still to come: an id is queued once for every lane that
leads to it, and most entries are only dropped. What keeps it in hand is that recording a sector
queues at the end what lies one lane farther away. So the distances in the queue ascend and span two
levels at most (`Level`), and they never pass the greatest distance, whatever that is.

How often an entry is taken is a matter of counting what was put in. Every step takes one out, and
only recording a sector puts any in, one for each of its lanes at most (`queue_step_le`):

> `search_well_behaved`: in every state of a search the queue is level, the seen ids are the
> recorded ones, and every recorded sector stands beside its distance; and the search is left after
> no more entries than the recorded sectors have lanes, and one.
-/

namespace LaneChart.Search

variable {map : SectorMap} {limits : Limits} {center : SectorId} {s s' : Search}

/-! ## Levels -/

/-- The queue is in order: distances ascend from the front to the back, the last one is no more than
one past the first one, and none is past the greatest distance. -/
structure Level (limits : Limits) (s : Search) : Prop where
  ascending : s.queue.Pairwise fun a b => a.2 ≤ b.2
  narrow : ∀ a ∈ s.queue, ∀ b ∈ s.queue, b.2 ≤ a.2 + 1
  near : ∀ a ∈ s.queue, a.2 ≤ limits.maxHops.toNat

theorem level_start (limits : Limits) (center : SectorId) : Level limits (start center) := by
  have honly : ∀ a ∈ (start center).queue, a.2 = 0 := by
    intro a ha
    rw [List.mem_singleton.1 ha]
  refine ⟨List.pairwise_singleton _ _, ?_, ?_⟩
  · intro a _ b hb
    rw [honly b hb]
    exact Nat.zero_le _
  · intro a ha
    rw [honly a ha]
    exact Nat.zero_le _

/-- Dropping an entry leaves the others in order. -/
theorem Level.rest {e : SectorId × Nat} {rest : List (SectorId × Nat)} (h : Level limits s)
    (hq : s.queue = e :: rest) : Level limits { s with queue := rest } := by
  have hsub : ∀ a ∈ rest, a ∈ s.queue := fun a ha => hq ▸ List.mem_cons_of_mem e ha
  refine ⟨?_, fun a ha b hb => h.narrow a (hsub a ha) b (hsub b hb),
    fun a ha => h.near a (hsub a ha)⟩
  have hascending := h.ascending
  rw [hq] at hascending
  exact (List.pairwise_cons.1 hascending).2

/-- What is queued is one lane farther away than the sector, and within the greatest distance. -/
theorem of_mem_successors {seen : IdSet} {sector : Sector} {distance : Nat} {a : SectorId × Nat}
    (ha : a ∈ successors limits seen sector distance) :
    a.2 = distance + 1 ∧ distance < limits.maxHops.toNat := by
  unfold successors at ha
  split at ha
  · next hnear =>
    obtain ⟨id, -, rfl⟩ := List.mem_map.1 ha
    exact ⟨rfl, hnear⟩
  · exact absurd ha List.not_mem_nil

/-- Recording the sector at the front keeps the queue in order: the others are at its distance or
one farther away, and what comes behind them is one farther away too. -/
theorem Level.record {id : SectorId} {sector : Sector} {distance : Nat}
    {rest : List (SectorId × Nat)} (h : Level limits s) (hq : s.queue = (id, distance) :: rest) :
    Level limits (s.record limits id sector distance rest) := by
  have hrest := h.rest hq
  have hfront : ∀ a ∈ rest, distance ≤ a.2 ∧ a.2 ≤ distance + 1 := by
    intro a ha
    have hascending := h.ascending
    rw [hq] at hascending
    have hmem : a ∈ s.queue := hq ▸ List.mem_cons_of_mem _ ha
    exact ⟨(List.pairwise_cons.1 hascending).1 a ha,
      h.narrow (id, distance) (hq ▸ List.mem_cons_self ..) a hmem⟩
  have hmem {a : SectorId × Nat} (ha : a ∈ (s.record limits id sector distance rest).queue) :
      a ∈ rest ∨ a.2 = distance + 1 ∧ distance < limits.maxHops.toNat :=
    (List.mem_append.1 ha).imp_right of_mem_successors
  refine ⟨?_, ?_, ?_⟩
  · show (rest ++ successors limits (s.seen.insert id ()) sector distance).Pairwise _
    rw [List.pairwise_append]
    refine ⟨hrest.ascending, ?_, ?_⟩
    · rw [List.pairwise_iff_forall_sublist]
      intro a b hab
      have ha := of_mem_successors (hab.subset (List.mem_cons_self ..))
      have hb := of_mem_successors (hab.subset (List.mem_cons_of_mem _ (List.mem_cons_self ..)))
      omega
    · intro a ha b hb
      have ha' := hfront a ha
      have hb' := of_mem_successors hb
      omega
  · intro a ha b hb
    rcases hmem ha with ha | ha <;> rcases hmem hb with hb | hb
    · exact hrest.narrow a ha b hb
    · have ha' := hfront a ha
      omega
    · have hb' := hfront b hb
      omega
    · omega
  · intro a ha
    rcases hmem ha with ha | ha
    · exact hrest.near a ha
    · omega

/-- **A step keeps the queue in order.** -/
theorem Level.step (h : Level limits s) (hs : s.step map limits = some s') : Level limits s' := by
  obtain ⟨-, id, distance, rest, hq, hcase⟩ := step_cases hs
  rcases hcase with ⟨rfl, -⟩ | ⟨sector, -, -, -, rfl⟩
  · exact h.rest hq
  · exact h.record hq

theorem Level.run (h : Level limits s) (k : Nat) : Level limits (s.run map limits k) :=
  run_induction Level.step k h

/-- Below the greatest distance, one lane more is still a number of thirty-two bits. -/
theorem toNat_succ_of_lt {d : Nat} (h : d < limits.maxHops.toNat) :
    (UInt32.ofNat d + 1).toNat = d + 1 := by
  have hbound : limits.maxHops.toNat < 2 ^ 32 := limits.maxHops.toNat_lt
  rw [UInt32.toNat_add, UInt32.toNat_ofNat']
  show (d % 2 ^ 32 + 1) % 2 ^ 32 = d + 1
  rw [Nat.mod_eq_of_lt (by omega : d < 2 ^ 32), Nat.mod_eq_of_lt (by omega)]

/-! ## Distances beside the sectors -/

/-- A search from a center that is not in the map, or without room, records nothing. -/
theorem found_run_of_empty (h : limits.maxSectors = 0 ∨ map.contains center = false) (k : Nat) :
    ((start center).run map limits k).found = [] := by
  have hkept : ∀ {s s' : Search}, s.found = [] ∧ (∀ a ∈ s.queue, a.1 = center) →
      s.step map limits = some s' → s'.found = [] ∧ ∀ a ∈ s'.queue, a.1 = center := by
    rintro s s' ⟨hfound, hqueue⟩ hs
    obtain ⟨hcap, id, distance, rest, hq, hcase⟩ := step_cases hs
    have hid : id = center := hqueue (id, distance) (hq ▸ List.mem_cons_self ..)
    rcases hcase with ⟨rfl, -⟩ | ⟨sector, hmap, -⟩
    · exact ⟨hfound, fun a ha => hqueue a (hq ▸ List.mem_cons_of_mem _ ha)⟩
    · exfalso
      rcases h with hzero | hmissing
      · omega
      · rw [hid, (IdMap.contains_eq_false_iff _ _).1 hmissing] at hmap
        exact absurd hmap nofun
  refine (run_induction hkept k ⟨rfl, ?_⟩).1
  intro a ha
  rw [List.mem_singleton.1 ha]

/-- **Every recorded sector stands beside its distance**, and the distances ascend. -/
theorem distance_of_mem_found_run (map : SectorMap) (limits : Limits) (center : SectorId)
    (k : Nat) :
    let s := (start center).run map limits k
    (∀ e ∈ s.found, IsDistance map center e.1.id e.2) ∧ s.found.Pairwise fun a b => a.2 ≤ b.2 := by
  intro s
  have hempty (hnone : s.found = []) : (∀ e ∈ s.found, IsDistance map center e.1.id e.2) ∧
      s.found.Pairwise fun a b => a.2 ≤ b.2 := by
    rw [hnone]
    exact ⟨nofun, List.Pairwise.nil⟩
  rcases Nat.eq_zero_or_pos limits.maxSectors with hzero | hcap
  · exact hempty (found_run_of_empty (.inl hzero) k)
  · cases hmap : map.get? center with
    | none =>
      exact hempty (found_run_of_empty (.inr ((IdMap.contains_eq_false_iff _ _).2 hmap)) k)
    | some sector =>
      rcases Nat.eq_zero_or_pos k with rfl | hk
      · exact hempty rfl
      · obtain ⟨taken, waiting, htrace⟩ := trace_run_start hcap hmap hk
        exact ⟨htrace.distance, htrace.sorted⟩

/-! ## Counting what is taken -/

/-- The lanes of the recorded sectors. -/
def lanesFound (s : Search) : Nat := (s.found.flatMap (·.1.adjacent)).length

/-- How many entries have been taken from the queue when a search is left after some steps. Every
step takes one, and so does finding out that the cap is reached. -/
def entriesTaken (steps : Nat) (s : Search) : Nat := if s.queue = [] then steps else steps + 1

/-- **A step takes one entry**, and puts in at most one for each lane of a sector that it
records. -/
theorem queue_step_le (hs : s.step map limits = some s') :
    s'.queue.length + 1 + s.lanesFound ≤ s.queue.length + s'.lanesFound := by
  obtain ⟨-, id, distance, rest, hq, hcase⟩ := step_cases hs
  rw [hq, List.length_cons]
  rcases hcase with ⟨rfl, -⟩ | ⟨sector, -, -, -, rfl⟩
  · exact Nat.le_refl _
  · have hnew := length_successors_le limits (s.seen.insert id ()) sector distance
    have hlanes : (s.record limits id sector distance rest).lanesFound =
        s.lanesFound + sector.adjacent.length := by
      unfold lanesFound record
      rw [List.flatMap_append, List.length_append]
      congr 1
      rw [List.flatMap_singleton]
      rfl
    rw [hlanes]
    show (rest ++ successors limits (s.seen.insert id ()) sector distance).length + 1 + _ ≤ _
    rw [List.length_append]
    omega

theorem queue_run_le : ∀ (k : Nat) {s : Search},
    (∀ j < k, (s.run map limits j).step map limits ≠ none) →
      (s.run map limits k).queue.length + k + s.lanesFound ≤
        s.queue.length + (s.run map limits k).lanesFound
  | 0, _, _ => Nat.le_refl _
  | k + 1, s, h => by
    obtain ⟨s', hs⟩ : ∃ s', s.step map limits = some s' :=
      Option.ne_none_iff_exists'.1 (h 0 (Nat.zero_lt_succ k))
    have hlater : ∀ j < k, (s'.run map limits j).step map limits ≠ none := by
      intro j hj
      rw [← run_of_some hs]
      exact h (j + 1) (Nat.succ_lt_succ hj)
    have hstep := queue_step_le hs
    have hrun := queue_run_le k hlater
    rw [run_of_some hs]
    omega

/-- A search is left after some number of steps. -/
theorem exists_last_step (map : SectorMap) (limits : Limits) (center : SectorId) :
    ∃ k, ((start center).run map limits k).step map limits = none ∧
      ∀ j < k, ((start center).run map limits j).step map limits ≠ none := by
  have hends : ∃ k, ((start center).run map limits k).step map limits = none :=
    ⟨_, step_run_start map limits center⟩
  exact ⟨Nat.find hends, Nat.find_spec hends, fun j hj => Nat.find_min hends hj⟩

/-- **The search is well-behaved**, on every map and within any limits. In each of its states the
queue is in order, so that a distance never outgrows thirty-two bits; what is seen is what is
recorded, each sector once; and the distances are those of the sectors they stand beside. It is left
in the state from which the neighbourhood is made, and until then it has taken from the queue at
most one entry for each lane of the recorded sectors, besides the center. -/
theorem search_well_behaved (map : SectorMap) (limits : Limits) (center : SectorId) :
    (∀ k, let s := (start center).run map limits k
      Level limits s ∧
      (∀ a ∈ s.queue, a.2 < limits.maxHops.toNat → (UInt32.ofNat a.2 + 1).toNat = a.2 + 1) ∧
      (∀ id, s.seen.contains id = true ↔ id ∈ s.ids) ∧ s.ids.Nodup ∧
      (∀ e ∈ s.found, IsDistance map center e.1.id e.2) ∧
      s.found.Pairwise fun a b => a.2 ≤ b.2) ∧
    ∃ k, let s := (start center).run map limits k
      s.step map limits = none ∧
      (∀ j < k, ((start center).run map limits j).step map limits ≠ none) ∧
      s = (start center).run map limits (stepBound map) ∧
      s.entriesTaken k ≤ 1 + s.lanesFound := by
  constructor
  · intro k s
    have hbooks : Books map limits s := books_run k (books_start map limits center)
    have hdistances := distance_of_mem_found_run map limits center k
    exact ⟨(level_start limits center).run k, fun a _ => toNat_succ_of_lt, hbooks.seen,
      hbooks.distinct, hdistances⟩
  · obtain ⟨k, hend, hbefore⟩ := exists_last_step map limits center
    refine ⟨k, hend, hbefore, run_eq_of_ended (step_run_start map limits center) hend, ?_⟩
    have hcount := queue_run_le k hbefore
    have hstart : (start center).queue.length = 1 ∧ (start center).lanesFound = 0 := ⟨rfl, rfl⟩
    unfold entriesTaken
    split
    · omega
    · next hqueue =>
      have hpos := List.length_pos_iff.2 hqueue
      omega

end LaneChart.Search
