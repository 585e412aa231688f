import LaneChart.Proofs.Neighborhood.Frontier

/-!
# Raising the cap only adds sectors

The cap on displayed sectors stops an extraction in one of two places: while sectors are
recorded, or while stand-ins are chosen. Under a greater cap the same search goes on, so nothing
that was displayed is lost or put elsewhere:

> `extract_eq_take`: what a cap lets through are the first sectors of what any greater cap does.

The search decides which of the two places it is (`run_cap`). Either both caps see the search
to its end, and then they choose from the same stand-ins; or the lesser one stops it full, and
then there is no room for stand-ins at all.
-/

namespace LaneChart

namespace Search

variable {map : SectorMap} {limits : Limits} {hops : UInt32} {m n : Nat} {s s' : Search}

/-! ## Steps under two caps -/

/-- A step under a cap is a step under every greater one. -/
theorem step_of_le (h : m ≤ n) (hs : s.step map ⟨m, hops⟩ = some s') :
    s.step map ⟨n, hops⟩ = some s' := by
  have hroom : s.found.length < m := (step_cases hs).1
  unfold step at hs ⊢
  cases hq : s.queue with
  | nil =>
    rw [hq] at hs
    exact absurd hs (by simp)
  | cons e rest =>
    simp only [hq] at hs ⊢
    rw [if_neg (Nat.not_le.2 hroom)] at hs
    rw [if_neg (Nat.not_le.2 (Nat.lt_of_lt_of_le hroom h))]
    exact hs

theorem found_prefix_step (hs : s.step map limits = some s') : s.found <+: s'.found := by
  obtain ⟨-, id, distance, rest, -, hcase⟩ := step_cases hs
  rcases hcase with ⟨rfl, -⟩ | ⟨sector, -, -, -, rfl⟩
  · exact List.prefix_refl _
  · exact List.prefix_append _ _

/-- A search never takes back what it has recorded. -/
theorem found_prefix_run (k : Nat) (s : Search) : s.found <+: (s.run map limits k).found :=
  run_induction (P := fun t => s.found <+: t.found)
    (fun h hs => h.trans (found_prefix_step hs)) k (List.prefix_refl _)

/-- **A search under two caps**: it is the same under both, or it is full under the lesser one with
the first sectors of what it records under the other. -/
theorem run_cap (h : m ≤ n) : ∀ (k : Nat) {s : Search}, Books map ⟨m, hops⟩ s →
    s.run map ⟨m, hops⟩ k = s.run map ⟨n, hops⟩ k ∨
      (s.run map ⟨m, hops⟩ k).found.length = m ∧
        (s.run map ⟨m, hops⟩ k).found <+: (s.run map ⟨n, hops⟩ k).found
  | 0, _, _ => .inl rfl
  | k + 1, s, hbooks => by
    cases hs : s.step map ⟨m, hops⟩ with
    | none =>
      rw [run_of_none hs]
      rcases step_eq_none_iff.1 hs with hempty | hcap
      · -- an empty queue ends the search under any cap
        exact .inl (run_of_none (step_eq_none_iff.2 (.inl hempty)) _).symm
      · exact .inr ⟨Nat.le_antisymm hbooks.room hcap, found_prefix_run (k + 1) s⟩
    | some s' =>
      rw [run_of_some hs, run_of_some (step_of_le h hs)]
      exact run_cap h k (books_step hbooks hs)

/-! ## What is displayed under two caps -/

/-- The stand-ins of a search under a cap are the first ones of those under a greater cap. -/
theorem frontier_cap (h : m ≤ n) (s : Search) :
    s.frontier map ⟨m, hops⟩ = (s.frontier map ⟨n, hops⟩).take (m - s.found.length) := by
  have hmin : min (m - s.found.length) (n - s.found.length) = m - s.found.length := by omega
  rw [frontier_eq, frontier_eq, ← List.map_take, List.take_take, hmin]
  rfl

/-- Where the search is the same, the caps differ in the stand-ins at most. -/
theorem take_displayed (h : m ≤ n) (hroom : s.found.length ≤ m) :
    (s.found.map (·.1) ++ s.frontier map ⟨n, hops⟩).take m =
      s.found.map (·.1) ++ s.frontier map ⟨m, hops⟩ := by
  have hall : (s.found.map (·.1)).take m = s.found.map (·.1) :=
    List.take_of_length_le (by rw [List.length_map]; exact hroom)
  rw [List.take_append, hall, List.length_map, frontier_cap h]

/-- A search that has used up its cap has no stand-ins, and a search that goes on from there keeps
what it had. -/
theorem take_displayed_of_full (hfull : s.found.length = m) (hfirst : s.found <+: s'.found) :
    (s'.found.map (·.1) ++ s'.frontier map ⟨n, hops⟩).take m =
      s.found.map (·.1) ++ s.frontier map ⟨m, hops⟩ := by
  have hnone : s.frontier map ⟨m, hops⟩ = [] := by
    rw [frontier_eq, hfull, Nat.sub_self, List.take_zero, List.map_nil]
  have hlength : m ≤ (s'.found.map (·.1)).length := by
    rw [List.length_map, ← hfull]
    exact hfirst.length_le
  have htake : s.found = s'.found.take m := hfull ▸ List.prefix_iff_eq_take.1 hfirst
  rw [List.take_append_of_le_length hlength, ← List.map_take, ← htake, hnone, List.append_nil]

end Search

/-- **Raising the cap only adds sectors**: under a cap of `m` a neighbourhood has the first `m`
sectors, stand-ins included, that it has under any greater cap. -/
theorem Neighborhood.extract_eq_take (map : SectorMap) (center : SectorId) (hops : UInt32)
    {m n : Nat} (h : m ≤ n) :
    extract map center ⟨m, hops⟩ =
      ⟨center, (extract map center ⟨n, hops⟩).sectors.take m⟩ := by
  by_cases hnothing : m = 0 ∨ map.contains center = false
  · rw [extract_eq_empty hnothing]
    rcases hnothing with rfl | hcenter
    · rfl
    · rw [extract_eq_empty (.inr hcenter)]
      exact congrArg (mk center) List.take_nil.symm
  · rw [not_or, Bool.not_eq_false] at hnothing
    obtain ⟨hm, hcenter⟩ := hnothing
    have hbooks := Search.books_start map ⟨m, hops⟩ center
    rw [extract_eq (by show 1 ≤ m; omega) hcenter, extract_eq (by show 1 ≤ n; omega) hcenter]
    refine congrArg (mk center) (Eq.symm ?_)
    rcases Search.run_cap h (Search.stepBound map) hbooks with hsame | ⟨hfull, hfirst⟩
    · have hroom := (Search.books_run (Search.stepBound map) hbooks).room
      rw [hsame] at hroom ⊢
      exact Search.take_displayed h hroom
    · exact Search.take_displayed_of_full hfull hfirst

/-- Four sectors around the hub 1, the last one two lanes away, with lanes to 7 and 8,
which are not in the map. -/
def SectorMap.hub : SectorMap := IdMap.ofList
  [(1, { adjacent := [7, 2, 3] }), (2, { adjacent := [4, 8] }), (3, { adjacent := [1] }),
   (4, { adjacent := [7, 5] })]

/-- A cap of two cuts the recorded sectors of the hub, and a cap of five its stand-ins. -/
theorem Neighborhood.extract_hub_eq_take :
    2 ≤ 5 ∧ 5 ≤ 8 ∧
    (extract .hub 1 ⟨8, 2⟩).ids = [1, 2, 3, 4, 7, 8] ∧
    extract .hub 1 ⟨5, 2⟩ = ⟨1, (extract .hub 1 ⟨8, 2⟩).sectors.take 5⟩ ∧
    extract .hub 1 ⟨2, 2⟩ = ⟨1, (extract .hub 1 ⟨5, 2⟩).sectors.take 2⟩ :=
  ⟨by decide, by decide, by decide, extract_eq_take .hub 1 2 (by decide),
    extract_eq_take .hub 1 2 (by decide)⟩

end LaneChart
