import LaneChart.Proofs.Neighborhood.Frontier

/-!
# The lanes of a neighbourhood

Sectors mention other sectors in any order, from one side or from both, more than once, and whether
or not they are displayed. The lanes of a neighbourhood are what is left of that:

> `mem_lanes_iff`: a lane is listed exactly if a displayed sector mentions another displayed one.
-/

namespace LaneChart.Neighborhood

variable {n : Neighborhood} {l : Lane}

theorem mem_mentioned_iff {displayed : IdSet} {s : Shown} :
    l ∈ mentioned displayed s ↔
      ∃ other ∈ s.adjacent, other ≠ s.id ∧ displayed.contains other = true ∧
        l = Lane.between s.id other := by
  unfold mentioned
  rw [List.mem_map]
  constructor
  · rintro ⟨other, hother, rfl⟩
    obtain ⟨hmem, htest⟩ := List.mem_filter.1 hother
    obtain ⟨hne, hdisplayed⟩ := Bool.and_eq_true_iff.1 htest
    exact ⟨other, hmem, bne_iff_ne.1 hne, hdisplayed, rfl⟩
  · rintro ⟨other, hmem, hne, hdisplayed, rfl⟩
    refine ⟨other, List.mem_filter.2 ⟨hmem, ?_⟩, rfl⟩
    rw [bne_iff_ne.2 hne, hdisplayed]
    rfl

/-- **The lanes of a neighbourhood** are what its sectors mention of one another. -/
theorem mem_lanes_iff :
    l ∈ n.lanes ↔ ∃ s ∈ n.sectors, ∃ other ∈ s.adjacent, other ≠ s.id ∧ other ∈ n.ids ∧
      l = Lane.between s.id other := by
  unfold lanes
  rw [List.mem_eraseDups, List.mem_flatMap]
  simp only [mem_mentioned_iff, contains_idSet]

/-- Both ends of a lane are displayed. -/
theorem ends_of_mem_lanes (h : l ∈ n.lanes) : l.start ∈ n.ids ∧ l.stop ∈ n.ids := by
  obtain ⟨s, hs, other, -, -, hother, rfl⟩ := mem_lanes_iff.1 h
  have hid : s.id ∈ n.ids := List.mem_map_of_mem hs
  unfold Lane.between
  split
  · exact ⟨hid, hother⟩
  · exact ⟨hother, hid⟩

end LaneChart.Neighborhood
