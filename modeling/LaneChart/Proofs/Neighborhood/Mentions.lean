import LaneChart.Proofs.Neighborhood.Lanes
import LaneChart.Proofs.Neighborhood.StandIns

/-!
# The order of lanes

`mem_lanes_iff` says which lanes a neighbourhood has. That each has one form, and that they come in
one order, is a matter of the places where they are mentioned: a lane between two sectors can be
mentioned by either of them, and any number of times, and it is listed at the first of these places
(`FirstMention`). The mentions of a neighbourhood are one list in the order of their places
(`mentions_ordered`), and its lanes are those of this list, each kept once (`lanes_eq`).

> `lanes_listed`: the lanes of a neighbourhood, each once and the lesser id first, are exactly those
> that either end mentions, in the order of the first mentions.
-/

namespace LaneChart

/-! ## One form -/

namespace Lane

theorem between_of_lt {a b : SectorId} (h : a < b) : between a b = ⟨a, b⟩ :=
  if_pos (UInt64.le_of_lt h)

theorem between_of_gt {a b : SectorId} (h : b < a) : between a b = ⟨b, a⟩ :=
  if_neg (UInt64.not_le.2 h)

theorem start_lt_stop_between {a b : SectorId} (h : b ≠ a) :
    (between a b).start < (between a b).stop := by
  rcases UInt64.lt_or_lt_of_ne h with hlt | hlt
  · rw [between_of_gt hlt]
    exact hlt
  · rw [between_of_lt hlt]
    exact hlt

/-- A lane whose ends are known was written from one of them or from the other. -/
theorem between_eq_iff {a b s other : SectorId} (h : a < b) :
    (⟨a, b⟩ : Lane) = between s other ↔ s = a ∧ other = b ∨ s = b ∧ other = a := by
  constructor
  · intro heq
    unfold between at heq
    split at heq
    · exact .inl ⟨(Lane.mk.inj heq).1.symm, (Lane.mk.inj heq).2.symm⟩
    · exact .inr ⟨(Lane.mk.inj heq).2.symm, (Lane.mk.inj heq).1.symm⟩
  · rintro (⟨rfl, rfl⟩ | ⟨rfl, rfl⟩)
    · exact (between_of_lt h).symm
    · exact (between_of_gt h).symm

end Lane

namespace Neighborhood

variable {n : Neighborhood} {l : Lane}

/-! ## Where lanes are mentioned -/

/-- At a place in the adjacency of a displayed sector a lane to another displayed sector
is mentioned. -/
def MentionsAt (n : Neighborhood) (l : Lane) (r : Reference) : Prop :=
  ∃ s other, n.sectors[r.parent]? = some s ∧ s.adjacent[r.place]? = some other ∧
    other ≠ s.id ∧ other ∈ n.ids ∧ l = Lane.between s.id other

/-- The first mention of a lane: by the earliest sector in the list, at its first place there. -/
structure FirstMention (n : Neighborhood) (l : Lane) (r : Reference) : Prop where
  mentions : n.MentionsAt l r
  first : ∀ {t}, n.MentionsAt l t → r = t ∨ r.Before t

theorem FirstMention.unique {r t : Reference} (hr : n.FirstMention l r) (ht : n.FirstMention l t) :
    r = t :=
  Reference.eq_of_first hr.mentions ht.mentions (fun _ => hr.first) (fun _ => ht.first)

/-- What one sector mentions, each time with its place. -/
def mentionsBy (displayed : IdSet) (s : Shown) (number : Nat) : List (Lane × Reference) :=
  (s.adjacent.zipIdx.filter fun e => e.1 != s.id && displayed.contains e.1).map
    fun e => (Lane.between s.id e.1, ⟨number, e.2⟩)

/-- All mentions of lanes, each with its place. -/
def mentions (n : Neighborhood) : List (Lane × Reference) :=
  n.sectors.zipIdx.flatMap fun e => mentionsBy n.idSet e.1 e.2

theorem mem_mentionsBy_iff {displayed : IdSet} {s : Shown} {number : Nat} {r : Reference} :
    (l, r) ∈ mentionsBy displayed s number ↔ r.parent = number ∧
      ∃ other, s.adjacent[r.place]? = some other ∧ other ≠ s.id ∧
        displayed.contains other = true ∧ l = Lane.between s.id other := by
  unfold mentionsBy
  simp only [List.mem_map, List.mem_filter, List.mem_zipIdx_iff_getElem?, Bool.and_eq_true,
    bne_iff_ne]
  constructor
  · rintro ⟨e, ⟨he, hne, hdisplayed⟩, heq⟩
    obtain ⟨rfl, rfl⟩ := Prod.mk.inj heq
    exact ⟨rfl, e.1, he, hne, hdisplayed, rfl⟩
  · rintro ⟨rfl, other, hplace, hne, hdisplayed, rfl⟩
    exact ⟨(other, r.place), ⟨hplace, hne, hdisplayed⟩, rfl⟩

theorem mem_mentions_iff {r : Reference} : (l, r) ∈ n.mentions ↔ n.MentionsAt l r := by
  unfold mentions MentionsAt
  rw [List.mem_flatMap]
  constructor
  · rintro ⟨e, he, hmem⟩
    obtain ⟨hparent, other, hplace, hne, hdisplayed, rfl⟩ := mem_mentionsBy_iff.1 hmem
    refine ⟨e.1, other, ?_, hplace, hne, (n.contains_idSet other).1 hdisplayed, rfl⟩
    rw [hparent]
    exact List.mem_zipIdx_iff_getElem?.1 he
  · rintro ⟨s, other, hs, hplace, hne, hdisplayed, rfl⟩
    refine ⟨(s, r.parent), List.mem_zipIdx_iff_getElem?.2 hs, mem_mentionsBy_iff.2 ⟨rfl, ?_⟩⟩
    exact ⟨other, hplace, hne, (n.contains_idSet other).2 hdisplayed, rfl⟩

theorem mentionsBy_ordered (displayed : IdSet) (s : Shown) (number : Nat) :
    (mentionsBy displayed s number).Pairwise fun a b => a.2.Before b.2 := by
  unfold mentionsBy
  rw [List.pairwise_map]
  apply List.Pairwise.filter
  rw [List.pairwise_iff_getElem]
  intro i j hi hj hij
  right
  refine ⟨rfl, ?_⟩
  simpa using hij

/-- The mentions are listed in the order of their places. -/
theorem mentions_ordered (n : Neighborhood) :
    n.mentions.Pairwise fun a b => a.2.Before b.2 := by
  unfold mentions
  rw [List.pairwise_flatMap]
  refine ⟨fun e _ => mentionsBy_ordered .., ?_⟩
  rw [List.pairwise_iff_getElem]
  intro i j hi hj hij a ha b hb
  left
  rw [(mem_mentionsBy_iff.1 ha).1, (mem_mentionsBy_iff.1 hb).1]
  simpa using hij

/-- Without their places, the mentions of a sector are the lanes that it mentions. -/
theorem map_fst_mentionsBy (displayed : IdSet) (s : Shown) (number : Nat) :
    (mentionsBy displayed s number).map Prod.fst = mentioned displayed s := by
  have hothers : s.adjacent.filter (fun other => other != s.id && displayed.contains other) =
      (s.adjacent.zipIdx.filter fun e => e.1 != s.id && displayed.contains e.1).map Prod.fst :=
    (congrArg _ (List.zipIdx_map_fst 0 s.adjacent).symm).trans List.filter_map
  unfold mentionsBy mentioned
  rw [hothers, List.map_map, List.map_map]
  rfl

/-- **The lanes of a neighbourhood** are those of its mentions, each kept once. -/
theorem lanes_eq (n : Neighborhood) : n.lanes = (n.mentions.map Prod.fst).eraseDups := by
  unfold lanes mentions
  rw [List.map_flatMap]
  conv => lhs; rw [← List.zipIdx_map_fst 0 n.sectors, List.flatMap_map]
  simp only [map_fst_mentionsBy]

/-- The first entry of a lane in the list of mentions is its first mention. -/
theorem firstMention_of_firstEntry {e : Lane × Reference}
    (h : FirstEntry Prod.fst (fun a b => a.2.Before b.2) n.mentions l e) :
    n.FirstMention l e.2 := by
  have hlane : e.1 = l := h.key_eq
  constructor
  · exact mem_mentions_iff.1 (hlane ▸ h.mem)
  · intro t ht
    exact (h.first (l, t) (mem_mentions_iff.2 ht) rfl).imp_left (congrArg Prod.snd)

theorem lanes_ordered (n : Neighborhood) :
    n.lanes.Pairwise fun l m => ∃ r t, n.FirstMention l r ∧ n.FirstMention m t ∧ r.Before t := by
  rw [lanes_eq]
  refine (pairwise_eraseDups Prod.fst _ n.mentions_ordered).imp ?_
  rintro l m ⟨d, e, hd, he, hde⟩
  exact ⟨_, _, firstMention_of_firstEntry hd, firstMention_of_firstEntry he, hde⟩

theorem nodup_lanes (n : Neighborhood) : n.lanes.Nodup := by
  refine n.lanes_ordered.imp ?_
  rintro l m ⟨r, t, hr, ht, hrt⟩ rfl
  rw [hr.unique ht] at hrt
  exact hrt.irrefl

/-- A lane is listed if one of its ends, both displayed, lists the other. -/
theorem mem_lanes_of_lt {a b : SectorId} (ha : a ∈ n.ids) (hb : b ∈ n.ids) (hab : a < b) :
    ⟨a, b⟩ ∈ n.lanes ↔
      (∃ s ∈ n.sectors, s.id = a ∧ b ∈ s.adjacent) ∨
        ∃ s ∈ n.sectors, s.id = b ∧ a ∈ s.adjacent := by
  rw [mem_lanes_iff]
  constructor
  · rintro ⟨s, hs, other, hother, -, -, heq⟩
    rcases (Lane.between_eq_iff hab).1 heq with ⟨hid, rfl⟩ | ⟨hid, rfl⟩
    · exact .inl ⟨s, hs, hid, hother⟩
    · exact .inr ⟨s, hs, hid, hother⟩
  · rintro (⟨s, hs, rfl, hlisted⟩ | ⟨s, hs, rfl, hlisted⟩)
    · exact ⟨s, hs, b, hlisted, (UInt64.ne_of_lt hab).symm, hb, (Lane.between_of_lt hab).symm⟩
    · exact ⟨s, hs, a, hlisted, UInt64.ne_of_lt hab, ha, (Lane.between_of_gt hab).symm⟩

/-- **The lanes of a neighbourhood.** However often its sectors mention one another, and from
whichever side, no lane is listed twice; every lane has the lesser id first and two displayed ends;
and between two displayed sectors there is a lane exactly if a displayed sector of either id lists
the other id. The lanes come in the order of their first mentions: by the mentioning sector, and
within one sector by the place in its adjacency. -/
theorem lanes_listed (n : Neighborhood) :
    n.lanes.Nodup ∧
    (∀ l ∈ n.lanes, l.start < l.stop ∧ l.start ∈ n.ids ∧ l.stop ∈ n.ids) ∧
    (∀ a b, a ∈ n.ids → b ∈ n.ids → a < b → (⟨a, b⟩ ∈ n.lanes ↔
      (∃ s ∈ n.sectors, s.id = a ∧ b ∈ s.adjacent) ∨
        ∃ s ∈ n.sectors, s.id = b ∧ a ∈ s.adjacent)) ∧
    n.lanes.Pairwise fun l m => ∃ r t, n.FirstMention l r ∧ n.FirstMention m t ∧ r.Before t := by
  refine ⟨n.nodup_lanes, ?_, fun a b ha hb hab => mem_lanes_of_lt ha hb hab, n.lanes_ordered⟩
  intro l hl
  obtain ⟨s, -, other, -, hne, -, rfl⟩ := mem_lanes_iff.1 hl
  exact ⟨Lane.start_lt_stop_between hne, ends_of_mem_lanes hl⟩

/-! ## A tangle -/

/-- Sector 2 is displayed twice, lists itself, and lists 5 twice before 5 lists it; only 5
lists 1, and 9 is not displayed. -/
def tangle : Neighborhood where
  center := 1
  sectors :=
    [{ id := 2, adjacent := [2, 5, 9, 5], visited := true },
      { id := 5, adjacent := [1, 2], visited := true },
      { id := 1, adjacent := [2], visited := true },
      { id := 2, adjacent := [1], visited := false }]

/-- The tangle has three lanes. The lane between 1 and 5 is one of them, since 5 lists 1. -/
theorem tangle_lanes :
    tangle.lanes = [⟨2, 5⟩, ⟨1, 5⟩, ⟨1, 2⟩] ∧ 1 ∈ tangle.ids ∧ 5 ∈ tangle.ids ∧ (1 : SectorId) < 5 ∧
    ((∃ s ∈ tangle.sectors, s.id = 1 ∧ 5 ∈ s.adjacent) ∨
      ∃ s ∈ tangle.sectors, s.id = 5 ∧ 1 ∈ s.adjacent) := by
  have hlanes : tangle.lanes = [⟨2, 5⟩, ⟨1, 5⟩, ⟨1, 2⟩] := by decide
  have h1 : 1 ∈ tangle.ids := by decide
  have h5 : 5 ∈ tangle.ids := by decide
  have hlt : (1 : SectorId) < 5 := by decide
  obtain ⟨-, -, hmentioned, -⟩ := lanes_listed tangle
  have hlisted : ⟨1, 5⟩ ∈ tangle.lanes := by
    rw [hlanes]
    decide
  exact ⟨hlanes, h1, h5, hlt, (hmentioned 1 5 h1 h5 hlt).1 hlisted⟩

end Neighborhood

end LaneChart
