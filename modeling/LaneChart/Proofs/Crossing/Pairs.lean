import Mathlib.Data.List.Basic
import Mathlib.Data.List.Nodup
import Mathlib.Data.Prod.Basic
import LaneChart.Proofs.Crossing.Segments

/-!
# Which pairs of lanes are counted

Crossing lanes are numbered by their places in the list, and a pair is listed with the lesser number
first. So a pair of places is looked at once and from one side only, and what is counted could
depend on which side that is. It does not, since crossing is symmetric to the last bit: the products
that decide it are the same ones, only asked for in another order (`lanesCross_comm`).

`crossings` lists the crossing lanes themselves in place of their numbers. It is what the numbers
stand for (`map_pairs`), and it says how the count grows with one more lane (`count_cons`):

> `count_of_reordered`: however the lanes are listed, the count is the same, and each pair of places
> is counted once if its lanes cross, and otherwise not.
-/

namespace LaneChart.Crossing

variable {p : Placement} {l : Lane} {lanes lanes' : List Lane}

/-! ## The test -/

theorem lanesCross_self (p : Placement) (l : Lane) : lanesCross p l l = false :=
  if_pos l.sharesEnd_self

/-- Whether the lanes at two places of a list cross. -/
def crossAt (p : Placement) (lanes : List Lane) (i j : Nat) : Bool :=
  match lanes[i]?, lanes[j]? with
  | some l, some m => lanesCross p l m
  | _, _ => false

theorem crossAt_comm (p : Placement) (lanes : List Lane) (i j : Nat) :
    crossAt p lanes i j = crossAt p lanes j i := by
  unfold crossAt
  cases lanes[i]? with
  | none => cases lanes[j]? <;> rfl
  | some l =>
    cases lanes[j]? with
    | none => rfl
    | some m => exact lanesCross_comm p l m

theorem crossAt_self (p : Placement) (lanes : List Lane) (i : Nat) :
    crossAt p lanes i i = false := by
  unfold crossAt
  cases lanes[i]? with
  | none => rfl
  | some l => exact lanesCross_self p l

/-! ## The pairs of numbers -/

theorem crossedFrom_cons (p : Placement) (l m : Lane) (rest : List Lane) (k : Nat) :
    crossedFrom p l (m :: rest) k =
      if lanesCross p l m then k :: crossedFrom p l rest (k + 1)
      else crossedFrom p l rest (k + 1) := by
  unfold crossedFrom
  rw [List.zipIdx_cons]
  by_cases hcross : lanesCross p l m = true
  · simp only [List.filterMap_cons, hcross, if_true]
  · simp only [List.filterMap_cons, hcross, if_false, Bool.false_eq_true]

theorem mem_crossedFrom {j k : Nat} :
    j ∈ crossedFrom p l lanes k ↔
      k ≤ j ∧ ∃ m, lanes[j - k]? = some m ∧ lanesCross p l m = true := by
  unfold crossedFrom
  rw [List.mem_filterMap]
  constructor
  · rintro ⟨⟨m, n⟩, hmem, hkept⟩
    obtain ⟨hle, hm⟩ := List.mk_mem_zipIdx_iff_le_and_getElem?_sub.1 hmem
    obtain ⟨hcross, heq⟩ := Option.ite_none_right_eq_some.1 hkept
    obtain rfl := Option.some.inj heq
    exact ⟨hle, m, hm, hcross⟩
  · rintro ⟨hle, m, hm, hcross⟩
    exact ⟨(m, j), List.mk_mem_zipIdx_iff_le_and_getElem?_sub.2 ⟨hle, hm⟩, if_pos hcross⟩

theorem nodup_crossedFrom (p : Placement) (l : Lane) (lanes : List Lane) (k : Nat) :
    (crossedFrom p l lanes k).Nodup := by
  induction lanes generalizing k with
  | nil => exact List.nodup_nil
  | cons m rest ih =>
    rw [crossedFrom_cons]
    split
    · refine List.nodup_cons.2 ⟨?_, ih (k + 1)⟩
      intro hmem
      have hle := (mem_crossedFrom.1 hmem).1
      omega
    · exact ih (k + 1)

/-- The pairs are those of the places whose lanes cross, the lesser number first. -/
theorem mem_pairsFrom {i j k : Nat} :
    (i, j) ∈ pairsFrom p lanes k ↔ k ≤ i ∧ i < j ∧ crossAt p lanes (i - k) (j - k) = true := by
  induction lanes generalizing k with
  | nil => simp [pairsFrom, crossAt]
  | cons l rest ih =>
    rw [pairsFrom, List.mem_append, List.mem_map, ih]
    constructor
    · rintro (⟨b, hb, heq⟩ | ⟨hle, hlt, hcross⟩)
      · obtain ⟨rfl, rfl⟩ := Prod.mk.inj heq
        obtain ⟨hle, m, hm, hcross⟩ := mem_crossedFrom.1 hb
        have hnext : b - k = b - (k + 1) + 1 := by omega
        refine ⟨Nat.le_refl _, hle, ?_⟩
        rw [Nat.sub_self, hnext]
        simp only [crossAt, List.getElem?_cons_zero, List.getElem?_cons_succ, hm, hcross]
      · have hi : i - k = i - (k + 1) + 1 := by omega
        have hj : j - k = j - (k + 1) + 1 := by omega
        refine ⟨by omega, hlt, ?_⟩
        rw [hi, hj]
        exact hcross
    · rintro ⟨hle, hlt, hcross⟩
      have hj : j - k = j - (k + 1) + 1 := by omega
      rcases Nat.eq_or_lt_of_le hle with rfl | hlater
      · left
        refine ⟨j, mem_crossedFrom.2 ⟨hlt, ?_⟩, rfl⟩
        rw [Nat.sub_self, hj] at hcross
        unfold crossAt at hcross
        rw [List.getElem?_cons_zero, List.getElem?_cons_succ] at hcross
        cases hm : rest[j - (k + 1)]? with
        | none => simp [hm] at hcross
        | some m => exact ⟨m, rfl, by simpa [hm] using hcross⟩
      · right
        have hi : i - k = i - (k + 1) + 1 := by omega
        rw [hi, hj] at hcross
        exact ⟨hlater, hlt, hcross⟩

theorem nodup_pairsFrom (p : Placement) (lanes : List Lane) (k : Nat) :
    (pairsFrom p lanes k).Nodup := by
  induction lanes generalizing k with
  | nil => exact List.nodup_nil
  | cons l rest ih =>
    rw [pairsFrom]
    refine List.Nodup.append ((nodup_crossedFrom p l rest (k + 1)).map (Prod.mk_right_injective k))
      (ih (k + 1)) ?_
    -- a pair that starts with this lane is no pair of the lanes behind it
    rintro ⟨i, j⟩ hfirst hlater
    obtain ⟨b, -, heq⟩ := List.mem_map.1 hfirst
    obtain ⟨rfl, -⟩ := Prod.mk.inj heq
    have hle := (mem_pairsFrom.1 hlater).1
    omega

theorem count_pairs (p : Placement) (lanes : List Lane) (i j : Nat) :
    (pairs p lanes).count (i, j) = if i < j ∧ crossAt p lanes i j = true then 1 else 0 := by
  have hmem : (i, j) ∈ pairs p lanes ↔ i < j ∧ crossAt p lanes i j = true := by
    unfold pairs
    rw [mem_pairsFrom]
    simp only [Nat.zero_le, true_and, Nat.sub_zero]
  unfold pairs at hmem ⊢
  split
  · next h => exact List.count_eq_one_of_mem (nodup_pairsFrom p lanes 0) (hmem.2 h)
  · next h => exact List.count_eq_zero_of_not_mem fun hin => h (hmem.1 hin)

/-- **A pair of places is counted once or not at all**, whichever of the two is named first. -/
theorem count_pairs_add (p : Placement) (lanes : List Lane) (i j : Nat) :
    (pairs p lanes).count (i, j) + (pairs p lanes).count (j, i) = (crossAt p lanes i j).toNat := by
  rw [count_pairs, count_pairs, crossAt_comm p lanes j i]
  cases hcross : crossAt p lanes i j with
  | false => simp
  | true =>
    have hne : i ≠ j := by
      rintro rfl
      rw [crossAt_self] at hcross
      exact Bool.false_ne_true hcross
    rcases Nat.lt_or_gt_of_ne hne with hlt | hlt
    · rw [if_pos ⟨hlt, rfl⟩, if_neg fun h => Nat.lt_asymm hlt h.1]
      rfl
    · rw [if_neg fun h => Nat.lt_asymm hlt h.1, if_pos ⟨hlt, rfl⟩]
      rfl

/-! ## The crossing lanes themselves -/

/-- The crossing lanes, in the order of their pairs of numbers. -/
def crossings (p : Placement) : List Lane → List (Lane × Lane)
  | [] => []
  | l :: rest => (rest.filter (lanesCross p l)).map (l, ·) ++ crossings p rest

/-- The numbers of crossed lanes stand for these lanes, in a list that goes on with them. -/
theorem map_crossedFrom (p : Placement) (l : Lane) (before rest : List Lane) :
    (crossedFrom p l rest before.length).map ((before ++ rest)[·]?) =
      (rest.filter (lanesCross p l)).map some := by
  induction rest generalizing before with
  | nil => rfl
  | cons m rest ih =>
    have hnext := ih (before ++ [m])
    rw [List.length_append, List.length_singleton, List.append_assoc, List.singleton_append]
      at hnext
    have hfirst : (before ++ m :: rest)[before.length]? = some m := by simp
    rw [crossedFrom_cons, List.filter_cons]
    split
    · rw [List.map_cons, List.map_cons, hnext, hfirst]
    · exact hnext

theorem map_pairsFrom (p : Placement) (before rest : List Lane) :
    (pairsFrom p rest before.length).map
        (fun q => ((before ++ rest)[q.1]?, (before ++ rest)[q.2]?)) =
      (crossings p rest).map fun q => (some q.1, some q.2) := by
  induction rest generalizing before with
  | nil => rfl
  | cons l rest ih =>
    have hlater := ih (before ++ [l])
    have hcrossed := map_crossedFrom p l (before ++ [l]) rest
    rw [List.length_append, List.length_singleton, List.append_assoc, List.singleton_append]
      at hlater hcrossed
    have hfirst : (before ++ l :: rest)[before.length]? = some l := by simp
    have hsplit := congrArg (List.map fun m => (some l, m)) hcrossed
    rw [List.map_map, List.map_map] at hsplit
    rw [pairsFrom, crossings, List.map_append, List.map_append, hlater, List.map_map, List.map_map]
    congr 1
    simp only [Function.comp_def, hfirst] at hsplit ⊢
    exact hsplit

/-- **What the pairs stand for**: the lanes at their places are the crossing lanes. -/
theorem map_pairs (p : Placement) (lanes : List Lane) :
    (pairs p lanes).map (fun q => (lanes[q.1]?, lanes[q.2]?)) =
      (crossings p lanes).map fun q => (some q.1, some q.2) :=
  map_pairsFrom p [] lanes

theorem count_eq (p : Placement) (lanes : List Lane) :
    count p lanes = (crossings p lanes).length := by
  have hlength := congrArg List.length (map_pairs p lanes)
  rw [List.length_map, List.length_map] at hlength
  exact hlength

/-- One more lane in front adds the crossings that it takes part in. -/
theorem count_cons (p : Placement) (l : Lane) (rest : List Lane) :
    count p (l :: rest) = rest.countP (lanesCross p l) + count p rest := by
  rw [count_eq, count_eq, crossings, List.length_append, List.length_map,
    List.countP_eq_length_filter]

/-! ## Other orders -/

/-- **The count does not depend on how lanes are listed.** Crossing is symmetric; each pair of
places is listed once if its lanes cross, under one of its two orders, and otherwise not; and the
number of pairs is the same for the lanes in any other order. -/
theorem count_of_reordered (p : Placement) (h : lanes.Perm lanes') :
    count p lanes = count p lanes' ∧
    (∀ l m, lanesCross p l m = lanesCross p m l) ∧
    ∀ i j, (pairs p lanes).count (i, j) + (pairs p lanes).count (j, i) =
      (crossAt p lanes i j).toNat := by
  refine ⟨?_, lanesCross_comm p, count_pairs_add p lanes⟩
  induction h with
  | nil => rfl
  | cons l h ih => rw [count_cons, count_cons, h.countP_eq, ih]
  | swap l m rest =>
    -- the two lanes in front exchange who counts the crossing between them
    simp only [count_cons, List.countP_cons]
    rw [lanesCross_comm p m l]
    omega
  | trans _ _ ih ih' => exact ih.trans ih'

/-- The diagonals of a square, its left side, and a lane across all three. -/
def square : Placement :=
  IdMap.ofList [(1, ⟨0, 0⟩), (2, ⟨4, 4⟩), (3, ⟨0, 4⟩), (4, ⟨4, 0⟩), (5, ⟨-1, 1⟩), (6, ⟨5, 1⟩)]

def squareLanes : List Lane := [⟨1, 2⟩, ⟨3, 4⟩, ⟨1, 3⟩, ⟨6, 5⟩]

/-- Their four crossings are counted from either end of the list, in other pairs of numbers. -/
theorem square_reordered :
    squareLanes.Perm squareLanes.reverse ∧
    pairs square squareLanes = [(0, 1), (0, 3), (1, 3), (2, 3)] ∧
    pairs square squareLanes.reverse = [(0, 1), (0, 2), (0, 3), (2, 3)] ∧
    count square squareLanes.reverse = 4 := by
  have hperm : squareLanes.Perm squareLanes.reverse := (List.reverse_perm squareLanes).symm
  have hpairs : pairs square squareLanes = [(0, 1), (0, 3), (1, 3), (2, 3)] := by decide +kernel
  obtain ⟨hcount, -, -⟩ := count_of_reordered square hperm
  refine ⟨hperm, hpairs, by decide +kernel, ?_⟩
  rw [← hcount]
  exact congrArg List.length hpairs

end LaneChart.Crossing
