import Mathlib.Data.List.Count
import Mathlib.Data.List.Nodup
import Mathlib.Data.List.Pairwise
import LaneChart.Proofs.Layout.Traversal

/-!
# The cells of a tree, in the order of a list

A list of cells is a tree when every child stands behind its parent and every cell but the first one
has one parent (`Rooted`). Then every cell has a depth, and only one.

The cells of a part stand in one run that starts with its root (`IsPart`). So what is said of the
list is proved of parts, by induction on the part: seen from its root, its cells come in the order
of the run (`preorder_part`), and its root together with the children of its cells are the run again
(`children_part`), which gives every other cell one parent.

`Fits` is what cutting has to do with depth: a part that may be cut a number of times is no deeper
than that, and its leaves hold one body unless they are that deep.

> `wellFormed_build`: the cells of the tree of some positions are a tree in preorder, no deeper than
> allowed; a cell that was cut deals its bodies out to its children, every body is in one leaf, and
> the cells are the ones that filling a list in place comes to.
-/

namespace LaneChart.Layout.QuadTree

variable {t u nw ne sw se : QuadTree} {bs : List NumberedBody} {m : CellSummary} {i j d e : Nat}
variable {cells : List Cell}

/-! ## Lists of cells that are trees -/

/-- The places of the children of a cell. -/
def childrenAt (cells : List Cell) (i : Nat) : List Nat :=
  (cells[i]?.map fun c => c.children.flatMap Option.toList).getD []

/-- How many cells lie above a cell. -/
inductive AtDepth (cells : List Cell) : Nat → Nat → Prop
  | root : AtDepth cells 0 0
  | child {i j d : Nat} (h : AtDepth cells i d) (hj : j ∈ childrenAt cells i) :
      AtDepth cells j (d + 1)

/-- The places at and below a cell, parents first and children in order, as far down as
some levels. -/
def preorder (cells : List Cell) : Nat → Nat → List Nat
  | 0, _ => []
  | levels + 1, i => i :: (childrenAt cells i).flatMap (preorder cells levels)

/-- Children stand behind their parents, and every cell but the first one has one parent. -/
structure Rooted (cells : List Cell) : Prop where
  forward : ∀ i, ∀ j ∈ childrenAt cells i, i < j ∧ j < cells.length
  parent : ∀ j, 0 < j → j < cells.length → ∃! i, j ∈ childrenAt cells i

namespace Rooted

theorem exists_depth (h : Rooted cells) (hi : i < cells.length) : ∃ d, AtDepth cells i d := by
  induction i using Nat.strongRecOn with
  | ind i ih =>
    by_cases hroot : i = 0
    · subst hroot
      exact ⟨0, .root⟩
    obtain ⟨p, hp, -⟩ := h.parent i (by omega) hi
    have hlt := (h.forward p i hp).1
    obtain ⟨d, hd⟩ := ih p hlt (by omega)
    exact ⟨d + 1, hd.child hp⟩

theorem depth_unique (h : Rooted cells) (hd : AtDepth cells i d) (he : AtDepth cells i e) :
    d = e := by
  induction hd generalizing e with
  | root =>
    cases he with
    | root => rfl
    | child _ hj => exact absurd (h.forward _ _ hj).1 (Nat.not_lt_zero _)
  | @child i j d hd hj ih =>
    obtain ⟨hlt, hin⟩ := h.forward i j hj
    cases he with
    | root => exact absurd hlt (Nat.not_lt_zero _)
    | @child k _ e he hk =>
      have hsame : k = i := (h.parent j (by omega) hin).unique hk hj
      rw [ih (hsame ▸ he)]

end Rooted

/-- Lists that have an element in common are one list, where all of them together repeat nothing. -/
theorem eq_of_nodup_flatMap {α β : Type} {f : α → List β} {l : List α} {a a' : α} {b : β}
    (h : (l.flatMap f).Nodup) (ha : a ∈ l) (ha' : a' ∈ l) (hb : b ∈ f a) (hb' : b ∈ f a') :
    a = a' := by
  by_contra hne
  have hpairwise : l.Pairwise fun x y => (f x).Disjoint (f y) := (List.nodup_flatMap.1 h).2
  have : Std.Symm fun x y => (f x).Disjoint (f y) := ⟨fun _ _ h b hb hb' => h hb' hb⟩
  exact hpairwise.forall ha ha' hne hb hb'

/-! ## The children of a part -/

theorem IsPart.childrenAt_leaf (h : t.IsPart i (.leaf m bs)) : childrenAt t.cells i = [] := by
  unfold childrenAt
  rw [getElem?_of_prefix_drop h.cells]
  rfl

/-- The children of a cell that was cut are the roots of its quarters. -/
theorem IsPart.childrenAt_split (h : t.IsPart i (.split m nw ne sw se)) :
    childrenAt t.cells i = (nw.root? (i + 1)).toList ++ (ne.root? (i + 1 + nw.count)).toList ++
      (sw.root? (i + 1 + nw.count + ne.count)).toList ++
      (se.root? (i + 1 + nw.count + ne.count + sw.count)).toList := by
  unfold childrenAt
  rw [getElem?_of_prefix_drop h.cells]
  simp [List.flatMap_cons]

theorem root?_of_ne_empty (hsome : u ≠ .empty) : u.root? i = some i := by
  cases u with
  | empty => exact absurd rfl hsome
  | leaf m bs => rfl
  | split m nw ne sw se => rfl

theorem eq_of_mem_root? {q : QuadTree} {start : Nat} (h : j ∈ (q.root? start).toList) :
    j = start ∧ q ≠ .empty := by
  cases q with
  | empty => exact absurd h List.not_mem_nil
  | leaf m bs => exact ⟨List.mem_singleton.1 h, nofun⟩
  | split m nw ne sw se => exact ⟨List.mem_singleton.1 h, nofun⟩

/-- A child of a cell that was cut is one of its quarters, and stands behind it. -/
theorem IsPart.child (h : t.IsPart i (.split m nw ne sw se)) (hj : j ∈ childrenAt t.cells i) :
    i < j ∧ ∃ q ∈ [nw, ne, sw, se], t.IsPart j q ∧ q ≠ .empty := by
  obtain ⟨pnw, pne, psw, pse⟩ := h.quarters
  rw [h.childrenAt_split, List.mem_append, List.mem_append, List.mem_append] at hj
  obtain ((hnw | hne) | hsw) | hse := hj
  · obtain ⟨rfl, hsome⟩ := eq_of_mem_root? hnw
    exact ⟨by omega, nw, by simp, pnw, hsome⟩
  · obtain ⟨rfl, hsome⟩ := eq_of_mem_root? hne
    exact ⟨by omega, ne, by simp, pne, hsome⟩
  · obtain ⟨rfl, hsome⟩ := eq_of_mem_root? hsw
    exact ⟨by omega, sw, by simp, psw, hsome⟩
  · obtain ⟨rfl, hsome⟩ := eq_of_mem_root? hse
    exact ⟨by omega, se, by simp, pse, hsome⟩

/-- The root of a part, where it has one, holds the bodies of the part. -/
theorem IsPart.root_bodies (h : t.IsPart i u) :
    (u.root? i).toList.flatMap t.bodiesAt = u.bodies := by
  cases u with
  | empty => rfl
  | leaf m bs =>
    show [i].flatMap t.bodiesAt = bs
    rw [List.flatMap_singleton, h.bodiesAt_leaf]
  | split m nw ne sw se =>
    show [i].flatMap t.bodiesAt = _
    rw [List.flatMap_singleton, h.bodiesAt_split]

theorem IsPart.bodiesAt_eq (h : t.IsPart i u) (hsome : u ≠ .empty) : t.bodiesAt i = u.bodies := by
  rw [← h.root_bodies, root?_of_ne_empty hsome]
  exact (List.flatMap_singleton ..).symm

/-- **A cell that was cut deals its bodies out to its children.** -/
theorem IsPart.dealt (h : t.IsPart i (.split m nw ne sw se)) :
    (childrenAt t.cells i).flatMap t.bodiesAt = t.bodiesAt i := by
  obtain ⟨pnw, pne, psw, pse⟩ := h.quarters
  rw [h.childrenAt_split, List.flatMap_append, List.flatMap_append, List.flatMap_append,
    pnw.root_bodies, pne.root_bodies, psw.root_bodies, pse.root_bodies, h.bodiesAt_split]
  rfl

/-! ## How deep a tree is -/

/-- A tree that may be cut a number of times: it is no deeper, and a leaf that could still
be cut holds one body. -/
inductive Fits : QuadTree → Nat → Prop
  | empty (d : Nat) : Fits .empty d
  | leaf {bs : List NumberedBody} {d : Nat} (m : CellSummary) (h : bs.length = 1 ∨ d = 0) :
      Fits (.leaf m bs) d
  | split {nw ne sw se : QuadTree} {d : Nat} (m : CellSummary) (hnw : Fits nw d) (hne : Fits ne d)
      (hsw : Fits sw d) (hse : Fits se d) : Fits (.split m nw ne sw se) (d + 1)

theorem fits_ofBodies (depth : Nat) (bs : List NumberedBody) (corner : Position) (width : Float32) :
    (ofBodies depth bs corner width).Fits depth := by
  induction depth generalizing bs corner width with
  | zero =>
    match bs with
    | [] => exact .empty 0
    | [b] => exact .leaf _ (.inl rfl)
    | b :: c :: rest => exact .leaf _ (.inr rfl)
  | succ depth ih =>
    match bs with
    | [] => exact .empty _
    | [b] => exact .leaf _ (.inl rfl)
    | b :: c :: rest => exact .split _ (ih _ _ _) (ih _ _ _) (ih _ _ _) (ih _ _ _)

/-- **Every level has a cell for a body at most.** -/
theorem Holds.count_le (h : t.Holds bs) (hfits : t.Fits d) : t.count ≤ bs.length * (d + 1) := by
  induction h generalizing d with
  | empty => exact Nat.zero_le _
  | leaf width hbodies =>
    exact Nat.mul_pos (List.length_pos_of_ne_nil hbodies) (Nat.succ_pos d)
  | @split bs nw ne sw se inNw inNe inSw inSe width hbodies hnw hne hsw hse hdealt ihnw ihne ihsw
      ihse =>
    cases hfits with
    | @split _ _ _ _ d _ fnw fne fsw fse =>
      have hpos : 0 < bs.length := List.length_pos_of_ne_nil hbodies
      have hlength : bs.length = inNw.length + inNe.length + inSw.length + inSe.length := by
        rw [← hdealt.length_eq]
        simp only [List.length_append]
      have hquarters : nw.count + ne.count + sw.count + se.count ≤ bs.length * (d + 1) := by
        rw [hlength, Nat.add_mul, Nat.add_mul, Nat.add_mul]
        exact Nat.add_le_add (Nat.add_le_add (Nat.add_le_add (ihnw fnw) (ihne fne)) (ihsw fsw))
          (ihse fse)
      rw [Nat.mul_succ]
      unfold count
      omega

/-! ## The run of a part -/

/-- **From its root, the cells of a part come in the order of its run.** -/
theorem preorder_part (hpart : t.IsPart i u) (hfits : u.Fits d) :
    (u.root? i).toList.flatMap (preorder t.cells (d + 1)) = List.range' i u.count := by
  induction hfits generalizing i with
  | empty d => rfl
  | @leaf bs d m _ =>
    show i :: (childrenAt t.cells i).flatMap (preorder t.cells d) ++ [] = [i]
    rw [hpart.childrenAt_leaf]
    rfl
  | @split nw ne sw se d m _ _ _ _ ihnw ihne ihsw ihse =>
    obtain ⟨pnw, pne, psw, pse⟩ := hpart.quarters
    show i :: (childrenAt t.cells i).flatMap (preorder t.cells (d + 1)) ++ [] = _
    rw [List.append_nil, hpart.childrenAt_split, List.flatMap_append, List.flatMap_append,
      List.flatMap_append, ihnw pnw, ihne pne, ihsw psw, ihse pse, range'_split]

/-- Four heads and four tails, dealt out to their lists. -/
theorem perm_of_heads {α : Type} [DecidableEq α] {a b c d a' b' c' d' la lb lc ld : List α}
    (ha : (a ++ a').Perm la) (hb : (b ++ b').Perm lb) (hc : (c ++ c').Perm lc)
    (hd : (d ++ d').Perm ld) :
    (a ++ b ++ c ++ d ++ (a' ++ b' ++ c' ++ d')).Perm (la ++ lb ++ lc ++ ld) := by
  refine List.Perm.trans ?_ (((ha.append hb).append hc).append hd)
  refine List.perm_iff_count.2 fun x => ?_
  simp only [List.count_append]
  omega

/-- **The root of a part and the children of its cells are its run**, each place once. -/
theorem children_part (u : QuadTree) (hpart : t.IsPart i u) :
    ((u.root? i).toList ++ (List.range' i u.count).flatMap (childrenAt t.cells)).Perm
      (List.range' i u.count) := by
  induction u generalizing i with
  | empty => exact .nil
  | leaf m bs =>
    show ([i] ++ [i].flatMap (childrenAt t.cells)).Perm [i]
    rw [List.flatMap_singleton, hpart.childrenAt_leaf]
    exact .rfl
  | split m nw ne sw se ihnw ihne ihsw ihse =>
    obtain ⟨pnw, pne, psw, pse⟩ := hpart.quarters
    rw [range'_split, List.flatMap_cons, hpart.childrenAt_split, List.flatMap_append,
      List.flatMap_append, List.flatMap_append]
    exact (perm_of_heads (ihnw pnw) (ihne pne) (ihsw psw) (ihse pse)).cons i

theorem lt_of_mem_childrenAt (hj : j ∈ childrenAt cells i) : i < cells.length := by
  by_contra hi
  unfold childrenAt at hj
  rw [List.getElem?_eq_none (by omega)] at hj
  exact absurd hj List.not_mem_nil

/-- A cell with a child was cut. -/
theorem Holds.cut_of_child (h : t.Holds bs) (hj : j ∈ childrenAt t.cells i) :
    ∃ m nw ne sw se, t.IsPart i (.split m nw ne sw se) := by
  have hlength : t.cells.length = t.count := length_cellsFrom t 0
  have hi := lt_of_mem_childrenAt hj
  obtain ⟨v, below, hv, hholds, hbelow⟩ := h.exists_part t.isPart_self (Nat.zero_le i) (by omega)
  cases v with
  | empty =>
    cases hholds
    exact absurd rfl hbelow
  | leaf m bs =>
    rw [hv.childrenAt_leaf] at hj
    exact absurd hj List.not_mem_nil
  | split m nw ne sw se => exact ⟨m, nw, ne, sw, se, hv⟩

/-- Beside the first place, the children of all cells are the places of the list. -/
theorem children_perm (hsome : t ≠ .empty) :
    (0 :: (List.range' 0 t.cells.length).flatMap (childrenAt t.cells)).Perm
      (List.range' 0 t.cells.length) := by
  have hlength : t.cells.length = t.count := length_cellsFrom t 0
  have hrun := children_part t t.isPart_self
  rwa [root?_of_ne_empty hsome, ← hlength] at hrun

/-- The cells of a tree of bodies are a tree. -/
theorem Holds.rooted (h : t.Holds bs) (hsome : t ≠ .empty) :
    Rooted t.cells ∧ ∀ i, (childrenAt t.cells i).Nodup := by
  have hplace {i : Nat} : i ∈ List.range' 0 t.cells.length ↔ i < t.cells.length := by
    rw [List.mem_range'_1]
    omega
  have hmem {i j : Nat} (hj : j ∈ childrenAt t.cells i) : i ∈ List.range' 0 t.cells.length :=
    hplace.2 (lt_of_mem_childrenAt hj)
  have hrun := children_perm hsome
  have hnodup := (List.nodup_cons.1 (hrun.nodup_iff.2 List.nodup_range')).2
  refine ⟨⟨?_, ?_⟩, ?_⟩
  · intro i j hj
    obtain ⟨m, nw, ne, sw, se, hv⟩ := h.cut_of_child hj
    have hrange := hrun.subset (List.mem_cons_of_mem 0 (List.mem_flatMap.2 ⟨i, hmem hj, hj⟩))
    exact ⟨(hv.child hj).1, hplace.1 hrange⟩
  · intro j hpos hj
    obtain hzero | hchild := List.mem_cons.1 (hrun.symm.subset (hplace.2 hj))
    · omega
    obtain ⟨i, -, hi⟩ := List.mem_flatMap.1 hchild
    exact ⟨i, hi, fun k hk => eq_of_nodup_flatMap hnodup (hmem hk) (hmem hi) hk hi⟩
  · intro i
    by_cases hi : i < t.cells.length
    · exact (List.nodup_flatMap.1 hnodup).1 i (hplace.2 hi)
    · unfold childrenAt
      rw [List.getElem?_eq_none (by omega)]
      exact List.nodup_nil

/-- No cell holds a body twice. -/
theorem Holds.nodup_at (h : t.Holds bs) (hbodies : (t.bodiesAt 0).Nodup)
    (hd : AtDepth t.cells i d) : (t.bodiesAt i).Nodup := by
  induction hd with
  | root => exact hbodies
  | @child i j d _ hj ih =>
    obtain ⟨m, nw, ne, sw, se, hv⟩ := h.cut_of_child hj
    rw [← hv.dealt] at ih
    exact (List.nodup_flatMap.1 ih).1 j hj

/-- A quarter of a tree of bodies is one too. -/
theorem Holds.quarter {q : QuadTree} (h : (QuadTree.split m nw ne sw se).Holds bs)
    (hq : q ∈ [nw, ne, sw, se]) : ∃ below, q.Holds below := by
  cases h with
  | split width _ hnw hne hsw hse _ =>
    simp only [List.mem_cons, List.not_mem_nil, or_false] at hq
    obtain rfl | rfl | rfl | rfl := hq
    · exact ⟨_, hnw⟩
    · exact ⟨_, hne⟩
    · exact ⟨_, hsw⟩
    · exact ⟨_, hse⟩

/-- A quarter may be cut once less. -/
theorem Fits.quarter {q : QuadTree} (h : (QuadTree.split m nw ne sw se).Fits e)
    (hq : q ∈ [nw, ne, sw, se]) : 0 < e ∧ q.Fits (e - 1) := by
  cases h with
  | @split _ _ _ _ d _ hnw hne hsw hse =>
    refine ⟨Nat.succ_pos d, ?_⟩
    simp only [List.mem_cons, List.not_mem_nil, or_false] at hq
    obtain rfl | rfl | rfl | rfl := hq <;> assumption

/-- A cell at a depth may be cut as often as is left. -/
theorem Holds.fits_at (h : t.Holds bs) (hsome : t ≠ .empty) (hfits : t.Fits e)
    (hd : AtDepth t.cells i d) :
    d ≤ e ∧ ∃ v below, t.IsPart i v ∧ v ≠ .empty ∧ v.Holds below ∧ v.Fits (e - d) := by
  induction hd with
  | root => exact ⟨Nat.zero_le e, t, bs, t.isPart_self, hsome, h, hfits⟩
  | @child i j d _ hj ih =>
    obtain ⟨hle, v, below, hv, hvsome, hholds, hleft⟩ := ih
    cases v with
    | empty => exact absurd rfl hvsome
    | leaf m bs =>
      rw [hv.childrenAt_leaf] at hj
      exact absurd hj List.not_mem_nil
    | split m nw ne sw se =>
      obtain ⟨-, q, hq, hpart, hqsome⟩ := hv.child hj
      obtain ⟨below, hbelow⟩ := hholds.quarter hq
      obtain ⟨hpos, hless⟩ := hleft.quarter hq
      refine ⟨by omega, q, below, hpart, hqsome, hbelow, ?_⟩
      rwa [Nat.sub_sub] at hless

theorem Holds.ne_nil (h : t.Holds bs) (hsome : t ≠ .empty) : bs ≠ [] := by
  cases h with
  | empty => exact absurd rfl hsome
  | leaf width hbodies => exact hbodies
  | split width hbodies _ _ _ _ _ => exact hbodies

/-- What stands at a place: a leaf, which holds one body or was out of depth, or a cell
that was cut. -/
theorem Holds.shape_at (h : t.Holds bs) (hsome : t ≠ .empty) (hfits : t.Fits e)
    (hd : AtDepth t.cells i d) : d ≤ e ∧ t.bodiesAt i ≠ [] ∧ ∃ c, t.cells[i]? = some c ∧
      (c.isLeaf = true ∧ ((t.bodiesAt i).length = 1 ∨ d = e) ∨
        c.isLeaf = false ∧ (childrenAt t.cells i).flatMap t.bodiesAt = t.bodiesAt i) := by
  obtain ⟨hle, v, below, hv, hvsome, hholds, hleft⟩ := h.fits_at hsome hfits hd
  have hheld : t.bodiesAt i ≠ [] := by
    rw [hv.bodiesAt_eq hvsome]
    intro hnil
    exact hholds.ne_nil hvsome (hnil ▸ hholds.perm).symm.eq_nil
  refine ⟨hle, hheld, ?_⟩
  cases v with
  | empty => exact absurd rfl hvsome
  | leaf m bs =>
    refine ⟨_, getElem?_of_prefix_drop hv.cells, .inl ⟨rfl, ?_⟩⟩
    rw [hv.bodiesAt_leaf]
    cases hleft with
    | leaf _ hone => exact hone.imp_right fun hzero => by omega
  | split m nw ne sw se =>
    exact ⟨_, getElem?_of_prefix_drop hv.cells, .inr ⟨hholds.isLeaf_split, hv.dealt⟩⟩

/-! ## The whole list -/

/-- A list of cells that is a tree of some bodies in preorder, with the bodies that each
cell holds. -/
structure WellFormed (cells : List Cell) (held : Nat → List NumberedBody) (all : List NumberedBody)
    (maxDepth : Nat) : Prop extends Rooted cells where
  root : 0 < cells.length ∧ (held 0).Perm all
  inPreorder : preorder cells (maxDepth + 1) 0 = List.range cells.length
  siblings : ∀ i, (childrenAt cells i).Nodup
  occupied : ∀ i < cells.length, held i ≠ [] ∧ (held i).Nodup
  dealt : ∀ i c, cells[i]? = some c → c.isLeaf = false →
    ((childrenAt cells i).flatMap held).Perm (held i)
  disjoint : ∀ i, (childrenAt cells i).Pairwise fun j k => (held j).Disjoint (held k)
  leaves : ∀ b ∈ all, ∃! i, cells[i]?.any Cell.isLeaf = true ∧ b ∈ held i
  mass : ∀ i c, cells[i]? = some c → c.summary.mass = Single.ofCount (held i).length
  depth : ∀ i < cells.length, ∃! d, AtDepth cells i d
  shallow : ∀ i d, AtDepth cells i d → d ≤ maxDepth
  single : ∀ i d c, AtDepth cells i d → cells[i]? = some c → c.isLeaf = true →
    (held i).length = 1 ∨ d = maxDepth
  few : cells.length ≤ all.length * (maxDepth + 1)

/-- Every body is in one leaf. -/
theorem Holds.leaves (h : t.Holds bs) (hnodup : bs.Nodup) {b : NumberedBody} (hb : b ∈ bs) :
    ∃! i, t.cells[i]?.any Cell.isLeaf = true ∧ b ∈ t.bodiesAt i := by
  have hlength : t.cells.length = t.count := length_cellsFrom t 0
  have hzero : (0 : Float32).beq 0 = true := by decide
  -- with theta zero the walk from anywhere stops at the leaves
  have hstops := stops_perm_leaves (isDistant_of_zero hzero · ⟨0, 0⟩) h t.isPart_self
  have hdealt : (((List.range' 0 t.count).filter fun i => t.cells[i]?.any Cell.isLeaf).flatMap
      t.bodiesAt).Perm bs :=
    ((hstops.symm.flatMap_right _).trans (stops_perm t t.isPart_self)).trans h.perm
  have hmem {i : Nat} (hi : t.cells[i]?.any Cell.isLeaf = true) :
      i ∈ (List.range' 0 t.count).filter fun i => t.cells[i]?.any Cell.isLeaf := by
    obtain ⟨c, hc, -⟩ := (Option.any_eq_true ..).1 hi
    have hin := (List.getElem?_eq_some_iff.1 hc).1
    exact List.mem_filter.2 ⟨List.mem_range'_1.2 ⟨Nat.zero_le i, by omega⟩, hi⟩
  obtain ⟨i, hi, hbi⟩ := List.mem_flatMap.1 (hdealt.symm.subset hb)
  refine ⟨i, ⟨(List.mem_filter.1 hi).2, hbi⟩, ?_⟩
  rintro k ⟨hk, hbk⟩
  exact eq_of_nodup_flatMap (hdealt.nodup_iff.2 hnodup) (hmem hk) hi hbk hbi

theorem Holds.wellFormed (h : t.Holds bs) (hsome : t ≠ .empty) (hnodup : bs.Nodup)
    (hfits : t.Fits e) : WellFormed t.cells t.bodiesAt bs e := by
  have hlength : t.cells.length = t.count := length_cellsFrom t 0
  have hpos : 0 < t.count := h.count_pos (h.ne_nil hsome)
  obtain ⟨hrooted, hsiblings⟩ := h.rooted hsome
  have hall : (t.bodiesAt 0).Perm bs := t.isPart_self.bodiesAt_eq hsome ▸ h.perm
  have hnodupAt {i d : Nat} (hd : AtDepth t.cells i d) : (t.bodiesAt i).Nodup :=
    h.nodup_at (hall.nodup_iff.2 hnodup) hd
  have hshape {i : Nat} {c : Cell} (hc : t.cells[i]? = some c) :
      ∃ d, AtDepth t.cells i d ∧
        (c.isLeaf = true ∧ ((t.bodiesAt i).length = 1 ∨ d = e) ∨
          c.isLeaf = false ∧ (childrenAt t.cells i).flatMap t.bodiesAt = t.bodiesAt i) := by
    obtain ⟨d, hd⟩ := hrooted.exists_depth (List.getElem?_eq_some_iff.1 hc).1
    obtain ⟨-, -, c', hc', hcases⟩ := h.shape_at hsome hfits hd
    obtain rfl : c' = c := Option.some.inj (hc'.symm.trans hc)
    exact ⟨d, hd, hcases⟩
  refine {
    toRooted := hrooted
    root := ⟨by omega, hall⟩
    inPreorder := ?inPreorder
    siblings := hsiblings
    occupied := fun i hi => ?occupied
    dealt := fun i c hc hbranch => ?dealt
    disjoint := fun i => ?disjoint
    leaves := fun b hb => h.leaves hnodup hb
    mass := fun i c hc => ?mass
    depth := fun i hi => ?depth
    shallow := fun i d hd => (h.shape_at hsome hfits hd).1
    single := fun i d c hd hc hleaf => ?single
    few := hlength ▸ h.count_le hfits }
  case inPreorder =>
    have hrun := preorder_part t.isPart_self hfits
    rw [root?_of_ne_empty hsome] at hrun
    rw [hlength, List.range_eq_range', ← hrun]
    exact (List.flatMap_singleton ..).symm
  case occupied =>
    obtain ⟨d, hd⟩ := hrooted.exists_depth hi
    exact ⟨(h.shape_at hsome hfits hd).2.1, hnodupAt hd⟩
  case dealt =>
    obtain ⟨d, hd, hleaf | ⟨-, hdealt⟩⟩ := hshape hc
    · rw [hleaf.1] at hbranch
      exact absurd hbranch (by decide)
    · rw [hdealt]
  case disjoint =>
    by_cases hnone : childrenAt t.cells i = []
    · rw [hnone]
      exact .nil
    · obtain ⟨j, hj⟩ := List.exists_mem_of_ne_nil _ hnone
      obtain ⟨d, hd⟩ := hrooted.exists_depth (lt_of_mem_childrenAt hj)
      obtain ⟨m, nw, ne, sw, se, hv⟩ := h.cut_of_child hj
      have hheld := hnodupAt hd
      rw [← hv.dealt] at hheld
      exact (List.nodup_flatMap.1 hheld).2
  case mass =>
    obtain ⟨c', below, hc', hperm, hsum⟩ := h.cell (List.getElem?_eq_some_iff.1 hc).1
    obtain rfl : c' = c := Option.some.inj (hc'.symm.trans hc)
    rw [hsum, ← hperm.length_eq]
    rfl
  case depth =>
    obtain ⟨d, hd⟩ := hrooted.exists_depth hi
    exact ⟨d, hd, fun e he => hrooted.depth_unique he hd⟩
  case single =>
    obtain ⟨-, -, c', hc', hcases⟩ := h.shape_at hsome hfits hd
    obtain rfl : c' = c := Option.some.inj (hc'.symm.trans hc)
    obtain ⟨-, hsingle⟩ | ⟨hbranch, -⟩ := hcases
    · exact hsingle
    · rw [hleaf] at hbranch
      exact absurd hbranch (by decide)

/-! ## Filling a list in place -/

/-- A cell that is not known yet. -/
def vacant : Cell := ⟨⟨⟨0, 0⟩, 0, 0⟩, [none, none, none, none]⟩

/-- Put the cells of some bodies behind a list. A cell takes its place before its children do and is
written there after them. The place of the first one is given with the list. -/
def fill : Nat → List NumberedBody → Position → Float32 → List Cell → Option Nat × List Cell
  | depth, bodies, corner, width, cells =>
    let place := cells.length
    let leaf := (some place, (cells ++ [vacant]).set place
      ⟨.ofBodies bodies width, [none, none, none, none]⟩)
    match bodies with
    | [] => (none, cells)
    | [_] => leaf
    | _ =>
      match depth with
      | 0 => leaf
      | depth + 1 =>
        let half := width / 2
        let middle : Position := ⟨corner.x + half, corner.y + half⟩
        let (nw, cells) := fill depth (inQuarter middle true false bodies) ⟨corner.x, middle.y⟩ half
          (cells ++ [vacant])
        let (ne, cells) := fill depth (inQuarter middle false false bodies) middle half cells
        let (sw, cells) := fill depth (inQuarter middle true true bodies) corner half cells
        let (se, cells) := fill depth (inQuarter middle false true bodies) ⟨middle.x, corner.y⟩ half
          cells
        (some place, cells.set place ⟨.ofBodies bodies width, [nw, ne, sw, se]⟩)

theorem set_behind {α : Type} (l rest : List α) (x y : α) :
    (l ++ x :: rest).set l.length y = l ++ y :: rest := by
  simp

/-- **Filling in place comes to the cells of the tree.** -/
theorem fill_eq (depth : Nat) (bs : List NumberedBody) (corner : Position) (width : Float32)
    (cells : List Cell) :
    fill depth bs corner width cells =
      ((ofBodies depth bs corner width).root? cells.length,
        cells ++ (ofBodies depth bs corner width).cellsFrom cells.length) := by
  induction depth generalizing bs corner width cells with
  | zero =>
    match bs with
    | [] => exact Prod.ext rfl (List.append_nil cells).symm
    | [b] => exact Prod.ext rfl (set_behind cells [] vacant _)
    | b :: c :: rest => exact Prod.ext rfl (set_behind cells [] vacant _)
  | succ depth ih =>
    match bs with
    | [] => exact Prod.ext rfl (List.append_nil cells).symm
    | [b] => exact Prod.ext rfl (set_behind cells [] vacant _)
    | b :: c :: rest =>
      refine Prod.ext rfl ?_
      -- each quarter is put behind the cells before it, so it starts where the list says
      simp only [fill, ofBodies, cellsFrom, ih, List.length_append, List.length_singleton,
        length_cellsFrom]
      simp only [List.append_assoc, List.singleton_append]
      exact set_behind cells _ vacant _

/-- **The tree of some positions is well formed**, whatever they are. Filling a list in place comes
to its cells; they are a tree in preorder, no deeper than allowed, with every body in one leaf. -/
theorem wellFormed_build {ps : List Position} (hps : ps ≠ []) (maxDepth : Nat) :
    let t := build ps maxDepth
    (fill maxDepth (numbered ps) (boundingSquare ps).1 (boundingSquare ps).2 []).2 = t.cells ∧
      WellFormed t.cells t.bodiesAt (numbered ps) maxDepth := by
  intro t
  have hbodies : t.Holds (numbered ps) := holds_build ps maxDepth
  have hfits : t.Fits maxDepth := fits_ofBodies ..
  have hsome : t ≠ .empty := by
    intro hempty
    rw [hempty] at hbodies
    generalize hnumbered : numbered ps = bs at hbodies
    cases hbodies
    have hlength : (numbered ps).length = ps.length := by
      unfold numbered
      rw [List.length_map, List.length_zipIdx]
    rw [hnumbered] at hlength
    exact hps (List.eq_nil_of_length_eq_zero hlength.symm)
  refine ⟨?_, hbodies.wellFormed hsome (nodup_numbered ps) hfits⟩
  rw [fill_eq]
  rfl

/-- Four bodies: two at one place, and one with a coordinate that is not a number. -/
def scattered : List Position := [⟨0, 0⟩, ⟨0 / 0, 1⟩, ⟨8, 1⟩, ⟨8, 1⟩]

/-- The body that cannot be compared goes to the east, where it shares a leaf with the two
that cannot be told apart. -/
theorem wellFormed_build_scattered :
    (build scattered 2).cells.map Cell.children =
      [[none, some 1, some 3, none], [none, none, none, some 2], [none, none, none, none],
        [none, none, none, none]] ∧
    WellFormed (build scattered 2).cells (build scattered 2).bodiesAt (numbered scattered) 2 :=
  ⟨by decide +kernel, (wellFormed_build (List.cons_ne_nil _ _) 2).2⟩

end LaneChart.Layout.QuadTree
