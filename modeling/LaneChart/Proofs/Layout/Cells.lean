import Mathlib.Data.List.Perm.Basic
import LaneChart.Layout.QuadTree

/-!
# What the cells of a tree hold

The list of cells forgets the bodies. `parts` lists the subtrees in the same order, so that the two
lists run side by side, and the bodies of a cell are those of its part (`IsPart`, `bodiesAt`).

Cutting a square deals its bodies out to the quarters and loses none. `Holds` says so at every level
of a tree, and what else is needed of trees follows from it:

> `Holds.perm`: the leaves of a tree hold its bodies, each one once.
> `Holds.cell`: a cell knows the number and the mean of the bodies below it.
-/

namespace LaneChart.Layout.QuadTree

variable {t u nw ne sw se : QuadTree} {bs : List NumberedBody} {m : CellSummary} {i j : Nat}

/-! ## Parts and their places -/

/-- The bodies in the leaves. -/
def bodies : QuadTree → List NumberedBody
  | .empty => []
  | .leaf _ bs => bs
  | .split _ nw ne sw se => nw.bodies ++ ne.bodies ++ sw.bodies ++ se.bodies

/-- The subtrees that have cells, parents first. -/
def parts : QuadTree → List QuadTree
  | .empty => []
  | .leaf m bs => [.leaf m bs]
  | .split m nw ne sw se =>
    .split m nw ne sw se :: (nw.parts ++ ne.parts ++ sw.parts ++ se.parts)

/-- The bodies of the cell at a place. -/
def bodiesAt (t : QuadTree) (i : Nat) : List NumberedBody := (t.parts[i]?.map bodies).getD []

theorem length_parts (t : QuadTree) : t.parts.length = t.count := by
  induction t with
  | empty => rfl
  | leaf m bs => rfl
  | split m nw ne sw se hnw hne hsw hse =>
    simp only [parts, count, List.length_cons, List.length_append, hnw, hne, hsw, hse]
    omega

theorem length_cellsFrom (t : QuadTree) (start : Nat) : (t.cellsFrom start).length = t.count := by
  induction t generalizing start with
  | empty => rfl
  | leaf m bs => rfl
  | split m nw ne sw se hnw hne hsw hse =>
    simp only [cellsFrom, count, List.length_cons, List.length_append, hnw, hne, hsw, hse]
    omega

/-- A tree stands at a place of another one: its parts and its cells come there. -/
structure IsPart (t : QuadTree) (i : Nat) (u : QuadTree) : Prop where
  parts : u.parts <+: t.parts.drop i
  cells : u.cellsFrom i <+: t.cells.drop i

theorem isPart_self (t : QuadTree) : t.IsPart 0 t := ⟨List.prefix_rfl, List.prefix_rfl⟩

/-- What stands in a list behind a head, in four runs. -/
theorem prefix_quarters {α : Type} {x : α} {a b c d l : List α}
    (h : x :: (a ++ b ++ c ++ d) <+: l.drop i) :
    a <+: l.drop (i + 1) ∧ b <+: l.drop (i + 1 + a.length) ∧
      c <+: l.drop (i + 1 + a.length + b.length) ∧
      d <+: l.drop (i + 1 + a.length + b.length + c.length) := by
  obtain ⟨rest, hrest⟩ := h
  have htail : l.drop (i + 1) = a ++ (b ++ (c ++ (d ++ rest))) := by
    rw [← List.drop_drop, ← hrest]
    simp
  have hb : l.drop (i + 1 + a.length) = b ++ (c ++ (d ++ rest)) := by
    rw [← List.drop_drop, htail, List.drop_left]
  have hc : l.drop (i + 1 + a.length + b.length) = c ++ (d ++ rest) := by
    rw [← List.drop_drop, hb, List.drop_left]
  have hd : l.drop (i + 1 + a.length + b.length + c.length) = d ++ rest := by
    rw [← List.drop_drop, hc, List.drop_left]
  rw [htail, hb, hc, hd]
  exact ⟨List.prefix_append _ _, List.prefix_append _ _, List.prefix_append _ _,
    List.prefix_append _ _⟩

/-- The quarters of a part stand behind it, one after the other. -/
theorem IsPart.quarters (h : t.IsPart i (.split m nw ne sw se)) :
    t.IsPart (i + 1) nw ∧ t.IsPart (i + 1 + nw.count) ne ∧
      t.IsPart (i + 1 + nw.count + ne.count) sw ∧
      t.IsPart (i + 1 + nw.count + ne.count + sw.count) se := by
  have hparts := prefix_quarters h.parts
  have hcells := prefix_quarters h.cells
  simp only [length_parts] at hparts
  simp only [length_cellsFrom] at hcells
  obtain ⟨pnw, pne, psw, pse⟩ := hparts
  obtain ⟨cnw, cne, csw, cse⟩ := hcells
  exact ⟨⟨pnw, cnw⟩, ⟨pne, cne⟩, ⟨psw, csw⟩, ⟨pse, cse⟩⟩

theorem getElem?_of_prefix_drop {α : Type} {x : α} {rest l : List α} (h : x :: rest <+: l.drop i) :
    l[i]? = some x := by
  obtain ⟨more, hmore⟩ := h
  have hdrop : (l.drop i)[0]? = some x := by
    rw [← hmore]
    rfl
  rw [List.getElem?_drop] at hdrop
  exact hdrop

theorem IsPart.bodiesAt_leaf (h : t.IsPart i (.leaf m bs)) : t.bodiesAt i = bs := by
  unfold bodiesAt
  rw [getElem?_of_prefix_drop h.parts]
  rfl

theorem IsPart.bodiesAt_split (h : t.IsPart i (.split m nw ne sw se)) :
    t.bodiesAt i = (split m nw ne sw se).bodies := by
  unfold bodiesAt
  rw [getElem?_of_prefix_drop h.parts]
  rfl

/-! ## Trees of bodies -/

/-- A tree holds some bodies: every cell sums up its own, and a cell that is cut passes
them all on to its quarters. -/
inductive Holds : QuadTree → List NumberedBody → Prop
  | empty : Holds .empty []
  | leaf {bs : List NumberedBody} (width : Float32) (hbodies : bs ≠ []) :
      Holds (.leaf (.ofBodies bs width) bs) bs
  | split {bs : List NumberedBody} {nw ne sw se : QuadTree}
      {inNw inNe inSw inSe : List NumberedBody}
      (width : Float32) (hbodies : bs ≠ []) (hnw : Holds nw inNw) (hne : Holds ne inNe)
      (hsw : Holds sw inSw) (hse : Holds se inSe)
      (hdealt : (inNw ++ inNe ++ inSw ++ inSe).Perm bs) :
      Holds (.split (.ofBodies bs width) nw ne sw se) bs

/-- Two quarters side by side make a half. -/
theorem half_perm (middle : Position) (south : Bool) (bs : List NumberedBody) :
    (inQuarter middle true south bs ++ inQuarter middle false south bs).Perm
      (bs.filter fun b => decide (b.2.y < middle.y) == south) := by
  have hwest : inQuarter middle true south bs =
      (bs.filter fun b => decide (b.2.y < middle.y) == south).filter
        fun b => decide (b.2.x < middle.x) := by
    rw [List.filter_filter]
    refine List.filter_congr fun b _ => ?_
    show (decide (b.2.x < middle.x) == true && _) = _
    rw [beq_true]
  have heast : inQuarter middle false south bs =
      (bs.filter fun b => decide (b.2.y < middle.y) == south).filter
        fun b => !decide (b.2.x < middle.x) := by
    rw [List.filter_filter]
    refine List.filter_congr fun b _ => ?_
    show (decide (b.2.x < middle.x) == false && _) = _
    rw [beq_false]
  rw [hwest, heast]
  exact List.filter_append_perm _ _

/-- Every body lies in one quarter. -/
theorem quarters_perm (middle : Position) (bs : List NumberedBody) :
    (inQuarter middle true false bs ++ inQuarter middle false false bs ++
      inQuarter middle true true bs ++ inQuarter middle false true bs).Perm bs := by
  have hhalves := (half_perm middle false bs).append (half_perm middle true bs)
  have hsouth : (bs.filter fun b => decide (b.2.y < middle.y) == true) =
      bs.filter fun b => !(decide (b.2.y < middle.y) == false) := by
    refine List.filter_congr fun b _ => ?_
    rw [beq_true, beq_false, Bool.not_not]
  rw [hsouth, ← List.append_assoc] at hhalves
  exact hhalves.trans (List.filter_append_perm _ _)

theorem holds_ofBodies (depth : Nat) (bs : List NumberedBody) (corner : Position)
    (width : Float32) :
    (ofBodies depth bs corner width).Holds bs := by
  induction depth generalizing bs corner width with
  | zero =>
    match bs with
    | [] => exact .empty
    | [b] => exact .leaf width (List.cons_ne_nil _ _)
    | b :: c :: rest => exact .leaf width (List.cons_ne_nil _ _)
  | succ depth ih =>
    match bs with
    | [] => exact .empty
    | [b] => exact .leaf width (List.cons_ne_nil _ _)
    | b :: c :: rest =>
      exact .split width (List.cons_ne_nil _ _) (ih _ _ _) (ih _ _ _) (ih _ _ _) (ih _ _ _)
        (quarters_perm _ _)

theorem holds_build (ps : List Position) (maxDepth : Nat) :
    (build ps maxDepth).Holds (numbered ps) := holds_ofBodies _ _ _ _

/-- **The leaves of a tree hold its bodies**, each one once. -/
theorem Holds.perm (h : t.Holds bs) : t.bodies.Perm bs := by
  induction h with
  | empty => exact .nil
  | leaf width hbodies => exact .rfl
  | split width hbodies hnw hne hsw hse hdealt ihnw ihne ihsw ihse =>
    exact (((ihnw.append ihne).append ihsw).append ihse).trans hdealt

theorem Holds.count_pos (h : t.Holds bs) (hbodies : bs ≠ []) : 0 < t.count := by
  cases h with
  | empty => exact absurd rfl hbodies
  | leaf width _ => exact Nat.one_pos
  | split width _ hnw hne hsw hse hdealt =>
    unfold count
    omega

/-- Every place in the list of cells has a part, and the part holds some bodies. -/
theorem Holds.exists_part (h : u.Holds bs) (hu : t.IsPart i u) (hi : i ≤ j) (hj : j < i + u.count) :
    ∃ v below, t.IsPart j v ∧ v.Holds below ∧ below ≠ [] := by
  induction h generalizing i with
  | empty =>
    have hnone : j < i + 0 := hj
    omega
  | leaf width hbodies =>
    have hone : j < i + 1 := hj
    have hsame : j = i := by omega
    rw [hsame]
    exact ⟨_, _, hu, .leaf width hbodies, hbodies⟩
  | @split bs nw ne sw se _ _ _ _ width hbodies hnw hne hsw hse hdealt ihnw ihne ihsw ihse =>
    have hcount : j < i + (1 + nw.count + ne.count + sw.count + se.count) := hj
    obtain ⟨pnw, pne, psw, pse⟩ := hu.quarters
    -- the cells of a part are its own, then those of one quarter after the other
    by_cases hroot : j = i
    · rw [hroot]
      exact ⟨_, _, hu, .split width hbodies hnw hne hsw hse hdealt, hbodies⟩
    by_cases hinNw : j < i + 1 + nw.count
    · exact ihnw pnw (by omega) hinNw
    by_cases hinNe : j < i + 1 + nw.count + ne.count
    · exact ihne pne (by omega) hinNe
    by_cases hinSw : j < i + 1 + nw.count + ne.count + sw.count
    · exact ihsw psw (by omega) hinSw
    · exact ihse pse (by omega) (by omega)

/-- **A cell sums up its bodies**, in some order of them. -/
theorem Holds.cell (h : t.Holds bs) (hi : i < t.cells.length) :
    ∃ c below, t.cells[i]? = some c ∧ below.Perm (t.bodiesAt i) ∧
      c.summary = .ofBodies below c.summary.width := by
  have hlength : t.cells.length = t.count := length_cellsFrom t 0
  obtain ⟨v, below, hv, hholds, hbelow⟩ := h.exists_part t.isPart_self (Nat.zero_le i) (by omega)
  have hperm := hholds.perm
  cases hholds with
  | empty => exact absurd rfl hbelow
  | leaf width _ =>
    refine ⟨_, _, getElem?_of_prefix_drop hv.cells, ?_, rfl⟩
    rw [hv.bodiesAt_leaf]
  | split width _ hnw hne hsw hse hdealt =>
    refine ⟨_, _, getElem?_of_prefix_drop hv.cells, ?_, rfl⟩
    rw [hv.bodiesAt_split]
    exact hperm.symm

/-! ## Leaves -/

/-- A cell without children. -/
def Cell.isLeaf (c : Cell) : Bool := c.children.all Option.isNone

theorem root?_eq_none {start : Nat} : t.root? start = none ↔ t.count = 0 := by
  cases t with
  | empty => exact iff_of_true rfl rfl
  | leaf m bs => exact iff_of_false nofun nofun
  | split m nw ne sw se =>
    refine iff_of_false nofun ?_
    unfold count
    omega

theorem Holds.eq_nil_of_root? {start : Nat} (h : t.Holds bs)
    (hroot : (t.root? start).isNone = true) : bs = [] := by
  by_contra hbodies
  have hcount := root?_eq_none.1 (Option.isNone_iff_eq_none.1 hroot)
  have hpos := h.count_pos hbodies
  omega

/-- A cell that was cut has a child. -/
theorem Holds.isLeaf_split {a b c d : Nat} (h : (QuadTree.split m nw ne sw se).Holds bs) :
    Cell.isLeaf ⟨m, [nw.root? a, ne.root? b, sw.root? c, se.root? d]⟩ = false := by
  rw [← Bool.not_eq_true]
  intro hleaf
  have hroots : ∀ r ∈ [nw.root? a, ne.root? b, sw.root? c, se.root? d], r.isNone = true :=
    List.all_eq_true.1 hleaf
  cases h with
  | split width hbodies hnw hne hsw hse hdealt =>
    have hinNw := hnw.eq_nil_of_root? (hroots (nw.root? a) (by simp))
    have hinNe := hne.eq_nil_of_root? (hroots (ne.root? b) (by simp))
    have hinSw := hsw.eq_nil_of_root? (hroots (sw.root? c) (by simp))
    have hinSe := hse.eq_nil_of_root? (hroots (se.root? d) (by simp))
    rw [hinNw, hinNe, hinSw, hinSe] at hdealt
    exact hbodies hdealt.symm.eq_nil

end LaneChart.Layout.QuadTree
