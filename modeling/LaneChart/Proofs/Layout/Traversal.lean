import Mathlib.Data.List.Nodup
import Mathlib.Data.List.Perm.Subperm
import LaneChart.Proofs.Layout.Cells
import LaneChart.Proofs.Plane.Exact

/-!
# A walk over the cells accounts for every body once

`repulsion` follows the tree. Over the list of cells the same is done with a stack of
places: take the top one; a leaf and a distant cell push, any other cell puts its children
on the stack (`Walk.step`).

What carries the file is that a walk which has the root of a part on top of its stack sees that part
and nothing else before it comes to what lies below (`Walk.run_part`). So a walk does what the
recursion does, and the recursion is a plain one over the tree:

> `subperm_visits`: it sees every cell of a part at most once, and no other cell.
> `stops_perm`: the cells where it stops hold the bodies of the part, each one once.
> `stops_perm_leaves`: where no cell looks distant, it stops at the leaves.

Nothing is assumed of the arithmetic but that no cell is distant when theta is zero.
-/

namespace LaneChart.Layout.QuadTree

variable {t u nw ne sw se : QuadTree} {bs : List NumberedBody} {m : CellSummary} {i j : Nat}
variable {cells : List Cell} {here : Position} {strength theta : Float32}

/-! ## Walks -/

/-- A walk over a list of cells: the places it has yet to see, the next one first, those it has
seen, those among them where it stopped, and the force so far. -/
structure Walk where
  stack : List Nat
  visited : List Nat
  stopped : List Nat
  force : Position

/-- Whether a walk goes no deeper than a cell. -/
def Cell.stops (c : Cell) (here : Position) (theta : Float32) : Bool :=
  c.isLeaf || c.summary.isDistant here theta

theorem Cell.stops_of_isLeaf {c : Cell} (h : c.isLeaf = true) : c.stops here theta = true := by
  unfold Cell.stops
  rw [h, Bool.true_or]

theorem Cell.stops_of_branch {c : Cell} (h : c.isLeaf = false) :
    c.stops here theta = c.summary.isDistant here theta := by
  unfold Cell.stops
  rw [h, Bool.false_or]

namespace Walk

variable {w w' : Walk}

/-- See the cell at the top of the stack. Its children are put there in order, so that the last one
comes next. There is no step from an empty stack, nor to a place outside the list. -/
def step (cells : List Cell) (here : Position) (strength theta : Float32) (w : Walk) :
    Option Walk :=
  match w.stack with
  | [] => none
  | i :: rest =>
    match cells[i]? with
    | none => none
    | some c =>
      if c.stops here theta then
        some ⟨rest, w.visited ++ [i], w.stopped ++ [i], addPush c.summary here strength w.force⟩
      else
        some ⟨c.children.foldl (fun stack child => child.toList ++ stack) rest, w.visited ++ [i],
          w.stopped, w.force⟩

/-- Take some steps, as long as there are any. -/
def run (cells : List Cell) (here : Position) (strength theta : Float32) : Nat → Walk → Walk
  | 0, w => w
  | n + 1, w =>
    match w.step cells here strength theta with
    | none => w
    | some w' => run cells here strength theta n w'

/-- Before the first step: the root is on the stack, if there is one. -/
def start (cells : List Cell) : Walk :=
  ⟨if cells.isEmpty then [] else [0], [], [], ⟨0, 0⟩⟩

/-- A walk with nothing on its stack is over. -/
theorem run_of_stack (h : w.stack = []) (n : Nat) : run cells here strength theta n w = w := by
  cases n with
  | zero => rfl
  | succ n =>
    unfold run step
    rw [h]

theorem run_succ (h : w.step cells here strength theta = some w') (n : Nat) :
    w.run cells here strength theta (1 + n) = w'.run cells here strength theta n := by
  rw [Nat.add_comm]
  show (match w.step cells here strength theta with
    | none => w
    | some w' => w'.run cells here strength theta n) = _
  rw [h]

theorem step_of_stops {c : Cell} {rest : List Nat} (hstack : w.stack = i :: rest)
    (hcell : cells[i]? = some c) (hstops : c.stops here theta = true) :
    w.step cells here strength theta = some
      ⟨rest, w.visited ++ [i], w.stopped ++ [i], addPush c.summary here strength w.force⟩ := by
  unfold step
  simp only [hstack, hcell]
  rw [if_pos hstops]

theorem step_of_open {c : Cell} {rest : List Nat} (hstack : w.stack = i :: rest)
    (hcell : cells[i]? = some c) (hstops : c.stops here theta = false) :
    w.step cells here strength theta = some
      ⟨c.children.foldl (fun stack child => child.toList ++ stack) rest, w.visited ++ [i],
        w.stopped, w.force⟩ := by
  unfold step
  simp only [hstack, hcell]
  rw [if_neg (Bool.eq_false_iff.1 hstops)]

end Walk

/-! ## The recursion that a walk follows -/

/-- The places that a walk sees in a part that stands at a place, in order. -/
def visits (here : Position) (theta : Float32) : QuadTree → Nat → List Nat
  | .empty, _ => []
  | .leaf _ _, i => [i]
  | .split m nw ne sw se, i =>
    if m.isDistant here theta then [i]
    else
      let atNe := i + 1 + nw.count
      let atSw := atNe + ne.count
      let atSe := atSw + sw.count
      i :: (se.visits here theta atSe ++ sw.visits here theta atSw ++ ne.visits here theta atNe ++
        nw.visits here theta (i + 1))

/-- The places where it stops. -/
def stops (here : Position) (theta : Float32) : QuadTree → Nat → List Nat
  | .empty, _ => []
  | .leaf _ _, i => [i]
  | .split m nw ne sw se, i =>
    if m.isDistant here theta then [i]
    else
      let atNe := i + 1 + nw.count
      let atSw := atNe + ne.count
      let atSe := atSw + sw.count
      se.stops here theta atSe ++ sw.stops here theta atSw ++ ne.stops here theta atNe ++
        nw.stops here theta (i + 1)

theorem visits_of_distant (h : m.isDistant here theta = true) :
    (QuadTree.split m nw ne sw se).visits here theta i = [i] := if_pos h

theorem stops_of_distant (h : m.isDistant here theta = true) :
    (QuadTree.split m nw ne sw se).stops here theta i = [i] := if_pos h

theorem visits_of_near (h : m.isDistant here theta = false) :
    (QuadTree.split m nw ne sw se).visits here theta i =
      i :: (se.visits here theta (i + 1 + nw.count + ne.count + sw.count) ++
        sw.visits here theta (i + 1 + nw.count + ne.count) ++
        ne.visits here theta (i + 1 + nw.count) ++ nw.visits here theta (i + 1)) :=
  if_neg (Bool.eq_false_iff.1 h)

theorem stops_of_near (h : m.isDistant here theta = false) :
    (QuadTree.split m nw ne sw se).stops here theta i =
      se.stops here theta (i + 1 + nw.count + ne.count + sw.count) ++
        sw.stops here theta (i + 1 + nw.count + ne.count) ++
        ne.stops here theta (i + 1 + nw.count) ++ nw.stops here theta (i + 1) :=
  if_neg (Bool.eq_false_iff.1 h)

/-- **A walk sees a part and then what lies below it on the stack.** The part adds to the
force what the recursion adds. -/
theorem Walk.run_part (hbodies : u.Holds bs) (hpart : t.IsPart i u)
    (rest visited stopped : List Nat) (f : Position) (n : Nat) :
    run t.cells here strength theta ((u.visits here theta i).length + n)
        ⟨(u.root? i).toList ++ rest, visited, stopped, f⟩ =
      run t.cells here strength theta n
        ⟨rest, visited ++ u.visits here theta i, stopped ++ u.stops here theta i,
          u.addRepulsion here strength theta f⟩ := by
  induction hbodies generalizing i rest visited stopped f n with
  | empty =>
    show run t.cells here strength theta (0 + n) ⟨rest, visited, stopped, f⟩ = _
    rw [Nat.zero_add]
    show _ = run t.cells here strength theta n ⟨rest, visited ++ [], stopped ++ [], f⟩
    rw [List.append_nil, List.append_nil]
  | leaf width hsome =>
    have hcell := getElem?_of_prefix_drop hpart.cells
    exact run_succ (step_of_stops rfl hcell (Cell.stops_of_isLeaf rfl)) n
  | @split bs nw ne sw se _ _ _ _ width hsome hnw hne hsw hse hdealt ihnw ihne ihsw ihse =>
    have hcell := getElem?_of_prefix_drop hpart.cells
    have hbranch := (Holds.split width hsome hnw hne hsw hse hdealt).isLeaf_split (a := i + 1)
      (b := i + 1 + nw.count) (c := i + 1 + nw.count + ne.count)
      (d := i + 1 + nw.count + ne.count + sw.count)
    obtain ⟨pnw, pne, psw, pse⟩ := hpart.quarters
    rw [addRepulsion]
    cases hdistant : (CellSummary.ofBodies bs width).isDistant here theta with
    | true =>
      have hstops := (Cell.stops_of_branch hbranch).trans hdistant
      rw [visits_of_distant hdistant, stops_of_distant hdistant, if_pos rfl]
      exact run_succ (step_of_stops rfl hcell hstops) n
    | false =>
      have hopen := (Cell.stops_of_branch hbranch).trans hdistant
      rw [visits_of_near hdistant, stops_of_near hdistant, if_neg Bool.false_ne_true]
      simp only [List.length_cons, List.length_append]
      -- one step for the cell, then one quarter after the other, from the last to the first
      have hfuel (a b c d : Nat) : d + c + b + a + 1 + n = 1 + (d + (c + (b + (a + n)))) := by omega
      have hstack : ((QuadTree.split (.ofBodies bs width) nw ne sw se).root? i).toList ++ rest =
          i :: rest := rfl
      rw [hfuel, hstack, run_succ (step_of_open rfl hcell hopen)]
      simp only [List.foldl_cons, List.foldl_nil]
      rw [ihse pse, ihsw psw, ihne pne, ihnw pnw]
      simp only [List.append_assoc, List.cons_append, List.nil_append]

/-! ## What it sees and where it stops -/

/-- The places of the cells of a tree that is cut: its own, then those of its quarters. -/
theorem range'_split (i : Nat) (m : CellSummary) (nw ne sw se : QuadTree) :
    List.range' i (QuadTree.split m nw ne sw se).count =
      i :: (List.range' (i + 1) nw.count ++ List.range' (i + 1 + nw.count) ne.count ++
        List.range' (i + 1 + nw.count + ne.count) sw.count ++
        List.range' (i + 1 + nw.count + ne.count + sw.count) se.count) := by
  have hcount : (QuadTree.split m nw ne sw se).count =
      nw.count + ne.count + sw.count + se.count + 1 := by
    show 1 + nw.count + ne.count + sw.count + se.count = _
    omega
  rw [hcount, List.range'_succ]
  have hsw : i + 1 + nw.count + ne.count = i + 1 + (nw.count + ne.count) := by omega
  have hse :
      i + 1 + (nw.count + ne.count) + sw.count = i + 1 + (nw.count + ne.count + sw.count) := by
    omega
  rw [List.range'_append_1, hsw, List.range'_append_1, hse, List.range'_append_1]

/-- The quarters in reverse order. -/
theorem perm_reverse_quarters {α : Type} (a b c d : List α) :
    (d ++ c ++ b ++ a).Perm (a ++ b ++ c ++ d) := by
  have hba : (b ++ a).Perm (a ++ b) := List.perm_append_comm
  have hcba : (c ++ (b ++ a)).Perm (a ++ b ++ c) := (hba.append_left c).trans List.perm_append_comm
  rw [List.append_assoc, List.append_assoc]
  exact (hcba.append_left d).trans List.perm_append_comm

/-- **It sees every cell of a part at most once**, and no other cell. -/
theorem subperm_visits (here : Position) (theta : Float32) (u : QuadTree) (i : Nat) :
    (u.visits here theta i).Subperm (List.range' i u.count) := by
  induction u generalizing i with
  | empty => exact List.nil_subperm
  | leaf m bs => exact List.Subperm.refl _
  | split m nw ne sw se ihnw ihne ihsw ihse =>
    rw [range'_split]
    cases hdistant : m.isDistant here theta with
    | true =>
      rw [visits_of_distant hdistant]
      exact List.singleton_subperm_iff.2 (List.mem_cons_self ..)
    | false =>
      rw [visits_of_near hdistant]
      refine (List.subperm_cons i).2 ((perm_reverse_quarters _ _ _ _).subperm.trans ?_)
      exact (((ihnw _).append (ihne _)).append (ihsw _)).append (ihse _)

theorem stops_subset_visits (u : QuadTree) (i : Nat) :
    u.stops here theta i ⊆ u.visits here theta i := by
  induction u generalizing i with
  | empty => exact List.nil_subset _
  | leaf m bs => exact List.Subset.refl _
  | split m nw ne sw se ihnw ihne ihsw ihse =>
    cases hdistant : m.isDistant here theta with
    | true =>
      rw [visits_of_distant hdistant, stops_of_distant hdistant]
      exact List.Subset.refl _
    | false =>
      rw [visits_of_near hdistant, stops_of_near hdistant]
      refine List.subset_cons_of_subset _ ?_
      intro j hj
      simp only [List.mem_append] at hj ⊢
      exact hj.imp (Or.imp (Or.imp (fun h => ihse _ h) fun h => ihsw _ h) fun h => ihne _ h)
        fun h => ihnw _ h

/-- **The cells where it stops hold the bodies of the part**, each one once. -/
theorem stops_perm (u : QuadTree) (hpart : t.IsPart i u) :
    ((u.stops here theta i).flatMap t.bodiesAt).Perm u.bodies := by
  induction u generalizing i with
  | empty => exact .nil
  | leaf m bs =>
    show (t.bodiesAt i ++ []).Perm bs
    rw [List.append_nil, hpart.bodiesAt_leaf]
  | split m nw ne sw se ihnw ihne ihsw ihse =>
    cases hdistant : m.isDistant here theta with
    | true =>
      rw [stops_of_distant hdistant, List.flatMap_singleton, hpart.bodiesAt_split]
    | false =>
      obtain ⟨pnw, pne, psw, pse⟩ := hpart.quarters
      rw [stops_of_near hdistant]
      refine ((perm_reverse_quarters _ _ _ _).flatMap_right _).trans ?_
      rw [List.flatMap_append, List.flatMap_append, List.flatMap_append]
      exact (((ihnw pnw).append (ihne pne)).append (ihsw psw)).append (ihse pse)

/-- **Where no cell looks distant, it stops at the leaves.** -/
theorem stops_perm_leaves (hnear : ∀ m : CellSummary, m.isDistant here theta = false)
    (hbodies : u.Holds bs) (hpart : t.IsPart i u) :
    (u.stops here theta i).Perm
      ((List.range' i u.count).filter fun j => t.cells[j]?.any Cell.isLeaf) := by
  induction hbodies generalizing i with
  | empty => exact .nil
  | leaf width hsome =>
    have hleaf : t.cells[i]?.any Cell.isLeaf = true := by
      rw [getElem?_of_prefix_drop hpart.cells]
      rfl
    show [i].Perm ([i].filter fun j => t.cells[j]?.any Cell.isLeaf)
    rw [List.filter_cons, if_pos hleaf]
    exact .rfl
  | @split bs nw ne sw se _ _ _ _ width hsome hnw hne hsw hse hdealt ihnw ihne ihsw ihse =>
    have hbranch : ¬ t.cells[i]?.any Cell.isLeaf = true := by
      rw [getElem?_of_prefix_drop hpart.cells]
      exact Bool.eq_false_iff.1 (Holds.split width hsome hnw hne hsw hse hdealt).isLeaf_split
    obtain ⟨pnw, pne, psw, pse⟩ := hpart.quarters
    rw [stops_of_near (hnear _), range'_split, List.filter_cons, if_neg hbranch, List.filter_append,
      List.filter_append, List.filter_append]
    refine (perm_reverse_quarters _ _ _ _).trans ?_
    exact (((ihnw pnw).append (ihne pne)).append (ihsw psw)).append (ihse pse)

/-- No cell is distant when theta is zero. -/
theorem isDistant_of_zero (htheta : Single.IsZero theta) (m : CellSummary) (here : Position) :
    m.isDistant here theta = false :=
  decide_eq_false (Single.not_square_lt htheta m.width _)

/-! ## The whole tree -/

/-- The walk over the cells of a tree. -/
def walk (t : QuadTree) (here : Position) (strength theta : Float32) : Walk :=
  (Walk.start t.cells).run t.cells here strength theta t.cells.length

theorem Holds.walk_eq (h : t.Holds bs) :
    t.walk here strength theta =
      ⟨[], t.visits here theta 0, t.stops here theta 0, t.repulsion here strength theta⟩ := by
  have hstart : Walk.start t.cells = ⟨(t.root? 0).toList ++ [], [], [], ⟨0, 0⟩⟩ := by
    cases t <;> rfl
  have hlength : t.cells.length = t.count := length_cellsFrom t 0
  have hfew : (t.visits here theta 0).length ≤ t.count := by
    have hle := (subperm_visits here theta t 0).length_le
    rw [List.length_range'] at hle
    exact hle
  have hfuel : t.cells.length =
      (t.visits here theta 0).length + (t.count - (t.visits here theta 0).length) := by omega
  unfold walk
  rw [hstart, hfuel, Walk.run_part h t.isPart_self, Walk.run_of_stack rfl]
  rfl

theorem nodup_numbered (ps : List Position) : (numbered ps).Nodup := by
  refine List.Nodup.of_map Prod.fst ?_
  have hnumbers : (numbered ps).map Prod.fst = List.range' 0 ps.length := by
    unfold numbered
    rw [List.map_map]
    exact List.zipIdx_map_snd 0 ps
  rw [hnumbers]
  exact List.nodup_range'

/-- **A walk accounts for every body exactly once.** Over the cells of the tree of any positions it
ends with an empty stack and with the repulsion as its force, and it sees no cell twice. The cells
where it stopped hold disjoint sets of bodies, which make up all bodies; every cell sums up the
bodies it holds. With theta zero, the cells where it stopped are the leaves. -/
theorem walk_accounts (ps : List Position) (maxDepth : Nat) (here : Position)
    (strength theta : Float32) :
    let t := build ps maxDepth
    let w := t.walk here strength theta
    (w.stack = [] ∧ w.force = t.repulsion here strength theta) ∧
    (w.visited.Nodup ∧ w.stopped ⊆ w.visited ∧ ∀ i ∈ w.visited, i < t.cells.length) ∧
    w.stopped.Pairwise (fun i j => (t.bodiesAt i).Disjoint (t.bodiesAt j)) ∧
    (∀ b, b ∈ numbered ps ↔ ∃ i ∈ w.stopped, b ∈ t.bodiesAt i) ∧
    (∀ i < t.cells.length, ∃ c below, t.cells[i]? = some c ∧ below.Perm (t.bodiesAt i) ∧
      c.summary = .ofBodies below c.summary.width) ∧
    (theta.beq 0 = true → ∀ i, i ∈ w.stopped ↔ ∃ c, t.cells[i]? = some c ∧ c.isLeaf = true) := by
  intro t w
  have hbodies : t.Holds (numbered ps) := holds_build ps maxDepth
  have hlength : t.cells.length = t.count := length_cellsFrom t 0
  have hw :
      w = ⟨[], t.visits here theta 0, t.stops here theta 0, t.repulsion here strength theta⟩ :=
    hbodies.walk_eq
  have hdealt : ((t.stops here theta 0).flatMap t.bodiesAt).Perm (numbered ps) :=
    (stops_perm t t.isPart_self).trans hbodies.perm
  have hvisits : (t.visits here theta 0).Subperm (List.range' 0 t.count) :=
    subperm_visits here theta t 0
  rw [hw]
  refine ⟨⟨rfl, rfl⟩, ⟨?_, stops_subset_visits t 0, ?_⟩, ?_, ?_, ?_, ?_⟩
  · obtain ⟨seen, hperm, hsub⟩ := hvisits
    exact hperm.nodup_iff.1 (List.Nodup.sublist hsub List.nodup_range')
  · intro i hi
    have hrange := List.mem_range'_1.1 (hvisits.subset hi)
    omega
  · have hnodup := hdealt.nodup_iff.2 (nodup_numbered ps)
    exact (List.nodup_flatMap.1 hnodup).2
  · intro b
    rw [← hdealt.mem_iff, List.mem_flatMap]
  · intro i hi
    exact hbodies.cell hi
  · intro htheta i
    have hleaves := stops_perm_leaves (isDistant_of_zero htheta · here) hbodies t.isPart_self
    rw [hleaves.mem_iff, List.mem_filter, List.mem_range'_1, Option.any_eq_true]
    constructor
    · exact fun h => h.2
    · rintro ⟨c, hc, hleaf⟩
      have hi := (List.getElem?_eq_some_iff.1 hc).1
      exact ⟨⟨Nat.zero_le i, by omega⟩, c, hc, hleaf⟩

/-- Four bodies, two of them at one place. -/
def corners : List Position := [⟨0, 0⟩, ⟨8, 0⟩, ⟨8, 1⟩, ⟨8, 1⟩]

/-- From the first body the two at one place look like one body, two cells above the leaf that holds
them both; with theta zero the walk goes down to that leaf. -/
theorem walk_accounts_corners :
    ((build corners 4).walk ⟨0, 0⟩ 1 0.9).stopped = [6, 5, 1] ∧
    ((build corners 4).walk ⟨0, 0⟩ 1 0).stopped = [6, 5, 4] ∧
    ∀ i, i ∈ [6, 5, 4] ↔ ∃ c, (build corners 4).cells[i]? = some c ∧ c.isLeaf = true := by
  obtain ⟨-, -, -, -, -, hleaves⟩ := walk_accounts corners 4 ⟨0, 0⟩ 1 0
  have hstopped : ((build corners 4).walk ⟨0, 0⟩ 1 0).stopped = [6, 5, 4] := by decide +kernel
  rw [hstopped] at hleaves
  exact ⟨by decide +kernel, hstopped, hleaves (by decide)⟩

end LaneChart.Layout.QuadTree
