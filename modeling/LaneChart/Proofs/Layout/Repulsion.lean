import Mathlib.Data.List.Perm.Basic
import LaneChart.Layout.Force.Simulation
import LaneChart.Proofs.Layout.Traversal
import LaneChart.Proofs.Plane.Roots
import LaneChart.Proofs.Plane.Sums

/-!
# Two ways to add up the repulsion

The repulsion on a body is added up pair by pair, or over the cells of a tree. With theta zero and
one body in every leaf the tree takes no cell for several bodies, so one expects the same terms in
another order. But the two ways treat bodies that are close to each other differently: pair by pair
a distance counts as at least one half; the tree takes the distance as it is, and leaves out a body
whose squared distance is at most epsilon, not only the body itself.

Both ways start from the offset of the two bodies, and `term?` is what the tree makes of one. A
lone body in a leaf pushes with exactly that (`push?_lone`), only that the tree adds zero to the
coordinates of the body first, so that the offset may come out with another sign of a zero. What
the tree adds is then a matter of lists:

> `pushes_perm_terms`: the tree adds one term for every other body that is not too close.
> `term?_of_apart`: for a body at least one half away it is the term of the exact sum.
> `foldl_plus_alike`: the signs of zeros are lost when the terms are added up.
-/

namespace LaneChart

/-- Vectors that are equal up to the signs of zeros. -/
def Position.Alike (f g : Position) : Prop := Single.Alike f.x g.x ∧ Single.Alike f.y g.y

namespace Layout

open Force (minus plus repel separation exactRepulsion)

variable {p q d e : Position} {strength theta : Float32}

/-! ## One pair -/

/-- The square of the length of an offset. -/
def squaredLength (d : Position) : Float32 := d.x * d.x + d.y * d.y

/-- Two bodies are at least one half away from each other. -/
def Apart (p q : Position) : Prop := 0.5 ≤ (squaredLength (minus p q)).sqrt

/-- The term for an offset without a lower bound for its length, if it is not too short. -/
def term? (strength : Float32) (d : Position) : Option Position :=
  if squaredLength d ≤ Single.epsilon then none
  else
    let distance := (squaredLength d).sqrt
    let magnitude := strength / distance
    some ⟨d.x / distance * magnitude, d.y / distance * magnitude⟩

/-- The offset of two bodies as the tree has it: zero is added to the coordinates of the second. -/
def treeOffset (p q : Position) : Position := ⟨p.x - (0 + q.x), p.y - (0 + q.y)⟩

/-- For bodies that are apart neither way guards against anything. -/
theorem term?_of_apart (h : Apart p q) :
    term? strength (minus p q) = some (repel strength p q) := by
  have hseparation : separation (minus p q) = (squaredLength (minus p q)).sqrt :=
    Single.greater_half h
  unfold term? repel
  simp only
  rw [if_neg (Single.not_le_epsilon h), hseparation]

/-- Squaring makes up for the sign of a zero, and what is left only scales with the coordinates. -/
theorem term?_alike (h : d.Alike e) :
    Option.Rel Position.Alike (term? strength d) (term? strength e) := by
  have hsquare : squaredLength d = squaredLength e := by
    unfold squaredLength
    rw [h.1.square, h.2.square]
  unfold term?
  rw [hsquare]
  split
  · exact .none
  · exact .some ⟨(h.1.div _).mul _, (h.2.div _).mul _⟩

theorem treeOffset_alike (p q : Position) : (treeOffset p q).Alike (minus p q) :=
  ⟨Single.alike_sub_zero_add _ _, Single.alike_sub_zero_add _ _⟩

/-- Seen from a body without a minus zero, the offsets are the same. -/
theorem treeOffset_eq (hx : p.x ≠ -0.0) (hy : p.y ≠ -0.0) (q : Position) :
    treeOffset p q = minus p q := by
  unfold treeOffset minus
  rw [Single.sub_zero_add hx, Single.sub_zero_add hy]

theorem ofCount_one : Single.ofCount 1 = 1 := by decide

/-- The center of a single body is its position, except for the sign of a zero. -/
theorem center_lone (j : Nat) (q : Position) (width : Float32) :
    (CellSummary.ofBodies [(j, q)] width).center = ⟨0 + q.x, 0 + q.y⟩ := by
  show (⟨(0 + q.x) / Single.ofCount 1, (0 + q.y) / Single.ofCount 1⟩ : Position) = _
  rw [ofCount_one, Single.div_one, Single.div_one]

theorem mass_lone (j : Nat) (q : Position) (width : Float32) :
    (CellSummary.ofBodies [(j, q)] width).mass = 1 := ofCount_one

theorem push?_lone (j : Nat) (p q : Position) (width strength : Float32) :
    (CellSummary.ofBodies [(j, q)] width).push? p strength = term? strength (treeOffset p q) := by
  unfold CellSummary.push? CellSummary.offset
  simp only
  rw [center_lone, mass_lone, Single.mul_one]
  rfl

/-- A finite body leaves itself out. -/
theorem term?_self (hp : p.isFinite = true) : term? strength (minus p p) = none := by
  obtain ⟨hx, hy⟩ := Bool.and_eq_true_iff.1 hp
  have hnone : squaredLength (minus p p) = 0 + 0 := by
    show (p.x - p.x) * (p.x - p.x) + (p.y - p.y) * (p.y - p.y) = 0 + 0
    rw [Single.square_of_isZero (Single.isZero_sub_self hx),
      Single.square_of_isZero (Single.isZero_sub_self hy)]
  unfold term?
  rw [hnone]
  exact if_pos (by decide)

/-! ## The terms of the exact sum -/

theorem foldl_zipIdx_of_lt {α : Type} {i start : Nat} (h : i < start) (ps : List Position)
    (g : α → Position → α) (a : α) :
    (ps.zipIdx start).foldl (fun f (q, j) => if j = i then f else g f q) a = ps.foldl g a := by
  induction ps generalizing start a with
  | nil => rfl
  | cons q rest ih =>
    have hother : start ≠ i := by omega
    rw [List.zipIdx_cons, List.foldl_cons, List.foldl_cons]
    show List.foldl _ (if start = i then a else g a q) (rest.zipIdx (start + 1)) = _
    rw [if_neg hother]
    exact ih (by omega) _

/-- A sum that skips a number is the sum over the others. -/
theorem foldl_zipIdx_skip {α : Type} (i start : Nat) (ps : List Position) (g : α → Position → α)
    (a : α) :
    (ps.zipIdx start).foldl (fun f (q, j) => if j = start + i then f else g f q) a =
      (ps.eraseIdx i).foldl g a := by
  induction ps generalizing i start a with
  | nil => rfl
  | cons q rest ih =>
    rw [List.zipIdx_cons, List.foldl_cons]
    show List.foldl _ (if start = start + i then a else g a q) (rest.zipIdx (start + 1)) = _
    cases i with
    | zero =>
      rw [Nat.add_zero, if_pos rfl]
      exact foldl_zipIdx_of_lt (Nat.lt_succ_self start) rest g a
    | succ i =>
      have hother : start ≠ start + (i + 1) := by omega
      have hnext : start + (i + 1) = start + 1 + i := by omega
      rw [if_neg hother, hnext, ih]
      rfl

theorem exactRepulsion_eq (s : Force.Settings) (ps : List Position) (i : Nat) (p : Position) :
    exactRepulsion s ps i p = ((ps.eraseIdx i).map (repel s.repulsion p)).foldl plus ⟨0, 0⟩ := by
  rw [List.foldl_map]
  have hskip := foldl_zipIdx_skip i 0 ps (fun f q => plus f (repel s.repulsion p q)) ⟨0, 0⟩
  rw [Nat.zero_add] at hskip
  exact hskip

/-! ## The terms of a tree -/

namespace QuadTree

variable {t : QuadTree} {bs : List NumberedBody} {here : Position}

/-- What a tree adds to the force on a body, one after the other. -/
def pushes (here : Position) (strength theta : Float32) : QuadTree → List Position
  | .empty => []
  | .leaf m _ => (m.push? here strength).toList
  | .split m nw ne sw se =>
    if m.isDistant here theta then (m.push? here strength).toList
    else
      se.pushes here strength theta ++ sw.pushes here strength theta ++
        ne.pushes here strength theta ++ nw.pushes here strength theta

/-- Every leaf holds one body. -/
def leavesSingle : QuadTree → Bool
  | .empty => true
  | .leaf _ bs => bs.length == 1
  | .split _ nw ne sw se =>
    nw.leavesSingle && ne.leavesSingle && sw.leavesSingle && se.leavesSingle

theorem addPush_eq (m : CellSummary) (here : Position) (strength : Float32) (f : Position) :
    addPush m here strength f = (m.push? here strength).toList.foldl plus f := by
  unfold addPush
  cases m.push? here strength <;> rfl

theorem addRepulsion_eq (t : QuadTree) (here : Position) (strength theta : Float32) (f : Position) :
    t.addRepulsion here strength theta f = (t.pushes here strength theta).foldl plus f := by
  induction t generalizing f with
  | empty => rfl
  | leaf m bs => exact addPush_eq m here strength f
  | split m nw ne sw se ihnw ihne ihsw ihse =>
    unfold addRepulsion pushes
    split
    · exact addPush_eq m here strength f
    · rw [List.foldl_append, List.foldl_append, List.foldl_append, ← ihse, ← ihsw, ← ihne, ← ihnw]

end QuadTree

/-! ## The same terms -/

/-- Two lists have the same terms, in some order and up to the signs of zeros. -/
def SameTerms (l l' : List Position) : Prop :=
  ∃ terms : List Position, List.Forall₂ Position.Alike l terms ∧ terms.Perm l'

/-- A force is the sum of some terms, added up in some order. -/
def IsSum (terms : List Position) (f : Position) : Prop :=
  ∃ ordered : List Position, ordered.Perm terms ∧ f = ordered.foldl plus ⟨0, 0⟩

theorem forall₂_filterMap {α : Type} {f g : α → Option Position}
    (h : ∀ a, Option.Rel Position.Alike (f a) (g a)) (l : List α) :
    List.Forall₂ Position.Alike (l.filterMap f) (l.filterMap g) := by
  induction l with
  | nil => exact .nil
  | cons a rest ih =>
    have ha := h a
    rw [List.filterMap_cons, List.filterMap_cons]
    cases hf : f a with
    | none =>
      cases hg : g a with
      | none => exact ih
      | some y =>
        rw [hf, hg] at ha
        nomatch ha
    | some x =>
      cases hg : g a with
      | none =>
        rw [hf, hg] at ha
        nomatch ha
      | some y =>
        rw [hf, hg] at ha
        cases ha with
        | some hxy => exact .cons hxy ih

/-- The signs of zeros do not matter to a sum that starts at zero, since none of its parts is minus
zero. -/
theorem foldl_plus_alike {l l' : List Position} (h : List.Forall₂ Position.Alike l l')
    {f : Position} (hx : f.x ≠ -0.0) (hy : f.y ≠ -0.0) : l.foldl plus f = l'.foldl plus f := by
  induction h generalizing f with
  | nil => rfl
  | @cons d e _ _ hde _ ih =>
    have hplus : plus f d = plus f e := by
      unfold plus
      rw [Single.add_alike hx hde.1, Single.add_alike hy hde.2]
    rw [List.foldl_cons, List.foldl_cons, hplus]
    exact ih (Single.add_ne_minusZero hx e.x) (Single.add_ne_minusZero hy e.y)

theorem SameTerms.isSum {l l' : List Position} (h : SameTerms l l') :
    IsSum l' (l.foldl plus ⟨0, 0⟩) := by
  obtain ⟨terms, halike, hperm⟩ := h
  exact ⟨terms, hperm, foldl_plus_alike halike (by decide) (by decide)⟩

namespace QuadTree

variable {t : QuadTree} {bs : List NumberedBody} {here : Position}

/-- Where no cell looks distant and every leaf holds one body, a tree adds the push of
every body. -/
theorem pushes_perm (hnear : ∀ m : CellSummary, m.isDistant here theta = false)
    (hbodies : t.Holds bs) (hsingle : t.leavesSingle = true) :
    (t.pushes here strength theta).Perm
      (bs.filterMap fun b => (CellSummary.ofBodies [b] 0).push? here strength) := by
  induction hbodies with
  | empty => exact .nil
  | @leaf bs width hsome =>
    obtain ⟨b, rfl⟩ := List.length_eq_one_iff.1 (beq_iff_eq.1 hsingle)
    show (((CellSummary.ofBodies [b] 0).push? here strength).toList).Perm _
    rw [List.filterMap_cons]
    cases (CellSummary.ofBodies [b] 0).push? here strength <;> exact .rfl
  | @split bs nw ne sw se inNw inNe inSw inSe width hsome hnw hne hsw hse hdealt ihnw ihne ihsw
      ihse =>
    unfold leavesSingle at hsingle
    rw [Bool.and_eq_true, Bool.and_eq_true, Bool.and_eq_true] at hsingle
    obtain ⟨⟨⟨snw, sne⟩, ssw⟩, sse⟩ := hsingle
    unfold pushes
    rw [hnear, if_neg Bool.false_ne_true]
    refine (perm_reverse_quarters _ _ _ _).trans ?_
    refine List.Perm.trans ?_ (hdealt.filterMap _)
    rw [List.filterMap_append, List.filterMap_append, List.filterMap_append]
    exact (((ihnw snw).append (ihne sne)).append (ihsw ssw)).append (ihse sse)

/-- A body for which there is no term can be left out. -/
theorem filterMap_eraseIdx {ps : List Position} {i : Nat} {f : Position → Option Position}
    (hi : ps[i]? = some p) (hnone : f p = none) : (ps.eraseIdx i).filterMap f = ps.filterMap f := by
  obtain ⟨hlt, hget⟩ := List.getElem?_eq_some_iff.1 hi
  have hsplit : ps = ps.take i ++ p :: ps.drop (i + 1) := by
    rw [← hget, ← List.drop_eq_getElem_cons hlt, List.take_append_drop]
  rw [List.eraseIdx_eq_take_drop_succ]
  conv => rhs; rw [hsplit]
  rw [List.filterMap_append, List.filterMap_append, List.filterMap_cons_none hnone]

/-- **The tree adds one term for every other body**, that of its offset as the tree has it. -/
theorem pushes_perm_terms (hnear : ∀ m : CellSummary, m.isDistant p theta = false)
    {ps : List Position} {maxDepth i : Nat} (hsingle : (build ps maxDepth).leavesSingle = true)
    (hi : ps[i]? = some p) (hp : p.isFinite = true) :
    ((build ps maxDepth).pushes p strength theta).Perm
      ((ps.eraseIdx i).filterMap fun q => term? strength (treeOffset p q)) := by
  have hself : term? strength (treeOffset p p) = none := by
    have hrel : Option.Rel Position.Alike (term? strength (treeOffset p p))
        (term? strength (minus p p)) := term?_alike (treeOffset_alike p p)
    rw [term?_self hp] at hrel
    cases h : term? strength (treeOffset p p) with
    | none => rfl
    | some f =>
      rw [h] at hrel
      nomatch hrel
  have hpositions :
      (numbered ps).filterMap (fun b => (CellSummary.ofBodies [b] 0).push? p strength) =
      ps.filterMap fun q => term? strength (treeOffset p q) := by
    have hps : (numbered ps).map Prod.snd = ps := by
      unfold numbered
      rw [List.map_map]
      exact List.zipIdx_map_fst 0 ps
    conv => rhs; rw [← hps, List.filterMap_map]
    exact List.filterMap_congr fun b _ => push?_lone b.1 p b.2 0 strength
  rw [filterMap_eraseIdx hi hself, ← hpositions]
  exact pushes_perm hnear (holds_build ps maxDepth) hsingle

end QuadTree

/-! ## Where the two ways agree -/

/-- **Over a tree that makes no approximation the repulsion is added up as pair by pair**, as long
as the bodies are apart. For theta zero, one body in every leaf and a finite body, the tree adds one
term for every other body that is not too close, in some order and up to the signs of zeros. For a
body at least one half away it is the term of the exact sum. So where all others are that far away,
the two have the same terms, literally so unless the body has a coordinate minus zero; and what the
tree comes to is in any case the terms of the exact sum, added up in some order. -/
theorem repulsion_sameTerms (s : Force.Settings) (ps : List Position) (maxDepth i : Nat)
    (theta : Float32) (p : Position) (hi : ps[i]? = some p) (hfinite : p.isFinite = true)
    (htheta : theta.beq 0 = true) (hsingle : (QuadTree.build ps maxDepth).leavesSingle = true) :
    let tree := QuadTree.build ps maxDepth
    let added := tree.pushes p s.repulsion theta
    let others := ps.eraseIdx i
    let exactly := others.map (repel s.repulsion p)
    (tree.repulsion p s.repulsion theta = added.foldl plus ⟨0, 0⟩ ∧
      exactRepulsion s ps i p = exactly.foldl plus ⟨0, 0⟩) ∧
    SameTerms added (others.filterMap fun q => term? s.repulsion (minus p q)) ∧
    (∀ q, Apart p q → term? s.repulsion (minus p q) = some (repel s.repulsion p q)) ∧
    ((∀ q ∈ others, Apart p q) →
      IsSum exactly (tree.repulsion p s.repulsion theta) ∧ SameTerms added exactly ∧
        (p.x ≠ -0.0 → p.y ≠ -0.0 → added.Perm exactly)) := by
  intro tree added others exactly
  have hperm : added.Perm (others.filterMap fun q => term? s.repulsion (treeOffset p q)) :=
    QuadTree.pushes_perm_terms (QuadTree.isDistant_of_zero htheta · p) hsingle hi hfinite
  have hadded : tree.repulsion p s.repulsion theta = added.foldl plus ⟨0, 0⟩ :=
    QuadTree.addRepulsion_eq tree p s.repulsion theta ⟨0, 0⟩
  have hterms : SameTerms added (others.filterMap fun q => term? s.repulsion (minus p q)) := by
    have halike (q : Position) : Option.Rel Position.Alike (term? s.repulsion (treeOffset p q))
        (term? s.repulsion (minus p q)) := term?_alike (treeOffset_alike p q)
    exact List.perm_comp_forall₂ hperm (forall₂_filterMap halike others)
  refine ⟨⟨hadded, exactRepulsion_eq s ps i p⟩, hterms, fun q => term?_of_apart, ?_⟩
  intro hapart
  have hexact : (others.filterMap fun q => term? s.repulsion (minus p q)) = exactly := by
    refine (List.filterMap_congr fun q hq => term?_of_apart (hapart q hq)).trans ?_
    exact congrFun List.filterMap_eq_map _
  rw [hexact] at hterms
  refine ⟨?_, hterms, fun hx hy => ?_⟩
  · rw [hadded]
    exact hterms.isSum
  · -- the offsets are the same, and with them the terms
    simp only [treeOffset_eq hx hy, hexact] at hperm
    exact hperm

instance (p q : Position) : Decidable (Apart p q) := inferInstanceAs (Decidable (0.5 ≤ _))

/-- Three bodies that are apart. -/
def apartBodies : List Position := [⟨0, 0⟩, ⟨8, 0⟩, ⟨8, 1⟩]

theorem repulsion_sameTerms_apart :
    (QuadTree.build apartBodies 8).leavesSingle = true ∧
    (∀ q ∈ apartBodies.eraseIdx 0, Apart ⟨0, 0⟩ q) ∧
    ((QuadTree.build apartBodies 8).pushes ⟨0, 0⟩ 16 0).Perm
      ((apartBodies.eraseIdx 0).map (repel 16 ⟨0, 0⟩)) := by
  have hsingle : (QuadTree.build apartBodies 8).leavesSingle = true := by decide +kernel
  have hapart : ∀ q ∈ apartBodies.eraseIdx 0, Apart ⟨0, 0⟩ q := by decide +kernel
  obtain ⟨-, -, -, hsame⟩ := repulsion_sameTerms { repulsion := 16 } apartBodies 8 0 0 ⟨0, 0⟩ rfl
    (by decide) (by decide) hsingle
  obtain ⟨-, -, hperm⟩ := hsame hapart
  exact ⟨hsingle, hapart, hperm (by decide) (by decide)⟩

/-- Three bodies that are close to each other. -/
def closeBodies : List Position := [⟨0, 0⟩, ⟨0.25, 0⟩, ⟨0, 0.000244140625⟩]

/-- On the first of them the second pushes four times as hard over the tree as in the exact sum, and
the third, which is at another place, does not push at all. -/
theorem closeBodies_terms_differ :
    (∀ q ∈ closeBodies, q.isFinite = true) ∧
    closeBodies.Pairwise (fun p q => p.same q = false) ∧
    (QuadTree.build closeBodies 8).leavesSingle = true ∧
    (QuadTree.build closeBodies 8).pushes ⟨0, 0⟩ 1 0 = [⟨-4, 0⟩] ∧
    (closeBodies.eraseIdx 0).map (repel 1 ⟨0, 0⟩) = [⟨-1, 0⟩, ⟨0, -0.0009765625⟩] ∧
    ¬ SameTerms ((QuadTree.build closeBodies 8).pushes ⟨0, 0⟩ 1 0)
      ((closeBodies.eraseIdx 0).map (repel 1 ⟨0, 0⟩)) := by
  have hpushes : (QuadTree.build closeBodies 8).pushes ⟨0, 0⟩ 1 0 = [⟨-4, 0⟩] := by decide +kernel
  have hexact : (closeBodies.eraseIdx 0).map (repel 1 ⟨0, 0⟩) = [⟨-1, 0⟩, ⟨0, -0.0009765625⟩] := by
    decide +kernel
  refine ⟨by decide +kernel, by decide +kernel, by decide +kernel, hpushes, hexact, ?_⟩
  rw [hpushes, hexact]
  rintro ⟨terms, halike, hperm⟩
  have hlength := halike.length_eq.trans hperm.length_eq
  exact absurd hlength (by decide)

end Layout

end LaneChart
