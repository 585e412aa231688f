import LaneChart.Proofs.Crossing.Budget
import LaneChart.Proofs.Crossing.Pairs

/-!
# Lanes that are not drawn

A lane with an end that has no position cannot be drawn. It stays in the list all the same: it takes
a number, so that the pairs behind it have other numbers, and it is among the lanes that are looked
through when a flip asks whether a sector has a lane to an end of another lane. Neither matters. The
crossing lanes are the same lanes under other numbers (`crossings_filter`), and the two sectors that
a flip asks about are placed, so a lane that joins them is drawn (`anyJoins_filter`).

All of this is asked again after every flip. A search places no sector that has no position
at its start, so what is drawn later was drawn at the start; `Covers` is what two runs side
by side need to know of their positions.

> `refine_of_drawn`: a search comes to the same flips, positions and report without the
> lanes that are not drawn.
-/

namespace LaneChart.Crossing

/-- Whether a lane can be drawn: both its ends have positions. -/
def drawn (p : Placement) (l : Lane) : Bool := p.contains l.start && p.contains l.stop

variable {p q : Placement} {l m : Lane} {lanes : List Lane}

theorem drawn_of_segment? {a b : Position} (h : segment? p l = some (a, b)) :
    drawn p l = true := by
  obtain ⟨hstart, hstop⟩ := segment?_eq_some_iff.1 h
  unfold drawn
  rw [Bool.and_eq_true, IdMap.contains_eq_true_iff, IdMap.contains_eq_true_iff]
  exact ⟨⟨a, hstart⟩, b, hstop⟩

/-- A lane that is crossed is drawn. -/
theorem drawn_of_lanesCross (h : lanesCross p l m = true) : drawn p m = true := by
  obtain ⟨-, _, _, _, _, -, hm, -⟩ := lanesCross_eq_true_iff.1 h
  exact drawn_of_segment? hm

/-! ## Positions for the same sectors -/

/-- Every sector that has a position in `q` has one in `p`. -/
def Covers (p q : Placement) : Prop := ∀ id, q.contains id = true → p.contains id = true

theorem Covers.refl (p : Placement) : Covers p p := fun _ h => h

theorem Covers.insert (h : Covers p q) {id : SectorId} (hid : p.contains id = true) (x : Position) :
    Covers p (q.insert id x) := by
  intro other hother
  rw [IdMap.contains_insert, Bool.or_eq_true, beq_iff_eq] at hother
  rcases hother with rfl | hother
  · exact hid
  · exact h other hother

theorem Covers.drawn (h : Covers p q) (hl : drawn q l = true) : drawn p l = true := by
  obtain ⟨hstart, hstop⟩ := Bool.and_eq_true_iff.1 hl
  exact Bool.and_eq_true_iff.2 ⟨h _ hstart, h _ hstop⟩

/-! ## What is asked of positions -/

/-- Leaving out lanes that are not drawn leaves the crossing lanes as they are. -/
theorem crossings_filter (h : Covers p q) (lanes : List Lane) :
    crossings q (lanes.filter (drawn p)) = crossings q lanes := by
  induction lanes with
  | nil => rfl
  | cons l rest ih =>
    rw [List.filter_cons]
    split
    · have hcrossed : (rest.filter (drawn p)).filter (lanesCross q l) =
          rest.filter (lanesCross q l) := by
        rw [List.filter_filter]
        apply List.filter_congr
        intro m _
        cases hcross : lanesCross q l m with
        | false => exact Bool.false_and _
        | true => exact (Bool.true_and _).trans (h.drawn (drawn_of_lanesCross hcross))
      rw [crossings, crossings, hcrossed, ih]
    · next hl =>
      have hnone : rest.filter (lanesCross q l) = [] := by
        rw [List.filter_eq_nil_iff]
        intro m _ hcross
        rw [lanesCross_comm] at hcross
        exact hl (h.drawn (drawn_of_lanesCross hcross))
      rw [crossings, hnone, ih]
      rfl

theorem count_filter (h : Covers p q) (lanes : List Lane) :
    count q (lanes.filter (drawn p)) = count q lanes := by
  rw [count_eq, count_eq, crossings_filter h]

/-- A lane between two placed sectors is drawn. -/
theorem anyJoins_filter {a b : SectorId} (ha : p.contains a = true) (hb : p.contains b = true) :
    Lane.anyJoins (lanes.filter (drawn p)) a b = Lane.anyJoins lanes a b := by
  unfold Lane.anyJoins
  rw [List.any_filter]
  congr 1
  funext l
  by_cases hjoins : l.joins a b = true
  · have hdrawn : drawn p l = true := by
      unfold Lane.joins at hjoins
      simp only [Bool.or_eq_true, Bool.and_eq_true, beq_iff_eq] at hjoins
      unfold drawn
      rcases hjoins with ⟨hstart, hstop⟩ | ⟨hstart, hstop⟩
      · rw [hstart, hstop, ha, hb]
        rfl
      · rw [hstart, hstop, ha, hb]
        rfl
    rw [hdrawn, Bool.true_and]
  · rw [Bool.not_eq_true] at hjoins
    rw [hjoins, Bool.and_false]

theorem touches_filter {sector : SectorId} (hsector : p.contains sector = true)
    (hm : drawn p m = true) :
    touches (lanes.filter (drawn p)) sector m = touches lanes sector m := by
  obtain ⟨hstart, hstop⟩ := Bool.and_eq_true_iff.1 hm
  unfold touches Lane.ends
  simp only [List.any_cons, List.any_nil, anyJoins_filter hsector hstart,
    anyJoins_filter hsector hstop]

/-- The flips of a pair of lanes are the same: both are drawn, if there are any. -/
theorem pairFlips_filter (h : Covers p q) (lanes : List Lane) (l m : Lane) :
    pairFlips q (lanes.filter (drawn p)) l m = pairFlips q lanes l m := by
  unfold pairFlips
  split
  · next f₁ f₂ m₁ m₂ hm hl =>
    have hdrawn := h.drawn (drawn_of_segment? hm)
    obtain ⟨hstart, hstop⟩ := Bool.and_eq_true_iff.1 (h.drawn (drawn_of_segment? hl))
    unfold flip?
    rw [touches_filter hstart hdrawn, touches_filter hstop hdrawn]
  · rfl

/-- The flips that two crossing lanes propose. -/
def flipsBetween (p : Placement) (lanes : List Lane) : Option Lane × Option Lane → List Flip
  | (some l, some m) => pairFlips p lanes l m ++ pairFlips p lanes m l
  | _ => []

theorem crossingFlips_eq (p : Placement) (lanes : List Lane) (pair : Nat × Nat) :
    crossingFlips p lanes pair = flipsBetween p lanes (lanes[pair.1]?, lanes[pair.2]?) := by
  unfold crossingFlips
  cases lanes[pair.1]? with
  | none => rfl
  | some l => cases lanes[pair.2]? <;> rfl

/-- The proposals, read off the crossing lanes in place of their numbers. -/
theorem proposals_eq (p : Placement) (lanes : List Lane) :
    proposals p lanes = firstOfEach ((crossings p lanes).flatMap fun pair =>
      pairFlips p lanes pair.1 pair.2 ++ pairFlips p lanes pair.2 pair.1) [] := by
  have hnumbers := congrArg (List.flatMap (flipsBetween p lanes)) (map_pairs p lanes)
  rw [List.flatMap_map, List.flatMap_map] at hnumbers
  unfold proposals
  rw [funext (crossingFlips_eq p lanes), hnumbers]
  rfl

theorem proposals_filter (h : Covers p q) (lanes : List Lane) :
    proposals q (lanes.filter (drawn p)) = proposals q lanes := by
  rw [proposals_eq, proposals_eq, crossings_filter h]
  simp only [pairFlips_filter h]

/-! ## Two searches side by side -/

namespace Progress

variable {s : Progress} {maxFlips : Nat}

theorem attempt_filter (h : Covers p s.positions) {f : Flip} (hf : p.contains f.sector = true) :
    s.attempt (lanes.filter (drawn p)) maxFlips f = s.attempt lanes maxFlips f := by
  unfold Progress.attempt
  simp only [count_filter (h.insert hf f.target)]

theorem covers_attempt (h : Covers p s.positions) {f : Flip} (hf : p.contains f.sector = true) :
    Covers p (s.attempt lanes maxFlips f).positions := by
  rcases attempt_cases lanes maxFlips s f with heq | ⟨-, -, heq⟩
  · rw [heq]
    exact h
  · rw [heq]
    exact h.insert hf f.target

theorem foldl_attempt_filter (h : Covers p s.positions) {flips : List Flip}
    (hflips : ∀ f ∈ flips, p.contains f.sector = true) :
    flips.foldl (Progress.attempt (lanes.filter (drawn p)) maxFlips) s =
        flips.foldl (Progress.attempt lanes maxFlips) s ∧
      Covers p (flips.foldl (Progress.attempt lanes maxFlips) s).positions := by
  induction flips generalizing s with
  | nil => exact ⟨rfl, h⟩
  | cons f rest ih =>
    obtain ⟨hf, hrest⟩ := List.forall_mem_cons.1 hflips
    rw [List.foldl_cons, List.foldl_cons, attempt_filter h hf]
    exact ih (covers_attempt h hf) hrest

/-- One pass comes to the same with the lanes that are not drawn and without them. -/
theorem pass_filter (h : Covers p s.positions) :
    s.pass (lanes.filter (drawn p)) maxFlips = s.pass lanes maxFlips ∧
      Covers p (s.pass lanes maxFlips).positions := by
  unfold Progress.pass
  rw [proposals_filter h]
  apply foldl_attempt_filter h
  intro f hf
  have hplaced := (proposed_of_mem_proposals hf).current
  exact h _ ((IdMap.contains_eq_true_iff _ _).2 ⟨_, hplaced⟩)

theorem passes_filter (n : Nat) (h : Covers p s.positions) (done : Nat) :
    Crossing.passes (lanes.filter (drawn p)) maxFlips n s done =
      Crossing.passes lanes maxFlips n s done := by
  induction n generalizing s done with
  | zero => rfl
  | succ n ih =>
    have hpass : s.pass (lanes.filter (drawn p)) maxFlips = s.pass lanes maxFlips ∧
        Covers p (s.pass lanes maxFlips).positions := pass_filter h
    obtain ⟨hsame, hcovers⟩ := hpass
    by_cases hover : maxFlips ≤ s.flips.length ∨ s.crossings = 0
    · rw [passes_of_over hover, passes_of_over hover]
    · rw [not_or, Nat.not_le] at hover
      rw [passes_of_open hover.1 hover.2, passes_of_open hover.1 hover.2, hsame, ih hcovers]

end Progress

/-- **Lanes that are not drawn are ignored throughout**: a search comes to the same flips, positions
and report without them, whatever it may spend. -/
theorem refine_of_drawn (p : Placement) (lanes : List Lane) (budget : Budget) :
    refine p (lanes.filter (drawn p)) budget = refine p lanes budget := by
  have hcount := count_filter (Covers.refl p) lanes
  have hstart : Covers p (⟨p, count p lanes, []⟩ : Progress).positions := Covers.refl p
  unfold refine
  simp only [hcount, Progress.passes_filter _ hstart]

/-- Two diagonals of a square, listed behind a lane to a sector that is nowhere. -/
example :
    let p : Placement := IdMap.ofList [(1, ⟨0, 0⟩), (2, ⟨4, 4⟩), (3, ⟨0, 4⟩), (4, ⟨4, 0⟩)]
    let lanes : List Lane := [⟨1, 9⟩, ⟨1, 2⟩, ⟨3, 4⟩, ⟨1, 3⟩]
    pairs p lanes = [(1, 2)] ∧ pairs p (lanes.filter (drawn p)) = [(0, 1)] ∧
      Lane.anyJoins lanes 1 9 = true ∧ Lane.anyJoins (lanes.filter (drawn p)) 1 9 = false := by
  decide +kernel

end LaneChart.Crossing
