import LaneChart.Proofs.Crossing.Replay
import LaneChart.Proofs.Plane.Exact
import LaneChart.Proofs.Plane.Turns

/-!
# Whether a flip resolves its crossing

A flip is proposed when the crossing that it is for is gone from the mirror image. That is asked
with the moved end written first; crossings are counted with the ends of a lane as the lane has
them. On paper the order makes no difference, since the turn at a point changes its sign with
the ends it is taken between. In single precision the two turns are rounded apart, and near a
line one can be zero where the other is not.

> `pairFlips_resolve`: from the end that was moved the two lanes no longer cross. They are
> counted as crossing all the same exactly if it is the stop that was moved and they cross
> as seen from the start.
> `grazing_unresolved`: that happens.
-/

namespace LaneChart

/-! ## Turns -/

namespace Point

variable {K : Type} [Scalar K]

/-- Two segments cross, but with the ends of the first one exchanged they do not: the turns of the
second one's ends around it are not those around its reverse. -/
structure CrossesOneWay (a t b₁ b₂ : Point K) : Prop where
  apart : opposite (orientation b₁ b₂ a) (orientation b₁ b₂ t) = true
  forth : opposite (orientation a t b₁) (orientation a t b₂) = true
  back : opposite (orientation t a b₁) (orientation t a b₂) = false

theorem crossesOneWay_iff {a t b₁ b₂ : Point K} (h : segmentsCross t a b₁ b₂ = false) :
    CrossesOneWay a t b₁ b₂ ↔ segmentsCross a t b₁ b₂ = true := by
  rw [← Bool.not_eq_true, segmentsCross_eq_true_iff, opposite_comm (orientation b₁ b₂ t)] at h
  rw [segmentsCross_eq_true_iff]
  constructor
  · rintro ⟨hapart, hforth, -⟩
    exact ⟨hforth, hapart⟩
  · rintro ⟨hforth, hapart⟩
    refine ⟨hapart, hforth, ?_⟩
    rw [← Bool.not_eq_true]
    exact fun hback => h ⟨hback, hapart⟩

end Point

/-- A value that is on no side of zero is not opposite to any other. -/
theorem Single.Sideless.opposite_eq_false {x : Float32} (h : Single.Sideless x) (y : Float32) :
    Point.opposite x y = false := by
  have hbelow : ¬ x < Scalar.zero := h.not_lt_zero
  have habove : ¬ Scalar.zero < x := h.not_zero_lt
  unfold Point.opposite
  rw [decide_eq_false hbelow, decide_eq_false habove]
  rfl

/-- A segment that ends where it starts crosses nothing. -/
theorem Position.segmentsCross_self (p a b : Position) : Point.segmentsCross p p a b = false := by
  have hturn : Single.Sideless (Point.orientation p p a) :=
    ((Single.sideless_sub_self p.x).mul _).sub ((Single.sideless_sub_self p.y).mul _)
  unfold Point.segmentsCross
  rw [hturn.opposite_eq_false, Bool.false_and]

namespace Crossing

variable {p : Placement} {lanes : List Lane} {moving fixed : Lane} {f : Flip}

/-- A flip of one lane across another moves an end of it, and from that end the lanes do not
cross. -/
theorem of_mem_pairFlips (h : f ∈ pairFlips p lanes moving fixed) :
    ∃ f₁ f₂ m₁ m₂, segment? p fixed = some (f₁, f₂) ∧ segment? p moving = some (m₁, m₂) ∧
      (f.sector = moving.start ∧ Point.segmentsCross f.target m₂ f₁ f₂ = false ∨
        f.sector = moving.stop ∧ Point.segmentsCross f.target m₁ f₁ f₂ = false) := by
  obtain ⟨f₁, f₂, m₁, m₂, hfixed, hmoving, h⟩ := mem_pairFlips_iff.1 h
  refine ⟨f₁, f₂, m₁, m₂, hfixed, hmoving, ?_⟩
  rcases h with h | h
  · obtain ⟨-, rfl, -, hclears⟩ := flip?_eq_some_iff.1 h
    exact .inl ⟨rfl, hclears⟩
  · obtain ⟨-, rfl, -, hclears⟩ := flip?_eq_some_iff.1 h
    exact .inr ⟨rfl, hclears⟩

/-! ## After the flip -/

section Moved

variable {l : Lane} {f₁ f₂ : Position} (hapart : l.sharesEnd fixed = false)
  (hfixed : segment? p fixed = some (f₁, f₂)) (target : Position)

include hapart hfixed

/-- A lane that ends where it starts crosses nothing, wherever it is moved. -/
theorem lanesCross_moved_loop (hends : l.start = l.stop) :
    lanesCross (p.insert l.start target) l fixed = false := by
  have hstart : (p.insert l.start target).get? l.start = some target := IdMap.get?_insert_self ..
  have hstop : (p.insert l.start target).get? l.stop = some target := hends ▸ hstart
  rw [lanesCross_eq hapart (segment?_eq_some_iff.2 ⟨hstart, hstop⟩)
    (segment?_insert_start hapart hfixed target)]
  exact Position.segmentsCross_self target f₁ f₂

/-- From the end that was moved, the crossing is gone if it was asked for before the move. -/
theorem lanesCross_moved_eq_false {anchor : Position} (hanchor : p.get? l.stop = some anchor)
    (hasked : Point.segmentsCross target anchor f₁ f₂ = false) :
    lanesCross (p.insert l.start target) l fixed = false := by
  by_cases hends : l.start = l.stop
  · exact lanesCross_moved_loop hapart hfixed target hends
  · exact (lanesCross_moved hapart hfixed target hends hanchor).1.trans hasked

end Moved

/-- Where a flip of the stop grazes the fixed lane: from the start of the moved lane the
two cross, but not from its stop. -/
structure Grazes (p : Placement) (moving fixed : Lane) (f : Flip) : Prop where
  stop : f.sector ≠ moving.start
  oneWay : ∃ anchor f₁ f₂, p.get? moving.start = some anchor ∧ segment? p fixed = some (f₁, f₂) ∧
    Point.CrossesOneWay anchor f.target f₁ f₂

theorem grazes_iff {anchor f₁ f₂ : Position} (hanchor : p.get? moving.start = some anchor)
    (hfixed : segment? p fixed = some (f₁, f₂)) :
    Grazes p moving fixed f ↔
      f.sector ≠ moving.start ∧ Point.CrossesOneWay anchor f.target f₁ f₂ := by
  constructor
  · rintro ⟨hstop, a, b₁, b₂, ha, hb, honeWay⟩
    obtain rfl := Option.some.inj (hanchor.symm.trans ha)
    obtain ⟨rfl, rfl⟩ := Prod.mk.inj (Option.some.inj (hfixed.symm.trans hb))
    exact ⟨hstop, honeWay⟩
  · rintro ⟨hstop, honeWay⟩
    exact ⟨hstop, anchor, f₁, f₂, hanchor, hfixed, honeWay⟩

/-- **What a flip resolves.** A flip of an end of one lane across another, which shares no end
with it, is to a place from where the two do not cross, when the moved end is written first. So a
lane whose start is flipped does not cross the other lane any more. A lane whose stop is flipped
does exactly if it grazes the other one. -/
theorem pairFlips_resolve (hapart : moving.sharesEnd fixed = false)
    (hf : f ∈ pairFlips p lanes moving fixed) :
    let moved := p.insert f.sector f.target
    f.sector ∈ moving.ends ∧
    (f.sector = moving.start → lanesCross moved moving fixed = false) ∧
    (f.sector = moving.stop → lanesCross moved moving.reversed fixed = false) ∧
    (lanesCross moved moving fixed = true ↔ Grazes p moving fixed f) := by
  obtain ⟨f₁, f₂, m₁, m₂, hfixed, hmoving, hasked⟩ := of_mem_pairFlips hf
  obtain ⟨hm₁, hm₂⟩ := segment?_eq_some_iff.1 hmoving
  have hback := Lane.sharesEnd_reversed hapart
  obtain ⟨sector, origin, target⟩ := f
  rcases hasked with ⟨rfl, hasked⟩ | ⟨rfl, hasked⟩
  · have hgone := lanesCross_moved_eq_false hapart hfixed target hm₂ hasked
    refine ⟨List.mem_cons_self .., fun _ => hgone, ?_, ?_⟩
    · intro hends
      have hloop := lanesCross_moved_loop hback hfixed target hends.symm
      exact hends ▸ hloop
    · refine iff_of_false ?_ fun hgrazes => hgrazes.stop rfl
      rw [hgone]
      exact Bool.false_ne_true
  · refine ⟨List.mem_cons_of_mem _ (List.mem_cons_self ..), ?_, ?_, ?_⟩
    · intro hends
      have hloop := lanesCross_moved_loop hapart hfixed target hends.symm
      exact hends ▸ hloop
    · intro _
      exact lanesCross_moved_eq_false hback hfixed target hm₁ hasked
    · by_cases hends : moving.start = moving.stop
      · refine iff_of_false ?_ fun hgrazes => hgrazes.stop hends.symm
        have hloop := lanesCross_moved_loop hapart hfixed target hends
        rw [← hends, hloop]
        exact Bool.false_ne_true
      · rw [grazes_iff hm₁ hfixed, and_iff_right fun hsame => hends hsame.symm,
          Point.crossesOneWay_iff hasked]
        exact Bool.eq_iff_iff.1 (lanesCross_moved hback hfixed target (Ne.symm hends) hm₁).2

/-! ## A lane that is grazed -/

/-- Two long lanes that cross near the ends 2 and 3, which are joined by a short one. -/
def grazing : Placement :=
  IdMap.ofList [(1, ⟨1, -4⟩), (2, ⟨4.000000476837158203125, 1.00000095367431640625⟩), (3, ⟨4, 1⟩),
    (4, ⟨1, -3⟩)]

def grazingLanes : List Lane := [⟨1, 2⟩, ⟨3, 4⟩, ⟨2, 3⟩]

/-- The flip of the stop of one lane across the other. -/
def grazingFlip : Flip where
  sector := 2
  origin := ⟨4.000000476837158203125, 1.00000095367431640625⟩
  target := ⟨4.000000476837158203125, 1.0000007152557373046875⟩

/-- The flip of the start of the other lane across the first. -/
def clearingFlip : Flip where
  sector := 3
  origin := ⟨4, 1⟩
  target := ⟨4, 1.00000095367431640625⟩

/-- The stop of the first lane is proposed, and the flip leaves the crossing as it was. -/
theorem grazing_unresolved :
    (⟨1, 2⟩ : Lane).sharesEnd ⟨3, 4⟩ = false ∧ pairs grazing grazingLanes = [(0, 1)] ∧
    grazingFlip ∈ pairFlips grazing grazingLanes ⟨1, 2⟩ ⟨3, 4⟩ ∧
    lanesCross (grazing.insert grazingFlip.sector grazingFlip.target) ⟨1, 2⟩ ⟨3, 4⟩ = true := by
  decide +kernel

/-- The start of the second lane is proposed too, and that flip makes an end of the crossing. -/
theorem clearing_resolved :
    (⟨3, 4⟩ : Lane).sharesEnd ⟨1, 2⟩ = false ∧
    clearingFlip ∈ pairFlips grazing grazingLanes ⟨3, 4⟩ ⟨1, 2⟩ ∧
    lanesCross (grazing.insert clearingFlip.sector clearingFlip.target) ⟨3, 4⟩ ⟨1, 2⟩ = false := by
  have hapart : (⟨3, 4⟩ : Lane).sharesEnd ⟨1, 2⟩ = false := by decide
  have hproposed : clearingFlip ∈ pairFlips grazing grazingLanes ⟨3, 4⟩ ⟨1, 2⟩ := by decide +kernel
  obtain ⟨-, hstart, -⟩ := pairFlips_resolve hapart hproposed
  exact ⟨hapart, hproposed, hstart rfl⟩

end Crossing

end LaneChart
