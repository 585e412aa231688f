import LaneChart.Crossing.Flip
import LaneChart.Proofs.IdMap
import LaneChart.Proofs.Plane.Turns

/-!
# Segments and flips over any arithmetic

The test of two lanes and the flips of one across the other only put points into the formulas of
the plane, whatever these make of them. So what they come to can be said once for all arithmetics,
rounded or not: one lemma for each of the four definitions.

> `segment?_eq_some_iff`: a segment leads from the point of one end to that of the other.
> `lanesCross_eq_true_iff`: lanes that cross are apart and placed, and their segments cross.
> `flip?_eq_some_iff`: an end that touches the other lane goes to its mirror image, if that is
> another place and the segments do not cross from there.
> `mem_pairFlips_iff`: the flips of a lane are those of its ends.

`lanesCross_moved` says what becomes of the test when the start of a lane is moved. For the stop it
is the same lane, written from the other end.
-/

namespace LaneChart

/-! ## Ends in common -/

namespace Lane

variable {l m : Lane}

theorem sharesEnd_comm (l m : Lane) : l.sharesEnd m = m.sharesEnd l := by
  apply Bool.eq_iff_iff.2
  unfold sharesEnd
  simp only [Bool.or_eq_true, beq_iff_eq]
  constructor <;> (rintro (((h | h) | h) | h) <;> simp only [h, true_or, or_true])

theorem sharesEnd_self (l : Lane) : l.sharesEnd l = true := by
  unfold sharesEnd
  simp only [beq_self_eq_true, Bool.true_or]

theorem sharesEnd_eq_false_iff :
    l.sharesEnd m = false ↔
      (l.start ≠ m.start ∧ l.start ≠ m.stop) ∧ l.stop ≠ m.start ∧ l.stop ≠ m.stop := by
  unfold sharesEnd
  simp only [Bool.or_eq_false_iff, beq_eq_false_iff_ne, and_assoc]

/-- A lane, written from its other end. -/
def reversed (l : Lane) : Lane := ⟨l.stop, l.start⟩

theorem sharesEnd_reversed (h : l.sharesEnd m = false) : l.reversed.sharesEnd m = false := by
  rw [sharesEnd_eq_false_iff] at h ⊢
  exact h.symm

end Lane

namespace Crossing

variable {K : Type} {p : IdMap (Point K)} {l m : Lane}

/-! ## Segments -/

/-- The ends of a segment are the points of the ends of its lane. -/
theorem segment?_eq_some_iff {a b : Point K} :
    segment? p l = some (a, b) ↔ p.get? l.start = some a ∧ p.get? l.stop = some b := by
  unfold segment?
  cases p.get? l.start with
  | none => simp
  | some a' => cases p.get? l.stop <;> simp

/-- Moving a sector that is no end of a lane leaves the lane where it is. -/
theorem segment?_insert_of_ne {sector : SectorId} (q : Point K) (hstart : l.start ≠ sector)
    (hstop : l.stop ≠ sector) : segment? (p.insert sector q) l = segment? p l := by
  unfold segment?
  rw [IdMap.get?_insert_of_ne p q hstart, IdMap.get?_insert_of_ne p q hstop]

/-- Moving the start of a lane leaves a lane apart from it where it is. -/
theorem segment?_insert_start {a b : Point K} (hapart : l.sharesEnd m = false)
    (hm : segment? p m = some (a, b)) (q : Point K) :
    segment? (p.insert l.start q) m = some (a, b) := by
  obtain ⟨⟨hstart, hstop⟩, -⟩ := Lane.sharesEnd_eq_false_iff.1 hapart
  rw [segment?_insert_of_ne q hstart.symm hstop.symm, hm]

variable [Scalar K]

/-! ## The test -/

theorem lanesCross_eq {a₁ a₂ b₁ b₂ : Point K} (hapart : l.sharesEnd m = false)
    (hl : segment? p l = some (a₁, a₂)) (hm : segment? p m = some (b₁, b₂)) :
    lanesCross p l m = Point.segmentsCross a₁ a₂ b₁ b₂ := by
  unfold lanesCross
  rw [hapart, if_neg Bool.false_ne_true, hl, hm]

/-- **Lanes that cross** have no end in common, both are placed, and their segments cross. -/
theorem lanesCross_eq_true_iff :
    lanesCross p l m = true ↔ l.sharesEnd m = false ∧ ∃ a₁ a₂ b₁ b₂,
      segment? p l = some (a₁, a₂) ∧ segment? p m = some (b₁, b₂) ∧
      Point.segmentsCross a₁ a₂ b₁ b₂ = true := by
  unfold lanesCross
  cases l.sharesEnd m with
  | true => simp
  | false =>
    rcases segment? p l with _ | ⟨a₁, a₂⟩
    · simp
    · rcases segment? p m with _ | ⟨b₁, b₂⟩
      · simp
      · constructor
        · intro hcross
          exact ⟨rfl, a₁, a₂, b₁, b₂, rfl, rfl, hcross⟩
        · rintro ⟨-, _, _, _, _, ⟨⟩, ⟨⟩, hcross⟩
          exact hcross

/-- **Crossing of lanes is symmetric**, for any coordinates whatever. -/
theorem lanesCross_comm (p : IdMap (Point K)) (l m : Lane) :
    lanesCross p l m = lanesCross p m l := by
  rw [Bool.eq_iff_iff, lanesCross_eq_true_iff, lanesCross_eq_true_iff, Lane.sharesEnd_comm]
  constructor <;>
  · rintro ⟨hapart, a₁, a₂, b₁, b₂, ha, hb, hcross⟩
    rw [Point.segmentsCross_comm] at hcross
    exact ⟨hapart, b₁, b₂, a₁, a₂, hb, ha, hcross⟩

/-- The two ways to ask for the crossing of a lane whose start has moved. -/
theorem lanesCross_moved {fixed : Lane} {f₁ f₂ anchor : Point K}
    (hapart : l.sharesEnd fixed = false) (hfixed : segment? p fixed = some (f₁, f₂))
    (target : Point K) (hends : l.start ≠ l.stop) (hanchor : p.get? l.stop = some anchor) :
    lanesCross (p.insert l.start target) l fixed = Point.segmentsCross target anchor f₁ f₂ ∧
    lanesCross (p.insert l.start target) l.reversed fixed =
      Point.segmentsCross anchor target f₁ f₂ := by
  have hstart : (p.insert l.start target).get? l.start = some target := IdMap.get?_insert_self ..
  have hstop : (p.insert l.start target).get? l.stop = some anchor :=
    (IdMap.get?_insert_of_ne p target hends.symm).trans hanchor
  have hstays := segment?_insert_start hapart hfixed target
  constructor
  · exact lanesCross_eq hapart (segment?_eq_some_iff.2 ⟨hstart, hstop⟩) hstays
  · exact lanesCross_eq (Lane.sharesEnd_reversed hapart) (segment?_eq_some_iff.2 ⟨hstop, hstart⟩)
      hstays

/-! ## The flips of a pair -/

variable {lanes : List Lane} {moving fixed : Lane} {f : Move K}

/-- **What is asked of a flip**, the moved end written first. -/
theorem flip?_eq_some_iff {f₁ f₂ : Point K} {sector : SectorId} {origin anchor : Point K} :
    flip? lanes fixed f₁ f₂ sector origin anchor = some f ↔
      touches lanes sector fixed = true ∧ f = ⟨sector, origin, Point.reflect origin f₁ f₂⟩ ∧
      f.target.same origin = false ∧ Point.segmentsCross f.target anchor f₁ f₂ = false := by
  unfold flip?
  simp only [Option.ite_none_right_eq_some, Option.some_inj, Bool.and_eq_true, Bool.not_eq_true']
  refine and_congr_right fun _ => ?_
  constructor
  · rintro ⟨⟨hmoves, hclears⟩, rfl⟩
    exact ⟨rfl, hmoves, hclears⟩
  · rintro ⟨rfl, hmoves, hclears⟩
    exact ⟨⟨hmoves, hclears⟩, rfl⟩

theorem mem_pairFlips {f₁ f₂ m₁ m₂ : Point K} (hfixed : segment? p fixed = some (f₁, f₂))
    (hmoving : segment? p moving = some (m₁, m₂)) :
    f ∈ pairFlips p lanes moving fixed ↔
      flip? lanes fixed f₁ f₂ moving.start m₁ m₂ = some f ∨
      flip? lanes fixed f₁ f₂ moving.stop m₂ m₁ = some f := by
  unfold pairFlips
  rw [hfixed, hmoving]
  simp only [List.mem_append, Option.mem_toList]

/-- **The flips of one lane across another** are those of its ends, if both lanes are placed. -/
theorem mem_pairFlips_iff :
    f ∈ pairFlips p lanes moving fixed ↔ ∃ f₁ f₂ m₁ m₂,
      segment? p fixed = some (f₁, f₂) ∧ segment? p moving = some (m₁, m₂) ∧
      (flip? lanes fixed f₁ f₂ moving.start m₁ m₂ = some f ∨
        flip? lanes fixed f₁ f₂ moving.stop m₂ m₁ = some f) := by
  constructor
  · intro h
    have hplaced := h
    unfold pairFlips at hplaced
    split at hplaced
    · next f₁ f₂ m₁ m₂ hfixed hmoving =>
      exact ⟨f₁, f₂, m₁, m₂, hfixed, hmoving, (mem_pairFlips hfixed hmoving).1 h⟩
    · exact absurd hplaced List.not_mem_nil
  · rintro ⟨_, _, _, _, hfixed, hmoving, h⟩
    exact (mem_pairFlips hfixed hmoving).2 h

end Crossing

end LaneChart
