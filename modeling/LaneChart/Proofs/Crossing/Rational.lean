import Mathlib.Data.List.Basic
import LaneChart.Proofs.Crossing.Resolve
import LaneChart.Proofs.Plane.Rational

/-!
# Flips without rounding

The crossing test and the flips of a pair of lanes are written over any arithmetic. Over the
rationals nothing is rounded, and there a flip never fails:

> `crossing_resolved_exactly`: of two lanes that cross, each end of one that touches the other is
> proposed, and making the flip takes the crossing away. All it takes is that the other lane is
> long enough to have a direction.

So where a search proposes nothing for an end that touches the other lane, or where a flip leaves
its crossing as it was, that lane is too short or rounding has intervened.
-/

namespace LaneChart.Crossing

/-- What comes of a crossing when the ends of one lane are mirrored in the line of the other, which
leads through two given points. -/
structure Resolves (p : IdMap (Point ℚ)) (lanes : List Lane) (moving fixed : Lane)
    (f₁ f₂ : Point ℚ) : Prop where
  /-- Either end passes: its mirror image is another place, from where the lanes do not cross. -/
  passes : ∀ m₁ m₂, segment? p moving = some (m₁, m₂) →
    Point.Mirrored m₁ m₂ f₁ f₂ ∧ Point.Mirrored m₂ m₁ f₁ f₂
  /-- So what is proposed is every end that touches the other lane, and its mirror image. -/
  proposed : ∀ f, f ∈ pairFlips p lanes moving fixed ↔ f.sector ∈ moving.ends ∧
    touches lanes f.sector fixed = true ∧ p.get? f.sector = some f.origin ∧
    f.target = Point.reflect f.origin f₁ f₂
  /-- Each of these flips takes the crossing away. -/
  resolved : ∀ f ∈ pairFlips p lanes moving fixed,
    lanesCross (p.insert f.sector f.target) moving fixed = false

section

variable {p : IdMap (Point ℚ)} {lanes : List Lane} {moving fixed : Lane} {f₁ f₂ m₁ m₂ : Point ℚ}

/-- An end whose mirror image passes is proposed if it touches the other lane. -/
theorem flip?_of_mirrored {sector : SectorId} {origin anchor : Point ℚ}
    (hmirrored : Point.Mirrored origin anchor f₁ f₂) {f : Move ℚ} :
    flip? lanes fixed f₁ f₂ sector origin anchor = some f ↔
      touches lanes sector fixed = true ∧ f = ⟨sector, origin, Point.reflect origin f₁ f₂⟩ := by
  rw [flip?_eq_some_iff]
  refine and_congr_right fun _ => ?_
  constructor
  · rintro ⟨hflip, -⟩
    exact hflip
  · rintro rfl
    exact ⟨rfl, hmirrored.moves, hmirrored.clears⟩

/-- A lane that crosses another one has two ends. -/
theorem start_ne_stop (hmoving : segment? p moving = some (m₁, m₂))
    (hcross : Point.segmentsCross m₁ m₂ f₁ f₂ = true) : moving.start ≠ moving.stop := by
  intro hends
  obtain ⟨h₁, h₂⟩ := segment?_eq_some_iff.1 hmoving
  have hsame : m₁ = m₂ := Option.some.inj (h₁.symm.trans (hends ▸ h₂))
  have hsides := (Point.segmentsCross_eq_true_iff.1 hcross).2
  rw [hsame, Point.opposite_self] at hsides
  exact Bool.false_ne_true hsides

/-- **Of two lanes that cross**, the ends of one are mirrored out of the other. -/
theorem resolves_of_lanesCross (hcross : lanesCross p moving fixed = true)
    (hfixed : segment? p fixed = some (f₁, f₂))
    (hlong : Scalar.tiny < Point.squaredLength f₁ f₂) : Resolves p lanes moving fixed f₁ f₂ := by
  obtain ⟨hapart, m₁, m₂, b₁, b₂, hmoving, hfixed', hsegments⟩ := lanesCross_eq_true_iff.1 hcross
  obtain ⟨rfl, rfl⟩ := Prod.mk.inj (Option.some.inj (hfixed'.symm.trans hfixed))
  obtain ⟨hpass₁, hpass₂⟩ := Point.mirrored_of_segmentsCross hlong hsegments
  obtain ⟨hm₁, hm₂⟩ := segment?_eq_some_iff.1 hmoving
  have hends := start_ne_stop hmoving hsegments
  have hmem (f : Move ℚ) : f ∈ pairFlips p lanes moving fixed ↔
      touches lanes moving.start fixed = true ∧
        f = ⟨moving.start, m₁, Point.reflect m₁ b₁ b₂⟩ ∨
      touches lanes moving.stop fixed = true ∧
        f = ⟨moving.stop, m₂, Point.reflect m₂ b₁ b₂⟩ := by
    rw [mem_pairFlips hfixed hmoving, flip?_of_mirrored hpass₁, flip?_of_mirrored hpass₂]
  refine ⟨?_, ?_, ?_⟩
  · intro n₁ n₂ hn
    obtain ⟨rfl, rfl⟩ := Prod.mk.inj (Option.some.inj (hmoving.symm.trans hn))
    exact ⟨hpass₁, hpass₂⟩
  · intro f
    rw [hmem]
    constructor
    · rintro (⟨htouches, rfl⟩ | ⟨htouches, rfl⟩)
      · exact ⟨List.mem_cons_self .., htouches, hm₁, rfl⟩
      · exact ⟨List.mem_cons_of_mem _ (List.mem_cons_self ..), htouches, hm₂, rfl⟩
    · rintro ⟨hsector, htouches, horigin, htarget⟩
      obtain ⟨sector, origin, target⟩ := f
      simp only at hsector htouches horigin htarget
      rcases List.mem_pair.1 hsector with rfl | rfl
      · obtain rfl := Option.some.inj (hm₁.symm.trans horigin)
        exact .inl ⟨htouches, by rw [htarget]⟩
      · obtain rfl := Option.some.inj (hm₂.symm.trans horigin)
        exact .inr ⟨htouches, by rw [htarget]⟩
  · intro f hf
    rcases (hmem f).1 hf with ⟨-, rfl⟩ | ⟨-, rfl⟩
    · exact (lanesCross_moved hapart hfixed _ hends hm₂).1.trans hpass₁.clears
    · -- the stop is the start of the lane written from its other end
      have hback := Lane.sharesEnd_reversed hapart
      refine (lanesCross_moved hback hfixed _ hends.symm hm₁).2.trans ?_
      rw [Point.segmentsCross_swap]
      exact hpass₂.clears

end

/-- **Without rounding, crossings are resolved.** Over the rationals a mirror image lies on the
other side of the line, as far from it, and its own mirror image is the point; so for every pair of
lanes that cross, the ends of either one can be mirrored in the line of the other, if that has a
direction: all that touch it are proposed, and each flip takes the crossing away. -/
theorem crossing_resolved_exactly :
    (∀ a b q : Point ℚ, Scalar.tiny < Point.squaredLength a b →
      Point.orientation a b (Point.reflect q a b) = -Point.orientation a b q ∧
      Point.reflect (Point.reflect q a b) a b = q) ∧
    ∀ (p : IdMap (Point ℚ)) (lanes : List Lane) (l m : Lane), lanesCross p l m = true →
      (∀ a b, segment? p m = some (a, b) → Scalar.tiny < Point.squaredLength a b →
        Resolves p lanes l m a b) ∧
      (∀ a b, segment? p l = some (a, b) → Scalar.tiny < Point.squaredLength a b →
        Resolves p lanes m l a b) := by
  constructor
  · intro a b q hlong
    exact ⟨Point.orientation_reflect q hlong, Point.reflect_reflect q hlong⟩
  · intro p lanes l m hcross
    constructor
    · intro a b hm hlong
      exact resolves_of_lanesCross hcross hm hlong
    · intro a b hl hlong
      exact resolves_of_lanesCross (lanesCross_comm p l m ▸ hcross) hl hlong

/-- The lanes that graze each other in singles, with the same points. -/
def grazingExactly : IdMap (Point ℚ) :=
  IdMap.ofList [(1, ⟨1, -4⟩), (2, ⟨4 + 1 / 2097152, 1 + 1 / 1048576⟩), (3, ⟨4, 1⟩), (4, ⟨1, -3⟩)]

/-- The flip that leaves their crossing as it was in singles. -/
def grazingMove : Move ℚ where
  sector := 2
  origin := ⟨4 + 1 / 2097152, 1 + 1 / 1048576⟩
  target := ⟨4 + 41 / 52428800, 1 + 38 / 52428800⟩

/-- Without rounding it takes the crossing away. -/
theorem grazing_resolved_exactly :
    lanesCross grazingExactly ⟨1, 2⟩ ⟨3, 4⟩ = true ∧
    Scalar.tiny < Point.squaredLength (⟨4, 1⟩ : Point ℚ) ⟨1, -3⟩ ∧
    grazingMove ∈ pairFlips grazingExactly grazingLanes ⟨1, 2⟩ ⟨3, 4⟩ ∧
    lanesCross (grazingExactly.insert grazingMove.sector grazingMove.target) ⟨1, 2⟩ ⟨3, 4⟩ =
      false := by
  have hcross : lanesCross grazingExactly ⟨1, 2⟩ ⟨3, 4⟩ = true := by decide +kernel
  have hfixed : segment? grazingExactly ⟨3, 4⟩ = some (⟨4, 1⟩, ⟨1, -3⟩) := by decide +kernel
  have hlong : Scalar.tiny < Point.squaredLength (⟨4, 1⟩ : Point ℚ) ⟨1, -3⟩ := by decide +kernel
  have hresolves : Resolves grazingExactly grazingLanes ⟨1, 2⟩ ⟨3, 4⟩ ⟨4, 1⟩ ⟨1, -3⟩ :=
    (crossing_resolved_exactly.2 grazingExactly grazingLanes ⟨1, 2⟩ ⟨3, 4⟩ hcross).1
      _ _ hfixed hlong
  have hproposed : grazingMove ∈ pairFlips grazingExactly grazingLanes ⟨1, 2⟩ ⟨3, 4⟩ :=
    (hresolves.proposed grazingMove).2 (by decide +kernel)
  exact ⟨hcross, hlong, hproposed, hresolves.resolved grazingMove hproposed⟩

end LaneChart.Crossing
