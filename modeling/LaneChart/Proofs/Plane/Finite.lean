import LaneChart.Plane.Position
import LaneChart.Proofs.IdMap

/-!
# Finite and non-finite coordinates

What the arithmetic of singles does to infinities and to values that are no number, as far as
coordinates need it. Nothing here depends on how a result is rounded:

> `isFinite_sub_right`: taking away what is not finite leaves nothing finite.
> `isFinite_of_beq`: only a finite single equals a finite single.
> `beq_self_eq`: a single equals itself unless it is no number.

For points it follows that a mirror image is finite only if the point is
(`Position.isFinite_of_reflect`). The converse fails: products of large coordinates overflow.
-/

namespace LaneChart

namespace Single

open Float.Model (Format UnpackedFloat)

/-! ## Packed values -/

/-- A packed single is not finite exactly if all bits of its exponent are set. -/
theorem isFinite_unpack_eq_false_iff (b : BitVec Format.binary32.numBits) :
    (UnpackedFloat.unpack Format.binary32 b).isFinite = false ↔
      UnpackedFloat.unpackExponent b = -1#_ := by
  unfold UnpackedFloat.unpack
  by_cases hexponent : UnpackedFloat.unpackExponent b = -1#_
  · refine iff_of_true ?_ hexponent
    rw [if_pos hexponent]
    by_cases hmantissa : UnpackedFloat.unpackMantissa b = 0#_
    · rw [if_pos hmantissa]
      rfl
    · rw [if_neg hmantissa]
      rfl
  · refine iff_of_false ?_ hexponent
    rw [if_neg hexponent]
    intro h
    by_cases hzero : UnpackedFloat.unpackExponent b = 0#_
    · rw [if_pos hzero] at h
      by_cases hmantissa : UnpackedFloat.unpackMantissa b = 0#_
      · rw [dif_pos hmantissa] at h
        exact Bool.false_ne_true h.symm
      · rw [dif_neg hmantissa] at h
        exact Bool.false_ne_true h.symm
    · rw [if_neg hzero] at h
      exact Bool.false_ne_true h.symm

/-- A value that is not finite stays so when it is packed. -/
theorem isFinite_pack_of_eq_false {u : UnpackedFloat} (h : u.isFinite = false) :
    (Float32.ofModel (Float32.Model.pack u)).isFinite = false := by
  refine (isFinite_unpack_eq_false_iff _).2 ?_
  show UnpackedFloat.unpackExponent (UnpackedFloat.pack Format.binary32 u) = -1#_
  cases u with
  | notANumber => exact UnpackedFloat.unpackExponent_packComponents
  | infinity s => exact UnpackedFloat.unpackExponent_packComponents
  | zero s => exact absurd h.symm Bool.false_ne_true
  | finite s m e hm => exact absurd h.symm Bool.false_ne_true

/-! ## Differences and equality -/

theorem isFinite_sub_unpacked (u : UnpackedFloat) {w : UnpackedFloat} (h : w.isFinite = false) :
    (UnpackedFloat.sub Format.binary32 u w).isFinite = false := by
  cases w with
  | zero s => exact absurd h.symm Bool.false_ne_true
  | finite s m e hm => exact absurd h.symm Bool.false_ne_true
  | notANumber => cases u <;> rfl
  | infinity s =>
    cases u with
    | notANumber => rfl
    | zero t => rfl
    | finite t m e hm => rfl
    | infinity t =>
      -- infinities of one sign cancel to a value that is no number
      show UnpackedFloat.isFinite (if t == -s then .infinity t else .notANumber) = false
      split <;> rfl

theorem isFinite_of_beq_unpacked {u w : UnpackedFloat} (h : u.beq w = true)
    (hw : w.isFinite = true) : u.isFinite = true := by
  cases u with
  | zero s => rfl
  | finite s m e hm => rfl
  | notANumber => exact absurd h Bool.false_ne_true
  | infinity s =>
    cases w with
    | notANumber => exact absurd hw Bool.false_ne_true
    | infinity t => exact absurd hw Bool.false_ne_true
    | zero t => cases s <;> exact absurd h Bool.false_ne_true
    | finite t m e hm => cases s <;> exact absurd h Bool.false_ne_true

/-- A value equals itself unless it is no number. -/
theorem beq_self_unpacked (u : UnpackedFloat) : u.beq u = !u.isNaN := by
  cases u with
  | notANumber => rfl
  | infinity s => cases s <;> rfl
  | zero s => rfl
  | finite s m e hm =>
    have hcompare : (compare e e).then (compare m m) = .eq := by simp
    cases s with
    | positive =>
      show (some ((compare e e).then (compare m m)) == some .eq) = true
      rw [hcompare]
      rfl
    | negative =>
      show (some ((compare e e).then (compare m m)).swap == some .eq) = true
      rw [hcompare]
      rfl

theorem isNaN_eq_false_unpacked {u : UnpackedFloat} (h : u.isFinite = true) : u.isNaN = false := by
  cases u with
  | notANumber => exact absurd h Bool.false_ne_true
  | infinity s => rfl
  | zero s => rfl
  | finite s m e hm => rfl

theorem isFinite_sub_right {x y : Float32} (h : y.isFinite = false) :
    (x - y).isFinite = false :=
  isFinite_pack_of_eq_false (isFinite_sub_unpacked x.toModel.unpack h)

theorem isFinite_of_beq {x y : Float32} (h : x.beq y = true) (hy : y.isFinite = true) :
    x.isFinite = true :=
  isFinite_of_beq_unpacked (u := x.toModel.unpack) (w := y.toModel.unpack) h hy

theorem beq_self_eq (x : Float32) : x.beq x = !x.isNaN :=
  beq_self_unpacked x.toModel.unpack

theorem isNaN_eq_false {x : Float32} (h : x.isFinite = true) : x.isNaN = false :=
  isNaN_eq_false_unpacked (u := x.toModel.unpack) h

end Single

/-! ## Points -/

namespace Position

theorem isFinite_eq_false_iff {p : Position} :
    p.isFinite = false ↔ p.x.isFinite = false ∨ p.y.isFinite = false := by
  unfold isFinite
  rw [Bool.and_eq_false_iff]

/-- A mirror image is finite only if the point is. -/
theorem isFinite_of_reflect {p a b : Position} (h : isFinite (Point.reflect p a b) = true) :
    p.isFinite = true := by
  rw [← Bool.not_eq_false]
  intro hp
  rw [← Bool.not_eq_false] at h
  refine h ?_
  unfold Point.reflect
  simp only
  split
  · exact hp
  · rw [isFinite_eq_false_iff] at hp ⊢
    exact hp.imp Single.isFinite_sub_right Single.isFinite_sub_right

theorem isFinite_of_same {p q : Position} (h : p.same q = true) (hq : q.isFinite = true) :
    p.isFinite = true := by
  obtain ⟨hx, hy⟩ := Bool.and_eq_true_iff.1 h
  obtain ⟨hqx, hqy⟩ := Bool.and_eq_true_iff.1 hq
  exact Bool.and_eq_true_iff.2 ⟨Single.isFinite_of_beq hx hqx, Single.isFinite_of_beq hy hqy⟩

/-- Whether a coordinate is no number. -/
def hasNaN (p : Position) : Bool := p.x.isNaN || p.y.isNaN

/-- A position equals itself unless a coordinate is no number. -/
theorem same_self_eq (p : Position) : p.same p = !p.hasNaN := by
  show (p.x.beq p.x && p.y.beq p.y) = !(p.x.isNaN || p.y.isNaN)
  rw [Single.beq_self_eq, Single.beq_self_eq, Bool.not_or]

theorem hasNaN_eq_false {p : Position} (h : p.isFinite = true) : p.hasNaN = false := by
  obtain ⟨hx, hy⟩ := Bool.and_eq_true_iff.1 h
  exact Bool.or_eq_false_iff.2 ⟨Single.isNaN_eq_false hx, Single.isNaN_eq_false hy⟩

theorem same_self {p : Position} (h : p.isFinite = true) : p.same p = true := by
  rw [same_self_eq, hasNaN_eq_false h]
  rfl

end Position

/-! ## Placements -/

namespace IdMap

/-- Whether every position is finite. -/
def AllFinite (p : Placement) : Prop := ∀ id q, p.get? id = some q → q.isFinite = true

theorem allFinite_iff (p : Placement) :
    p.AllFinite ↔ p.entries.all (fun e => e.2.isFinite) = true := by
  rw [List.all_eq_true]
  constructor
  · intro h e he
    exact h e.1 e.2 ((get?_eq_some_iff _).2 he)
  · intro h id q hq
    exact h (id, q) ((get?_eq_some_iff _).1 hq)

instance instDecidableAllFinite (p : Placement) : Decidable p.AllFinite :=
  decidable_of_iff' _ p.allFinite_iff

theorem allFinite_empty : AllFinite empty := fun id q h => by simp at h

theorem AllFinite.insert {p : Placement} (h : p.AllFinite) {id : SectorId} {q : Position}
    (hq : q.isFinite = true) : AllFinite (p.insert id q) := by
  intro j r hr
  rw [IdMap.get?_insert] at hr
  split at hr
  · exact Option.some.inj hr ▸ hq
  · exact h j r hr

theorem AllFinite.extend {p q : Placement} (hp : p.AllFinite) (hq : q.AllFinite) :
    AllFinite (p.extend q) := by
  intro id r hr
  rw [IdMap.get?_extend] at hr
  rcases Option.or_eq_some_iff.1 hr with h | ⟨-, h⟩
  · exact hq id r h
  · exact hp id r h

end IdMap

end LaneChart
