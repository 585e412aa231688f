import LaneChart.IdMap
import LaneChart.Plane.Point

/-!
# Positions in single precision

The coordinates of the layout are singles. Every operation is rounded on its own, in the order
in which it is written, so nothing here may be rearranged.
-/

namespace LaneChart

namespace Single

/-- The lesser of two singles; of a number and a value that is none, the number. -/
def lesser (a b : Float32) : Float32 :=
  if a.isNaN then b else if b.isNaN then a else if b < a then b else a

/-- The greater of two singles; of a number and a value that is none, the number. -/
def greater (a b : Float32) : Float32 :=
  if a.isNaN then b else if b.isNaN then a else if a < b then b else a

/-- The greatest finite single. -/
def greatest : Float32 := Float32.ofBits 0x7f7fffff

/-- The distance from one to the next single. -/
def epsilon : Float32 := Float32.ofBits 0x34000000

/-- A count as a single. -/
def ofCount (n : Nat) : Float32 := Float32.ofNat n

/-- The length of the hypotenuse: the root is taken in double precision and rounded once. An
infinite leg makes it infinite, whatever the other one is. -/
def hypotenuse (dx dy : Float32) : Float32 :=
  if dx.isInf || dy.isInf then 1 / 0
  else
    let x := dx.toFloat
    let y := dy.toFloat
    (x * x + y * y).sqrt.toFloat32

end Single

instance : Scalar Float32 where
  zero := 0
  two := 2
  tiny := Single.epsilon
  beq := Float32.beq
  decLt := inferInstance
  decLe := inferInstance

/-- A coordinate of the layout. -/
abbrev Position := Point Float32

namespace Position

/-- The point that both axes pass through. -/
def origin : Position := ⟨0, 0⟩

/-- Whether both coordinates are finite. -/
def isFinite (p : Position) : Bool := p.x.isFinite && p.y.isFinite

/-- The distance of two positions. -/
def distance (p q : Position) : Float32 := Single.hypotenuse (p.x - q.x) (p.y - q.y)

example : Point.same (⟨0, 1⟩ : Position) ⟨-0.0, 1⟩ = true := by decide +kernel
example : Point.same (⟨0 / 0, 1⟩ : Position) ⟨0 / 0, 1⟩ = false := by decide +kernel
example : (⟨0, 1⟩ : Position) ≠ ⟨-0.0, 1⟩ := by decide +kernel

end Position

/-- Positions of some sectors. -/
abbrev Placement := IdMap Position

/-- A position handed to the rendering surface, and whether the layout was bound to it. -/
structure Placed where
  position : Position
  pinned : Bool
deriving DecidableEq

end LaneChart
