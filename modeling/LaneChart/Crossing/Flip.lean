import LaneChart.Crossing.Count

/-!
# Flips that resolve a crossing

A flip moves one sector to its mirror image in the line of another lane. For a crossing pair it is
proposed for each end of either lane that has a lane to an end of the other, when the mirror image
is another place and the crossing is gone from there. A sector is proposed once at most, for the
first crossing that proposes it.

What one pair of lanes proposes is written for any arithmetic. A `Flip` is a move in single
precision.
-/

namespace LaneChart.Crossing

/-- A move of one sector. -/
structure Move (K : Type) where
  sector : SectorId
  origin : Point K
  target : Point K
deriving DecidableEq

/-- Whether a sector has a lane to an end of a given one. -/
def touches (lanes : List Lane) (sector : SectorId) (fixed : Lane) : Bool :=
  fixed.ends.any (Lane.anyJoins lanes sector ·)

section AnyArithmetic

variable {K : Type} [Scalar K]

/-- The flip of one end of a lane across a line, if it is proposed: `anchor` is the position of
the other end. -/
@[specialize] def flip? (lanes : List Lane) (fixed : Lane) (f₁ f₂ : Point K) (sector : SectorId)
    (origin anchor : Point K) : Option (Move K) :=
  if touches lanes sector fixed then
    let target := Point.reflect origin f₁ f₂
    if !target.same origin && !Point.segmentsCross target anchor f₁ f₂ then
      some ⟨sector, origin, target⟩
    else none
  else none

/-- The flips of the ends of one lane across another, the start first. -/
@[specialize] def pairFlips (p : IdMap (Point K)) (lanes : List Lane) (moving fixed : Lane) :
    List (Move K) :=
  match segment? p fixed, segment? p moving with
  | some (f₁, f₂), some (m₁, m₂) =>
    (flip? lanes fixed f₁ f₂ moving.start m₁ m₂).toList
      ++ (flip? lanes fixed f₁ f₂ moving.stop m₂ m₁).toList
  | _, _ => []

end AnyArithmetic

/-- A move of one sector of the layout. -/
abbrev Flip := Move Float32

/-- The flips that one crossing pair proposes. -/
def crossingFlips (p : Placement) (lanes : List Lane) (pair : Nat × Nat) : List Flip :=
  match lanes[pair.1]?, lanes[pair.2]? with
  | some l, some m => pairFlips p lanes l m ++ pairFlips p lanes m l
  | _, _ => []

/-- Keep the first flip of each sector. -/
def firstOfEach : List Flip → List SectorId → List Flip
  | [], _ => []
  | f :: rest, seen =>
    if seen.contains f.sector then firstOfEach rest seen
    else f :: firstOfEach rest (f.sector :: seen)

/-- The flips proposed for some positions and lanes. -/
def proposals (p : Placement) (lanes : List Lane) : List Flip :=
  firstOfEach ((pairs p lanes).flatMap (crossingFlips p lanes)) []

end LaneChart.Crossing
