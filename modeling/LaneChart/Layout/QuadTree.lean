import LaneChart.Plane.Position

/-!
# Quadtrees for repulsion at a distance

A square of the plane is cut into four until every part holds one body, or until a given depth. A
cell remembers how many bodies it holds and where their center is, so a cell that looks small
from some point can stand for all its bodies there.

The tree is an inductive type that keeps its bodies in the leaves; a part without bodies is
`empty`. `cells` lists the cells parents first, and numbers children by their place in that list.
-/

namespace LaneChart.Layout

/-- A body: its number and its position. -/
abbrev NumberedBody := Nat × Position

/-- What a cell knows of its bodies. -/
structure CellSummary where
  center : Position
  /-- The number of bodies. -/
  mass : Float32
  /-- The side of the square. -/
  width : Float32

/-- The bodies of a square, cut into quarters: north-west, north-east, south-west, south-east. -/
inductive QuadTree where
  | empty
  | leaf (summary : CellSummary) (bodies : List NumberedBody)
  | split (summary : CellSummary) (nw ne sw se : QuadTree)

/-- The mean of some bodies and their number. -/
def CellSummary.ofBodies (bodies : List NumberedBody) (width : Float32) : CellSummary :=
  let mass := Single.ofCount bodies.length
  let sum := bodies.foldl (fun (s : Position) b => ⟨s.x + b.2.x, s.y + b.2.y⟩) ⟨0, 0⟩
  { center := ⟨sum.x / mass, sum.y / mass⟩, mass, width }

namespace QuadTree

/-- Whether a position lies to the west, and whether it lies to the south, of a middle. A position
that cannot be compared lies on the other side. -/
def quarter (middle p : Position) : Bool × Bool :=
  (decide (p.x < middle.x), decide (p.y < middle.y))

/-- The bodies of one quarter. -/
def inQuarter (middle : Position) (west south : Bool) (bodies : List NumberedBody) :
    List NumberedBody :=
  bodies.filter fun b => quarter middle b.2 == (west, south)

/-- The tree of some bodies in a square with the given south-west corner and width, cut at most as
often as `depth` says. -/
def ofBodies : Nat → List NumberedBody → Position → Float32 → QuadTree
  | depth, bodies, corner, width =>
    match bodies with
    | [] => .empty
    | [_] => .leaf (.ofBodies bodies width) bodies
    | _ =>
      match depth with
      | 0 => .leaf (.ofBodies bodies width) bodies
      | depth + 1 =>
        let half := width / 2
        let middle : Position := ⟨corner.x + half, corner.y + half⟩
        .split (.ofBodies bodies width)
          (ofBodies depth (inQuarter middle true false bodies) ⟨corner.x, middle.y⟩ half)
          (ofBodies depth (inQuarter middle false false bodies) middle half)
          (ofBodies depth (inQuarter middle true true bodies) corner half)
          (ofBodies depth (inQuarter middle false true bodies) ⟨middle.x, corner.y⟩ half)

/-- The least coordinates of some positions. -/
def leastCorner (ps : List Position) : Position :=
  ps.foldl (fun m p => ⟨Single.lesser m.x p.x, Single.lesser m.y p.y⟩)
    ⟨Single.greatest, Single.greatest⟩

/-- The greatest coordinates of some positions. -/
def greatestCorner (ps : List Position) : Position :=
  ps.foldl (fun m p => ⟨Single.greater m.x p.x, Single.greater m.y p.y⟩)
    ⟨-Single.greatest, -Single.greatest⟩

/-- A square around some positions with a margin of a tenth of their spread, at least one: its
south-west corner and its width. -/
def boundingSquare (ps : List Position) : Position × Float32 :=
  let low := leastCorner ps
  let high := greatestCorner ps
  let margin := Single.greater (Single.greater (high.x - low.x) (high.y - low.y) * 0.1) 1
  let lowX := low.x - margin
  let lowY := low.y - margin
  let highX := high.x + margin
  let highY := high.y + margin
  let width := Single.greater (highX - lowX) (highY - lowY)
  (⟨(lowX + highX) / 2 - width / 2, (lowY + highY) / 2 - width / 2⟩, width)

/-- The bodies at some positions, numbered in order. -/
def numbered (ps : List Position) : List NumberedBody := ps.zipIdx.map fun (p, i) => (i, p)

/-- The tree of some positions. -/
def build (ps : List Position) (maxDepth : Nat) : QuadTree :=
  let (corner, width) := boundingSquare ps
  ofBodies maxDepth (numbered ps) corner width

end QuadTree

/-! ## Repulsion -/

namespace CellSummary

/-- The vector from the center of a cell to a point, and the square of its length. -/
def offset (m : CellSummary) (here : Position) : Position × Float32 :=
  let dx := here.x - m.center.x
  let dy := here.y - m.center.y
  (⟨dx, dy⟩, dx * dx + dy * dy)

/-- Whether a cell looks small enough from a point to be taken for one body. -/
def isDistant (m : CellSummary) (here : Position) (theta : Float32) : Bool :=
  decide (m.width * m.width < theta * theta * (m.offset here).2)

/-- What a cell adds to the force on a body at a point: nothing when its center is at that point,
which is how a body leaves itself out. -/
def push? (m : CellSummary) (here : Position) (strength : Float32) : Option Position :=
  let (d, squaredDistance) := m.offset here
  if squaredDistance ≤ Single.epsilon then none
  else
    let distance := squaredDistance.sqrt
    let magnitude := strength * m.mass / distance
    some ⟨d.x / distance * magnitude, d.y / distance * magnitude⟩

end CellSummary

namespace QuadTree

/-- Add what a cell pushes with to a force. -/
def addPush (m : CellSummary) (here : Position) (strength : Float32) (f : Position) : Position :=
  match m.push? here strength with
  | none => f
  | some g => ⟨f.x + g.x, f.y + g.y⟩

/-- Add the repulsion of a tree to a force, cell by cell. A leaf and a distant cell push as one
body; the parts of any other cell are visited from the last to the first. -/
def addRepulsion (here : Position) (strength theta : Float32) : QuadTree → Position → Position
  | .empty, f => f
  | .leaf m _, f => addPush m here strength f
  | .split m nw ne sw se, f =>
    if m.isDistant here theta then addPush m here strength f
    else
      let f := se.addRepulsion here strength theta f
      let f := sw.addRepulsion here strength theta f
      let f := ne.addRepulsion here strength theta f
      nw.addRepulsion here strength theta f

/-- The repulsion of a tree on a body at a point. -/
def repulsion (t : QuadTree) (here : Position) (strength theta : Float32) : Position :=
  t.addRepulsion here strength theta ⟨0, 0⟩

/-! ## The list of cells -/

/-- A cell of the list, with the places of its four parts, where they hold bodies. -/
structure Cell where
  summary : CellSummary
  children : List (Option Nat)

/-- The number of cells. -/
def count : QuadTree → Nat
  | .empty => 0
  | .leaf _ _ => 1
  | .split _ nw ne sw se => 1 + nw.count + ne.count + sw.count + se.count

/-- The place of the root of a tree whose cells start at a place, if it has cells. -/
def root? (start : Nat) : QuadTree → Option Nat
  | .empty => none
  | _ => some start

/-- The cells of a tree, parents first, when the list starts at a place. -/
def cellsFrom (start : Nat) : QuadTree → List Cell
  | .empty => []
  | .leaf m _ => [⟨m, [none, none, none, none]⟩]
  | .split m nw ne sw se =>
    let atNw := start + 1
    let atNe := atNw + nw.count
    let atSw := atNe + ne.count
    let atSe := atSw + sw.count
    ⟨m, [nw.root? atNw, ne.root? atNe, sw.root? atSw, se.root? atSe]⟩ ::
      (nw.cellsFrom atNw ++ ne.cellsFrom atNe ++ sw.cellsFrom atSw ++ se.cellsFrom atSe)

/-- The cells of a tree, parents first. -/
def cells (t : QuadTree) : List Cell := t.cellsFrom 0

end QuadTree

end LaneChart.Layout
