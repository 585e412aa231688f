import LaneChart.Layout.Force.Settings
import LaneChart.Layout.QuadTree

/-!
# One step of the simulation

Every pair of bodies repels, every lane pulls its ends towards its length at rest, and a weak pull
towards the origin keeps the whole together. A step adds up the forces on every body and moves the
free ones; pinned bodies act on the others and stay where they are.

The travel of a body in one step is at most the length of a lane at rest.
-/

namespace LaneChart.Layout.Force

/-- A sector in the simulation. -/
structure Body where
  position : Position
  velocity : Position
  pinned : Bool

/-- The sum of two vectors. -/
def plus (f g : Position) : Position := ⟨f.x + g.x, f.y + g.y⟩

/-- The difference of two vectors. -/
def minus (f g : Position) : Position := ⟨f.x - g.x, f.y - g.y⟩

/-- The length of a vector, at least one half, so that forces stay bounded. -/
def separation (d : Position) : Float32 := Single.greater (d.x * d.x + d.y * d.y).sqrt 0.5

/-! ## Forces -/

/-- The force with which a body at `q` repels one at `p`. -/
def repel (strength : Float32) (p q : Position) : Position :=
  let d := minus p q
  let distance := separation d
  let magnitude := strength / distance
  ⟨d.x / distance * magnitude, d.y / distance * magnitude⟩

/-- The repulsion of all other bodies on the body with a number, pair by pair. -/
def exactRepulsion (s : Settings) (positions : List Position) (i : Nat) (p : Position) : Position :=
  positions.zipIdx.foldl (fun f (q, j) => if j = i then f else plus f (repel s.repulsion p q))
    ⟨0, 0⟩

/-- The repulsion on every body; pinned ones do without. -/
def repulsions (s : Settings) (bodies : List Body) : List Position :=
  let positions := bodies.map (·.position)
  if s.approximate then
    let tree := QuadTree.build positions s.maxTreeDepth
    bodies.map fun b => if b.pinned then ⟨0, 0⟩ else tree.repulsion b.position s.repulsion s.theta
  else
    bodies.zipIdx.map fun (b, i) =>
      if b.pinned then ⟨0, 0⟩ else exactRepulsion s positions i b.position

/-- The force with which a lane pulls the body at `p` towards the one at `q`; it pushes when the
lane is too short. -/
def attract (s : Settings) (p q : Position) : Position :=
  let d := minus q p
  let distance := separation d
  let magnitude := s.attraction * (distance - s.idealLength) * distance / s.idealLength
  ⟨d.x / distance * magnitude, d.y / distance * magnitude⟩

/-- Add the pull of one lane to the forces on its ends. -/
def addSpring (s : Settings) (positions : List Position) (forces : List Position)
    (lane : Nat × Nat) : List Position :=
  match positions[lane.1]?, positions[lane.2]? with
  | some p, some q =>
    let f := attract s p q
    (forces.modify lane.1 (plus · f)).modify lane.2 (minus · f)
  | _, _ => forces

/-- The forces on all bodies. -/
def forces (s : Settings) (springs : List (Nat × Nat)) (bodies : List Body) : List Position :=
  springs.foldl (addSpring s (bodies.map (·.position))) (repulsions s bodies)

/-! ## Motion -/

/-- A body after a step, and how far it moved if it is free to move. -/
structure Moved where
  body : Body
  travel : Option Float32

/-- Move one body under a force. -/
def move (s : Settings) (b : Body) (f : Position) : Moved :=
  if b.pinned then ⟨b, none⟩
  else
    let fx := f.x - b.position.x * s.gravity
    let fy := f.y - b.position.y * s.gravity
    let vx := (b.velocity.x + fx * s.dt) * s.damping
    let vy := (b.velocity.y + fy * s.dt) * s.damping
    let speed := (vx * vx + vy * vy).sqrt
    let scale := if s.idealLength < speed then s.idealLength / speed else 1
    let velocity : Position := ⟨vx * scale, vy * scale⟩
    ⟨{ b with position := plus b.position velocity, velocity }, some (speed * scale)⟩

/-- The greatest travel of a step, zero if there was none. -/
def greatestTravel (moved : List Moved) : Float32 :=
  moved.foldl (fun largest m =>
    match m.travel with
    | none => largest
    | some t => Single.greater largest t) 0

/-- Take one step with all bodies. -/
def step (s : Settings) (springs : List (Nat × Nat)) (bodies : List Body) : List Moved :=
  List.zipWith (move s) bodies (forces s springs bodies)

end LaneChart.Layout.Force
