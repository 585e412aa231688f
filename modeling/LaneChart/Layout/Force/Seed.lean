import LaneChart.Layout.Force.Settings

/-!
# Where the sectors of a request start

Sectors that come with a position start there. The others are taken in order: one with neighbours
that have a place already starts beside their mean, any other on a ring around the origin. A
small displacement that depends on the id alone keeps sectors from starting in one point.
-/

namespace LaneChart.Layout.Force

/-- Sixty-four well mixed bits from a sector id. -/
def mixedBits (id : SectorId) : UInt64 :=
  let z := id + 0x9E3779B97F4A7C15
  let z := (z ^^^ (z >>> 30)) * 0xBF58476D1CE4E5B9
  let z := (z ^^^ (z >>> 27)) * 0x94D049BB133111EB
  z ^^^ (z >>> 31)

/-- Thirty-two bits as a single between minus one and one. -/
def symmetricUnit (bits : Nat) : Float32 :=
  Float32.ofNat bits / Float32.ofNat 4294967295 * 2 - 1

/-- The displacement of a sector, in the square from minus one to one. -/
def jitter (id : SectorId) : Position :=
  let z := (mixedBits id).toNat
  ⟨symmetricUnit (z / UInt32.size), symmetricUnit (z % UInt32.size)⟩

/-- The full angle. -/
def fullTurn : Float32 := Float32.ofBits 0x40c90fdb

/-- The place on the ring for the sector with a number, of so many sectors. -/
def onRing (radius : Float32) (count i : Nat) (j : Position) : Position :=
  let angle := Single.ofCount i / Single.ofCount (max count 1) * fullTurn
  ⟨angle.cos * radius + j.x * radius * 0.1, angle.sin * radius + j.y * radius * 0.1⟩

/-- The sum of some singles from left to right. -/
def sum (xs : List Float32) : Float32 := xs.foldl (· + ·) (-0.0)

/-- The place beside the mean of some anchors. -/
def beside (spread : Float32) (anchors : List Position) (j : Position) : Position :=
  let n := Single.ofCount anchors.length
  ⟨sum (anchors.map (·.x)) / n + j.x * spread, sum (anchors.map (·.y)) / n + j.y * spread⟩

/-- The lanes of a request as pairs of sector numbers. Where an id is requested twice, the later
sector stands for it. -/
def numberedLanes (r : Request) : List (Nat × Nat) :=
  let index : IdMap Nat := IdMap.ofList r.ids.zipIdx
  r.lanes.filterMap fun l => do return (← index.get? l.start, ← index.get? l.stop)

/-- The numbers at the other ends of the lanes of one sector, in the order of the lanes. -/
def neighbours (lanes : List (Nat × Nat)) (i : Nat) : List Nat :=
  lanes.flatMap fun (a, b) => (if a = i then [b] else []) ++ (if b = i then [a] else [])

/-- Where one sector starts, given the places that are taken. -/
def seedOne (s : Settings) (lanes : List (Nat × Nat)) (placed : List (Option Position))
    (i : Nat) (id : SectorId) : Position :=
  let anchors := (neighbours lanes i).filterMap fun n => (placed[n]?).join
  match anchors with
  | [] => onRing s.seedRadius placed.length i (jitter id)
  | _ => beside (s.idealLength * 0.5) anchors (jitter id)

/-- Give the sector with a number a place, if it has none. -/
def seedNext (s : Settings) (lanes : List (Nat × Nat)) (placed : List (Option Position))
    (n : SectorId × Nat) : List (Option Position) :=
  match (placed[n.2]?).join with
  | some _ => placed
  | none => placed.set n.2 (some (seedOne s lanes placed n.2 n.1))

/-- Where the sectors of a request start. -/
def seed (s : Settings) (r : Request) : List Position :=
  (r.ids.zipIdx.foldl (seedNext s (numberedLanes r)) (r.nodes.map (·.position))).map
    (·.getD Position.origin)

end LaneChart.Layout.Force
