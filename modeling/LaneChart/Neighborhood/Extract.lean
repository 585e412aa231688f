import LaneChart.Neighborhood.Basic

/-!
# Extracting the neighbourhood of a sector

A breadth-first search from the center decides what is displayed. It records discovered sectors
in the order of their distance until the queue is empty or the cap on sectors is reached; what
room is left then goes to stand-ins for sectors that are mentioned but not in the map.

The search is a step function on `Search` (`step`), run for as long as it has a step to take
(`run`). A step takes one entry from the queue. Entries are added only when a sector is recorded,
one at most for each of its lanes, and no sector is recorded twice: so `stepBound`, one more than
the number of lane mentions in the map, is enough steps for every search.
-/

namespace LaneChart

/-- How much is displayed. -/
structure Limits where
  /-- The cap on displayed sectors. -/
  maxSectors : Nat := 12
  /-- The greatest distance from the center, in lanes. -/
  maxHops : UInt32 := 3
deriving DecidableEq

/-- A breadth-first search under way: the ids still to be looked at with their distances, the
recorded sectors with theirs, and the ids of the recorded sectors. -/
structure Search where
  queue : List (SectorId × Nat)
  found : List (Shown × Nat)
  seen : IdSet

namespace Search

/-- The search that is about to look at the center. -/
def start (center : SectorId) : Search := ⟨[(center, 0)], [], IdMap.empty⟩

/-- The queue entries that a sector recorded at a distance adds: its lanes to sectors that are not
recorded yet, unless it lies at the greatest distance already. -/
def successors (limits : Limits) (seen : IdSet) (s : Sector) (distance : Nat) :
    List (SectorId × Nat) :=
  if distance < limits.maxHops.toNat then
    (s.adjacent.filter (!seen.contains ·)).map (·, distance + 1)
  else []

/-- Record a sector and queue what it leads to. -/
def record (limits : Limits) (s : Search) (id : SectorId) (sector : Sector) (distance : Nat)
    (rest : List (SectorId × Nat)) : Search :=
  let seen := s.seen.insert id ()
  { queue := rest ++ successors limits seen sector distance
    found := s.found ++ [(Shown.ofSector id sector, distance)]
    seen }

/-- Take one entry from the queue: drop it if it is too far, recorded already or not in the map,
and record it otherwise. There is no step when the queue is empty or the cap is reached. -/
def step (map : SectorMap) (limits : Limits) (s : Search) : Option Search :=
  match s.queue with
  | [] => none
  | (id, distance) :: rest =>
    if limits.maxSectors ≤ s.found.length then none
    else if limits.maxHops.toNat < distance || s.seen.contains id then
      some { s with queue := rest }
    else
      match map.get? id with
      | none => some { s with queue := rest }
      | some sector => some (s.record limits id sector distance rest)

/-- Take steps until there is none, at most a given number. -/
def run (map : SectorMap) (limits : Limits) : Nat → Search → Search
  | 0, s => s
  | n + 1, s =>
    match s.step map limits with
    | none => s
    | some s' => run map limits n s'

/-- A number of steps that is enough for every search of a map. -/
def stepBound (map : SectorMap) : Nat :=
  1 + (map.entries.flatMap (·.2.adjacent)).length

end Search

/-! ## Stand-ins for undiscovered sectors -/

/-- The stand-ins chosen so far, and every id that has its place on the display. -/
structure Frontier where
  standIns : List Shown
  seen : IdSet

namespace Frontier

/-- Look at one mention of an id: while there is room, an id that is neither in the map nor
displayed yet gets a stand-in. -/
def mention (map : SectorMap) (room : Nat) (f : Frontier) (id : SectorId) : Frontier :=
  if room ≤ f.standIns.length then f
  else if map.contains id || f.seen.contains id then f
  else ⟨f.standIns ++ [Shown.placeholder id], f.seen.insert id ()⟩

end Frontier

namespace Search

/-- The ids that recorded sectors within the greatest distance mention, in order. -/
def mentions (limits : Limits) (s : Search) : List SectorId :=
  (s.found.filter fun e => decide (e.2 < limits.maxHops.toNat)).flatMap (·.1.adjacent)

/-- The stand-ins for what a finished search mentions, as far as the cap leaves room. -/
def frontier (map : SectorMap) (limits : Limits) (s : Search) : List Shown :=
  ((s.mentions limits).foldl (Frontier.mention map (limits.maxSectors - s.found.length))
    ⟨[], s.seen⟩).standIns

end Search

/-- The neighbourhood of a center: nothing if the center is not in the map or the cap is zero. -/
def Neighborhood.extract (map : SectorMap) (center : SectorId) (limits : Limits) :
    Neighborhood :=
  if limits.maxSectors = 0 || !map.contains center then .empty center
  else
    let s := (Search.start center).run map limits (Search.stepBound map)
    ⟨center, s.found.map (·.1) ++ s.frontier map limits⟩

end LaneChart
