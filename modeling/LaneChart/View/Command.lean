import LaneChart.Layout.Pass

/-!
# Commands for the rendering surface

What the surface is told after a pass: which visuals to drop, which to create, which to move, and
how to style them. Only new sectors carry a label.
-/

namespace LaneChart

/-- An instruction for the rendering surface. -/
inductive Command where
  /-- Create the visual of a sector. -/
  | add (id : SectorId) (placed : Placed) (style : Style) (label : Option String)
  /-- Drop the visual of a sector. -/
  | remove (id : SectorId)
  /-- Move the visual of a sector. -/
  | reposition (id : SectorId) (placed : Placed)
  /-- Change the style of the visual of a sector. -/
  | restyle (id : SectorId) (style : Style)
deriving DecidableEq

namespace Command

/-- The commands for one displayed sector: create it if it is new; otherwise move it if its
position is not the one on the surface, and style it. -/
def forSector (rendered : Placement) (o : Layout.Outcome) (s : Shown) (id : SectorId)
    (style : Style) : List Command :=
  match o.positions.get? id with
  | none => []
  | some placed =>
    if o.added.contains id then [add id placed style s.port]
    else
      (if (rendered.get? id).any (·.same placed.position) then [] else [reposition id placed])
        ++ [restyle id style]

/-- The commands for an outcome, removals first. -/
def ofOutcome (rendered : Placement) (n : Neighborhood) (o : Layout.Outcome) : List Command :=
  o.removed.map remove
    ++ (n.sectors.zip o.styles).flatMap fun (s, id, style) => forSector rendered o s id style

end Command

end LaneChart
