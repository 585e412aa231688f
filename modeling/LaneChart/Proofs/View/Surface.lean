import LaneChart.View.Command
import LaneChart.Proofs.IdMap

/-!
# The rendering surface

What the surface makes of the commands that it is sent: a table of visuals, and what each command
does to it. A command that does not fit what is on the surface is a mistake of whoever sent it
(`Surface.Fits`), not something for the surface to repair.

Frames are long lists of commands, but they are put together from three kinds of pieces, and each
has one statement: removals (`get?_removals`), moves (`get?_moves`), and blocks that deal with one
sector each and touch no other (`shows_blocks`).
-/

namespace LaneChart

/-! ## Surfaces -/

/-- The visual of a sector. -/
structure Visual where
  position : Position
  style : Style
deriving DecidableEq

/-- A rendering surface: the visuals on it. -/
abbrev Surface := IdMap Visual

/-- The sector that a command puts on the surface or takes off it. -/
def Command.turnover? : Command → Option SectorId
  | .add id _ _ _ => some id
  | .remove id => some id
  | .reposition _ _ => none
  | .restyle _ _ => none

namespace Surface

/-- Change the visual of a sector, if it has one. -/
def modify (s : Surface) (id : SectorId) (f : Visual → Visual) : Surface :=
  match s.get? id with
  | none => s
  | some x => s.insert id (f x)

/-- The surface after a command. -/
def apply (s : Surface) : Command → Surface
  | .add id placed style _ => s.insert id ⟨placed.position, style⟩
  | .remove id => s.erase id
  | .reposition id placed => modify s id fun x => { x with position := placed.position }
  | .restyle id style => modify s id fun x => { x with style }

/-- The surface after some commands. -/
def applyAll (s : Surface) (cs : List Command) : Surface := cs.foldl apply s

/-- Whether a command fits the surface: only a sector that is not there can be put there, and
everything else is about a sector that is. -/
def Fits (s : Surface) : Command → Prop
  | .add id _ _ _ => s.contains id = false
  | .remove id => s.contains id = true
  | .reposition id _ => s.contains id = true
  | .restyle id _ => s.contains id = true

/-- Whether every command fits the surface when its turn comes. -/
def AllFit (s : Surface) : List Command → Prop
  | [] => True
  | c :: cs => Fits s c ∧ AllFit (apply s c) cs

theorem get?_modify (s : Surface) (id : SectorId) (f : Visual → Visual) (j : SectorId) :
    (modify s id f).get? j = if j = id then (s.get? id).map f else s.get? j := by
  unfold modify
  cases hx : s.get? id with
  | none =>
    by_cases hj : j = id
    · rw [if_pos hj, hj, hx, Option.map_none]
    · rw [if_neg hj]
  | some x => rw [IdMap.get?_insert, Option.map_some]

theorem contains_modify (s : Surface) (id : SectorId) (f : Visual → Visual) (j : SectorId) :
    (modify s id f).contains j = s.contains j := by
  rw [IdMap.contains_eq_isSome, get?_modify]
  by_cases hj : j = id
  · rw [if_pos hj, Option.isSome_map, hj, IdMap.contains_eq_isSome]
  · rw [if_neg hj, IdMap.contains_eq_isSome]

theorem get?_reposition (s : Surface) (id : SectorId) (placed : Placed) (j : SectorId) :
    (apply s (.reposition id placed)).get? j =
      if j = id then (s.get? id).map fun x => { x with position := placed.position }
      else s.get? j := get?_modify ..

theorem get?_restyle (s : Surface) (id : SectorId) (style : Style) (j : SectorId) :
    (apply s (.restyle id style)).get? j =
      if j = id then (s.get? id).map fun x => { x with style } else s.get? j := get?_modify ..

theorem contains_reposition (s : Surface) (id : SectorId) (placed : Placed) (j : SectorId) :
    (apply s (.reposition id placed)).contains j = s.contains j := contains_modify ..

theorem allFit_append : ∀ {s : Surface} {cs ds : List Command},
    AllFit s cs → AllFit (applyAll s cs) ds → AllFit s (cs ++ ds)
  | _, [], _, _, h => h
  | _, _ :: _, _, h, h' => ⟨h.1, allFit_append h.2 h'⟩

theorem applyAll_append (s : Surface) (cs ds : List Command) :
    applyAll s (cs ++ ds) = applyAll (applyAll s cs) ds := List.foldl_append

/-! ## Removals -/

theorem allFit_removals {ids : List SectorId} (hnodup : ids.Nodup) {s : Surface}
    (h : ∀ id ∈ ids, s.contains id = true) : AllFit s (ids.map .remove) := by
  induction ids generalizing s with
  | nil => trivial
  | cons a ids ih =>
    obtain ⟨ha, hids⟩ := List.nodup_cons.1 hnodup
    refine ⟨h a (List.mem_cons_self ..), ih hids ?_⟩
    intro id hid
    show (s.erase a).contains id = true
    rw [IdMap.contains_eq_isSome, IdMap.get?_erase, if_neg fun he : id = a => ha (he ▸ hid)]
    exact h id (List.mem_cons_of_mem _ hid)

theorem get?_removals (s : Surface) (ids : List SectorId) (j : SectorId) :
    (applyAll s (ids.map .remove)).get? j = if j ∈ ids then none else s.get? j := by
  unfold applyAll
  rw [List.foldl_map]
  exact s.get?_foldl_erase ids j

/-! ## Moves -/

theorem allFit_moves {moves : List (SectorId × Position)} {s : Surface}
    (h : ∀ e ∈ moves, s.contains e.1 = true) :
    AllFit s (moves.map fun e => .reposition e.1 ⟨e.2, false⟩) := by
  induction moves generalizing s with
  | nil => trivial
  | cons a moves ih =>
    refine ⟨h a (List.mem_cons_self ..), ih ?_⟩
    intro e he
    rw [contains_reposition]
    exact h e (List.mem_cons_of_mem _ he)

/-- A table of moves changes the positions that it lists and nothing else. -/
theorem get?_moves (moves : Placement) (s : Surface) (j : SectorId) :
    (applyAll s (moves.entries.map fun e => .reposition e.1 ⟨e.2, false⟩)).get? j =
      (s.get? j).map fun x => { x with position := (moves.get? j).getD x.position } := by
  show _ = (s.get? j).map fun x => { x with position := (moves.entries.lookup j).getD x.position }
  have hascending := moves.ascending
  generalize moves.entries = l at hascending ⊢
  induction l generalizing s with
  | nil => exact (Option.map_id' (x := s.get? j)).symm
  | cons a l ih =>
    show (applyAll (apply s (.reposition a.1 ⟨a.2, false⟩))
      (l.map fun e => .reposition e.1 ⟨e.2, false⟩)).get? j = _
    rw [ih _ (List.pairwise_cons.1 hascending).2, get?_reposition, IdMap.lookup_cons]
    by_cases hj : j = a.1
    · -- no later move is about the same sector
      rw [if_pos hj, if_pos hj, hj, IdMap.lookup_head_eq_none hascending, Option.map_map]
      rfl
    · rw [if_neg hj, if_neg hj]

/-! ## Blocks -/

/-- The commands of a frame come in blocks, one for each displayed sector. When every block fits a
surface on which its sector is as it was at first, and leaves its sector with a certain visual and
the others alone, so do all of them in turn. -/
theorem shows_blocks {block : Shown → List Command} {visual : Shown → Visual} (first : Surface)
    {xs : List Shown} (hnodup : (xs.map (·.id)).Nodup)
    (hfits : ∀ x ∈ xs, ∀ s : Surface, s.get? x.id = first.get? x.id → AllFit s (block x))
    (hshows : ∀ x ∈ xs, ∀ s : Surface, s.get? x.id = first.get? x.id →
      ∀ j, (applyAll s (block x)).get? j = if j = x.id then some (visual x) else s.get? j)
    {s : Surface} (hs : ∀ x ∈ xs, s.get? x.id = first.get? x.id) :
    AllFit s (xs.flatMap block) ∧
    (∀ x ∈ xs, (applyAll s (xs.flatMap block)).get? x.id = some (visual x)) ∧
    ∀ j, j ∉ xs.map (·.id) → (applyAll s (xs.flatMap block)).get? j = s.get? j := by
  induction xs generalizing s with
  | nil => exact ⟨trivial, fun x hx => absurd hx List.not_mem_nil, fun j _ => rfl⟩
  | cons a xs ih =>
    rw [List.map_cons, List.nodup_cons] at hnodup
    have ha := hs a (List.mem_cons_self ..)
    have hshow := hshows a (List.mem_cons_self ..) s ha
    have hother : ∀ x ∈ xs, x.id ≠ a.id := by
      intro x hx he
      exact hnodup.1 (he ▸ List.mem_map_of_mem hx)
    -- the first block leaves the sectors of the others as they were at first
    have hrest : ∀ x ∈ xs, (applyAll s (block a)).get? x.id = first.get? x.id := by
      intro x hx
      rw [hshow, if_neg (hother x hx)]
      exact hs x (List.mem_cons_of_mem _ hx)
    obtain ⟨hfit, hvisual, hothers⟩ := ih hnodup.2
      (fun x hx => hfits x (List.mem_cons_of_mem _ hx))
      (fun x hx => hshows x (List.mem_cons_of_mem _ hx)) hrest
    rw [List.flatMap_cons, applyAll_append]
    refine ⟨allFit_append (hfits a (List.mem_cons_self ..) s ha) hfit, ?_, ?_⟩
    · intro x hx
      rcases List.mem_cons.1 hx with rfl | hx
      · rw [hothers x.id hnodup.1, hshow, if_pos rfl]
      · exact hvisual x hx
    · intro j hj
      rw [List.map_cons, List.mem_cons, not_or] at hj
      rw [hothers j hj.2, hshow, if_neg hj.1]

end Surface

end LaneChart
