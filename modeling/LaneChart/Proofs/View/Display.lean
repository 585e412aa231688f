import LaneChart.Proofs.View.Run
import LaneChart.Proofs.View.Surface

/-!
# The rendering surface follows the view

A view never tells the surface what to show, only what to change. A surface that starts empty and
carries out every command in order nevertheless shows what the view displays, whatever the
providers answered and however renders, searches, taps and resets were mixed:

> `surface_follows`: every command is one that the surface can carry out, and after every event the
> surface has exactly the displayed sectors, at exactly the positions that the view holds for them,
> in exactly the styles of the last complete render; a tap becomes an intent exactly for them.

`Watched` runs the surface beside the view, and `Watched.Faithful` is what every event keeps. All of
the work is in a complete render (`Consistent.frame_shows`): the sectors that left are removed, and
each block gives its sector the visual that it is to have.
-/

namespace LaneChart

/-! ## The commands of a frame -/

namespace View

section Frame

variable (v : View) (map : SectorMap) (focus : SectorId) (answer : Layout.Request → Layout.Answer)

/-- The commands of a complete render for one displayed sector. -/
def block (x : Shown) : List Command :=
  Command.forSector v.rendered (v.pass map focus answer).1 x x.id
    (Style.ofShown (v.hood map focus).center x)

/-- The visual that a complete render gives a displayed sector. -/
def visual (x : Shown) : Visual where
  position := ((v.pass map focus answer).2.get? x.id).getD Position.origin
  style := Style.ofShown (v.hood map focus).center x

theorem flatMap_zip_map {α β γ : Type} (f : α × β → List γ) (g : α → β) (l : List α) :
    (l.zip (l.map g)).flatMap f = l.flatMap fun a => f (a, g a) := by
  induction l with
  | nil => rfl
  | cons a l ih => rw [List.map_cons, List.zip_cons_cons, List.flatMap_cons, List.flatMap_cons, ih]

theorem ofOutcome_pass :
    Command.ofOutcome v.rendered (v.hood map focus) (v.pass map focus answer).1 =
      (Layout.Pass.removed v.displayedIds (v.hood map focus)).map .remove ++
        (v.hood map focus).sectors.flatMap (v.block map focus answer) := by
  unfold Command.ofOutcome
  congr 1
  exact flatMap_zip_map _ _ _

theorem mem_removed_iff (id : SectorId) :
    id ∈ Layout.Pass.removed v.displayedIds (v.hood map focus) ↔
      v.displayedIds.contains id = true ∧ id ∉ (v.hood map focus).ids := by
  rw [Layout.Pass.removed, List.mem_filter, ← IdMap.contains_iff_mem_keys, Bool.not_eq_true',
    ← Bool.not_eq_true, Neighborhood.contains_idSet]

theorem contains_added_pass {id : SectorId} (hid : id ∈ (v.hood map focus).ids) :
    (v.pass map focus answer).1.added.contains id = !v.displayedIds.contains id := by
  show ((v.hood map focus).ids.filter (!v.displayedIds.contains ·)).contains id = _
  rw [Bool.eq_iff_iff, List.contains_iff_mem, List.mem_filter, and_iff_right hid]

theorem exists_position_pass (hcomplete : (v.pass map focus answer).1.isComplete = true)
    {id : SectorId} (hid : id ∈ (v.hood map focus).ids) :
    ∃ p, (v.pass map focus answer).2.get? id = some p ∧
      (v.pass map focus answer).1.positions.get? id = some ⟨p, v.cache.contains id⟩ := by
  have hcached := Layout.Pass.contains_cache_run hcomplete hid
  obtain ⟨p, hp⟩ := (IdMap.contains_eq_true_iff _ _).1 hcached
  refine ⟨p, hp, ?_⟩
  rw [pass, Layout.Pass.positions_run, if_pos hid, hp]
  rfl

end Frame

namespace Consistent

variable {v : View} {map : SectorMap} {focus : SectorId}
  {answer : Layout.Request → Layout.Answer}

/-- The block of a displayed sector fits a surface that has the sector where the view says, and
gives it its visual. A sector that was displayed is not moved, so the position on the surface is
right even where it only equals that of the pass in the equality of the arithmetic. -/
theorem block_shows (h : v.Consistent)
    (hcomplete : (v.pass map focus answer).1.isComplete = true) {x : Shown}
    (hx : x.id ∈ (v.hood map focus).ids) {s : Surface}
    (hs : (s.get? x.id).map (·.position) = v.rendered.get? x.id) :
    s.AllFit (v.block map focus answer x) ∧
    ∀ j, (s.applyAll (v.block map focus answer x)).get? j =
      if j = x.id then some (v.visual map focus answer x) else s.get? j := by
  obtain ⟨p, hcache, hposition⟩ := v.exists_position_pass map focus answer hcomplete hx
  have hvisual : v.visual map focus answer x = ⟨p, Style.ofShown (v.hood map focus).center x⟩ := by
    rw [visual, hcache, Option.getD_some]
  have hadded := v.contains_added_pass map focus answer hx
  unfold block Command.forSector
  rw [hposition, hvisual]
  simp only [hadded]
  cases hdisplayed : v.displayedIds.contains x.id with
  | false =>
    have hnone : s.get? x.id = none := by
      rw [← Option.map_eq_none_iff, hs, h.rendered, hdisplayed, if_neg Bool.false_ne_true]
    refine ⟨⟨(IdMap.contains_eq_false_iff _ _).2 hnone, trivial⟩, ?_⟩
    intro j
    exact IdMap.get?_insert s x.id _ j
  | true =>
    obtain ⟨q, hrendered, -, hstays⟩ := h.stays hdisplayed map focus answer
    obtain rfl : p = q := Option.some.inj (hcache.symm.trans hstays)
    rw [hrendered] at hs
    obtain ⟨y, hy, rfl⟩ := Option.map_eq_some_iff.1 hs
    have hthere : s.contains x.id = true := (IdMap.contains_eq_true_iff _ _).2 ⟨y, hy⟩
    simp only [Bool.not_true, Bool.false_eq_true, if_false]
    split
    · -- it has not moved
      refine ⟨⟨hthere, trivial⟩, ?_⟩
      intro j
      refine (s.get?_restyle ..).trans ?_
      rw [hy, Option.map_some]
    · refine ⟨⟨hthere, (s.contains_reposition ..).trans hthere, trivial⟩, ?_⟩
      intro j
      refine (Surface.get?_restyle ..).trans ?_
      rw [s.get?_reposition, s.get?_reposition, if_pos rfl, hy]
      by_cases hj : j = x.id
      · rw [if_pos hj, if_pos hj, Option.map_some, Option.map_some]
      · rw [if_neg hj, if_neg hj, if_neg hj]

/-- **A complete render**: its commands fit a surface that follows the view, and leave it with the
visuals of the displayed sectors and nothing else. -/
theorem frame_shows (h : v.Consistent)
    (hcomplete : (v.pass map focus answer).1.isComplete = true) {s : Surface}
    (hs : ∀ id, (s.get? id).map (·.position) = v.rendered.get? id) :
    s.AllFit (Command.ofOutcome v.rendered (v.hood map focus) (v.pass map focus answer).1) ∧
    (∀ x ∈ (v.hood map focus).sectors,
      (s.applyAll (Command.ofOutcome v.rendered (v.hood map focus)
        (v.pass map focus answer).1)).get? x.id = some (v.visual map focus answer x)) ∧
    ∀ id, id ∉ (v.hood map focus).ids →
      (s.applyAll (Command.ofOutcome v.rendered (v.hood map focus)
        (v.pass map focus answer).1)).get? id = none := by
  rw [ofOutcome_pass, Surface.applyAll_append]
  have hthere : ∀ id, s.contains id = v.displayedIds.contains id := by
    intro id
    rw [← h.contains_rendered, IdMap.contains_eq_isSome, IdMap.contains_eq_isSome, ← hs,
      Option.isSome_map]
  have hmem : ∀ x ∈ (v.hood map focus).sectors, x.id ∈ (v.hood map focus).ids := by
    intro x hx
    exact List.mem_map_of_mem hx
  have hblock : ∀ x ∈ (v.hood map focus).sectors, ∀ t : Surface, t.get? x.id = s.get? x.id →
      t.AllFit (v.block map focus answer x) ∧
      ∀ j, (t.applyAll (v.block map focus answer x)).get? j =
        if j = x.id then some (v.visual map focus answer x) else t.get? j := by
    intro x hx t ht
    exact h.block_shows hcomplete (hmem x hx) (ht ▸ hs x.id)
  -- the removals leave what is still displayed alone, so every block finds its sector untouched
  have hkept : ∀ x ∈ (v.hood map focus).sectors, (s.applyAll ((Layout.Pass.removed v.displayedIds
      (v.hood map focus)).map .remove)).get? x.id = s.get? x.id := by
    intro x hx
    rw [Surface.get?_removals,
      if_neg fun hx' => ((v.mem_removed_iff map focus x.id).1 hx').2 (hmem x hx)]
  have hremovals : s.AllFit ((Layout.Pass.removed v.displayedIds (v.hood map focus)).map
      .remove) := by
    refine Surface.allFit_removals (v.displayedIds.keys_nodup.filter _) ?_
    intro id hid
    rw [hthere, ((v.mem_removed_iff map focus id).1 hid).1]
  obtain ⟨hfit, hvisual, hrest⟩ := Surface.shows_blocks s (v.nodup_ids_hood map focus)
    (fun x hx t ht => (hblock x hx t ht).1) (fun x hx t ht => (hblock x hx t ht).2) hkept
  refine ⟨Surface.allFit_append hremovals hfit, hvisual, ?_⟩
  · intro id hid
    rw [hrest id hid, Surface.get?_removals]
    split
    · rfl
    · next hstays =>
      -- it was not displayed before either
      rw [mem_removed_iff, and_iff_left hid, ← hthere, Bool.not_eq_true] at hstays
      exact (IdMap.contains_eq_false_iff _ _).1 hstays

theorem positions_frame (h : v.Consistent)
    (hcomplete : (v.pass map focus answer).1.isComplete = true) {s : Surface}
    (hs : ∀ id, (s.get? id).map (·.position) = v.rendered.get? id) (id : SectorId) :
    ((s.applyAll (Command.ofOutcome v.rendered (v.hood map focus)
      (v.pass map focus answer).1)).get? id).map (·.position) =
      ((v.pass map focus answer).1.positions.mapValues fun _ p => p.position).get? id := by
  obtain ⟨-, hvisual, hnone⟩ := h.frame_shows hcomplete hs
  rw [get?_positions_pass]
  simp only [Neighborhood.contains_idSet]
  by_cases hid : id ∈ (v.hood map focus).ids
  · obtain ⟨p, hp, -⟩ := v.exists_position_pass map focus answer hcomplete hid
    obtain ⟨x, hx, rfl⟩ := List.mem_map.1 hid
    rw [hvisual x hx, if_pos hid, Option.map_some, visual, hp, Option.getD_some]
  · rw [hnone id hid, if_neg hid, Option.map_none]

theorem styles_frame (h : v.Consistent)
    (hcomplete : (v.pass map focus answer).1.isComplete = true) {s : Surface}
    (hs : ∀ id, (s.get? id).map (·.position) = v.rendered.get? id) (id : SectorId)
    (style : Style) :
    ((s.applyAll (Command.ofOutcome v.rendered (v.hood map focus)
      (v.pass map focus answer).1)).get? id).map (·.style) = some style ↔
      (id, style) ∈ (v.pass map focus answer).1.styles := by
  obtain ⟨-, hvisual, hnone⟩ := h.frame_shows hcomplete hs
  show _ ↔ (id, style) ∈ (v.hood map focus).sectors.map fun x =>
    (x.id, Style.ofShown (v.hood map focus).center x)
  rw [List.mem_map]
  constructor
  · intro hstyle
    by_cases hid : id ∈ (v.hood map focus).ids
    · obtain ⟨x, hx, rfl⟩ := List.mem_map.1 hid
      rw [hvisual x hx, Option.map_some] at hstyle
      exact ⟨x, hx, congrArg (x.id, ·) (Option.some.inj hstyle)⟩
    · rw [hnone id hid] at hstyle
      exact absurd hstyle (by simp)
  · rintro ⟨x, hx, hentry⟩
    obtain ⟨rfl, rfl⟩ := Prod.mk.inj hentry
    rw [hvisual x hx]
    rfl

end Consistent

/-! ## No sector comes and goes twice in one frame -/

section Turnover

variable (v : View) (map : SectorMap) (focus : SectorId) (answer : Layout.Request → Layout.Answer)

/-- A block puts at most its own sector on the surface and takes nothing off it. -/
theorem turnover_forSector (rendered : Placement) (o : Layout.Outcome) (x : Shown) (id : SectorId)
    (style : Style) :
    ((Command.forSector rendered o x id style).filterMap Command.turnover?).Sublist [id] := by
  unfold Command.forSector
  split
  · exact List.nil_sublist _
  · split
    · exact List.Sublist.refl _
    · rw [List.filterMap_append]
      split
      · exact List.nil_sublist _
      · exact List.nil_sublist _

theorem turnover_blocks (xs : List Shown) :
    ((xs.flatMap (v.block map focus answer)).filterMap Command.turnover?).Sublist
      (xs.map (·.id)) := by
  induction xs with
  | nil => exact List.Sublist.refl _
  | cons x xs ih =>
    rw [List.flatMap_cons, List.filterMap_append, List.map_cons, ← List.singleton_append]
    exact (turnover_forSector ..).append ih

theorem nodup_turnover_pass :
    ((Command.ofOutcome v.rendered (v.hood map focus) (v.pass map focus answer).1).filterMap
      Command.turnover?).Nodup := by
  have hremovals : ((Layout.Pass.removed v.displayedIds (v.hood map focus)).map
      Command.remove).filterMap Command.turnover? =
      Layout.Pass.removed v.displayedIds (v.hood map focus) := by
    rw [List.filterMap_map]
    exact List.filterMap_some
  have hblocks := v.turnover_blocks map focus answer (v.hood map focus).sectors
  rw [ofOutcome_pass, List.filterMap_append, hremovals, List.nodup_append]
  refine ⟨v.displayedIds.keys_nodup.filter _, (v.nodup_ids_hood map focus).sublist hblocks, ?_⟩
  rintro a ha b hb rfl
  -- what is removed is not displayed any more
  exact ((v.mem_removed_iff map focus a).1 ha).2 (hblocks.subset hb)

end Turnover

/-- No event puts a sector on the surface twice, takes one off it twice, or does both to one. -/
theorem nodup_turnover (v : View) : ∀ event,
    ((v.told event).filterMap Command.turnover?).Nodup
  | .render map focus answer => by
    show ((v.render map focus answer).1.commands.filterMap Command.turnover?).Nodup
    rcases v.render_cases map focus answer with ⟨-, heq⟩ | ⟨-, heq⟩
    · rw [heq]
      exact v.nodup_turnover_pass map focus answer
    · rw [heq]
      exact List.nodup_nil
  | .refine => by
    show (((v.refine.1.map (·.commands)).getD []).filterMap Command.turnover?).Nodup
    rcases v.refine_cases with heq | ⟨n, -, heq⟩
    · rw [heq]
      exact List.nodup_nil
    · rw [heq]
      have hmoves : ((v.search n).moved.entries.map fun e =>
          Command.reposition e.1 ⟨e.2, false⟩).filterMap Command.turnover? = [] := by
        rw [List.filterMap_map]
        exact List.filterMap_eq_nil_iff.2 fun e _ => rfl
      exact hmoves ▸ List.nodup_nil
  | .tap _ => List.nodup_nil
  | .reset => List.nodup_nil

end View

/-! ## The surface beside the view -/

/-- A view, the surface that carries out its commands, and the styles of its last complete
render. -/
structure Watched where
  view : View
  surface : Surface
  styles : List (SectorId × Style)

namespace Watched

/-- A view that shows nothing yet, and an empty surface. -/
def start (settings : Settings) : Watched := ⟨.start settings, IdMap.empty, []⟩

/-- The surface after an event: a reset empties it, and everything else is told in commands. -/
def surfaceAfter (w : Watched) : View.Event → Surface
  | .reset => IdMap.empty
  | event => w.surface.applyAll (w.view.told event)

/-- The styles of the last complete render after an event. -/
def stylesAfter (w : Watched) : View.Event → List (SectorId × Style)
  | .render map focus answer =>
    if (w.view.render map focus answer).1.outcome.isComplete then
      (w.view.render map focus answer).1.outcome.styles
    else w.styles
  | .refine => w.styles
  | .tap _ => w.styles
  | .reset => []

/-- One event. -/
def after (w : Watched) (event : View.Event) : Watched :=
  ⟨w.view.after event, w.surfaceAfter event, w.stylesAfter event⟩

/-- Any number of events. -/
def run (w : Watched) (events : List View.Event) : Watched := events.foldl after w

theorem view_run (w : Watched) (events : List View.Event) :
    (w.run events).view = w.view.run events :=
  View.run_of_foldl Watched.view (fun _ _ => rfl) w events

/-- The surface shows what the view displays. -/
structure Faithful (w : Watched) : Prop where
  consistent : w.view.Consistent
  positions : ∀ id, (w.surface.get? id).map (·.position) = w.view.rendered.get? id
  styles : ∀ id style, (w.surface.get? id).map (·.style) = some style ↔ (id, style) ∈ w.styles

theorem faithful_start (settings : Settings) : (start settings).Faithful where
  consistent := View.consistent_start settings
  positions _ := rfl
  styles id style := by simp [start]

namespace Faithful

variable {w : Watched}

theorem contains_surface (h : w.Faithful) (id : SectorId) :
    w.surface.contains id = w.view.displayedIds.contains id := by
  rw [← h.consistent.contains_rendered, IdMap.contains_eq_isSome, IdMap.contains_eq_isSome,
    ← h.positions, Option.isSome_map]

/-- The commands of an event fit the surface that they are sent to. -/
theorem allFit (h : w.Faithful) : ∀ event, w.surface.AllFit (w.view.told event)
  | .render map focus answer => by
    show w.surface.AllFit (w.view.render map focus answer).1.commands
    rcases w.view.render_cases map focus answer with ⟨hcomplete, heq⟩ | ⟨-, heq⟩
    · rw [heq]
      exact (h.consistent.frame_shows hcomplete h.positions).1
    · rw [heq]
      trivial
  | .refine => by
    show w.surface.AllFit ((w.view.refine.1.map (·.commands)).getD [])
    rcases w.view.refine_cases with heq | ⟨n, -, heq⟩
    · rw [heq]
      trivial
    · rw [heq]
      refine Surface.allFit_moves ?_
      intro e he
      rw [h.contains_surface]
      exact h.consistent.displayed_of_moved ((IdMap.get?_eq_some_iff _).2 he)
  | .tap _ => trivial
  | .reset => trivial

theorem render (h : w.Faithful) (map : SectorMap) (focus : SectorId)
    (answer : Layout.Request → Layout.Answer) : (w.after (.render map focus answer)).Faithful := by
  refine ⟨h.consistent.render map focus answer, ?_, ?_⟩
  · intro id
    show ((w.surface.applyAll (w.view.render map focus answer).1.commands).get? id).map
      (·.position) = (w.view.render map focus answer).2.rendered.get? id
    rcases w.view.render_cases map focus answer with ⟨hcomplete, heq⟩ | ⟨-, heq⟩
    · rw [heq]
      exact h.consistent.positions_frame hcomplete h.positions id
    · rw [heq]
      exact h.positions id
  · intro id style
    show ((w.surface.applyAll (w.view.render map focus answer).1.commands).get? id).map
      (·.style) = some style ↔ (id, style) ∈
        if (w.view.render map focus answer).1.outcome.isComplete then
          (w.view.render map focus answer).1.outcome.styles
        else w.styles
    rcases w.view.render_cases map focus answer with ⟨hcomplete, heq⟩ | ⟨hskipped, heq⟩
    · rw [heq, if_pos hcomplete]
      exact h.consistent.styles_frame hcomplete h.positions id style
    · rw [heq, if_neg (by simp [hskipped])]
      exact h.styles id style

theorem refine (h : w.Faithful) : (w.after .refine).Faithful := by
  refine ⟨h.consistent.refine, ?_, ?_⟩
  · intro id
    show ((w.surface.applyAll ((w.view.refine.1.map (·.commands)).getD [])).get? id).map
      (·.position) = w.view.refine.2.rendered.get? id
    rcases w.view.refine_cases with heq | ⟨n, -, heq⟩
    · rw [heq]
      exact h.positions id
    · rw [heq]
      show ((w.surface.applyAll ((w.view.search n).moved.entries.map fun e =>
        .reposition e.1 ⟨e.2, false⟩)).get? id).map (·.position) =
          (w.view.rendered.extend (w.view.search n).moved).get? id
      rw [Surface.get?_moves, IdMap.get?_extend, ← h.positions, Option.map_map]
      cases hmoved : (w.view.search n).moved.get? id with
      | none => rfl
      | some p =>
        -- only what is on the surface is moved
        have hthere : w.surface.contains id = true := by
          rw [h.contains_surface, h.consistent.displayed_of_moved hmoved]
        obtain ⟨x, hx⟩ := (IdMap.contains_eq_true_iff _ _).1 hthere
        rw [hx]
        rfl
  · intro id style
    show ((w.surface.applyAll ((w.view.refine.1.map (·.commands)).getD [])).get? id).map
      (·.style) = some style ↔ (id, style) ∈ w.styles
    rcases w.view.refine_cases with heq | ⟨n, -, heq⟩
    · rw [heq]
      exact h.styles id style
    · rw [heq]
      show ((w.surface.applyAll ((w.view.search n).moved.entries.map fun e =>
        .reposition e.1 ⟨e.2, false⟩)).get? id).map (·.style) = some style ↔ _
      rw [Surface.get?_moves, Option.map_map]
      exact h.styles id style

theorem after (h : w.Faithful) : ∀ event, (w.after event).Faithful
  | .render map focus answer => h.render map focus answer
  | .refine => h.refine
  | .tap _ => h
  | .reset => faithful_start w.view.settings

theorem run (h : w.Faithful) (events : List View.Event) : (w.run events).Faithful :=
  List.foldlRecOn events Watched.after h fun _ h event _ => h.after event

theorem keys_surface (h : w.Faithful) : w.surface.keys = w.view.displayedIds.keys :=
  IdMap.keys_eq_of_contains h.contains_surface

theorem positions_surface (h : w.Faithful) :
    w.surface.mapValues (fun _ x => x.position) = w.view.rendered :=
  IdMap.ext_get? fun id => (IdMap.get?_mapValues _ _ id).trans (h.positions id)

/-- A tap becomes one intent if its sector is on the surface, and none otherwise. -/
theorem tap_surface (h : w.Faithful) (l : Listener) (id : SectorId) :
    w.view.tap l id = (w.surface.contains id,
      { l with received :=
          l.received ++ if w.surface.contains id && l.listening then [id] else [] }) := by
  have hlisted : w.view.displayedIds.keys.contains id = w.surface.contains id := by
    rw [h.contains_surface, Bool.eq_iff_iff, List.contains_iff_mem, IdMap.contains_iff_mem_keys]
  unfold View.tap Listener.tap
  rw [hlisted]
  cases w.surface.contains id with
  | false =>
    rw [Bool.false_and, if_neg Bool.false_ne_true, if_neg Bool.false_ne_true, List.append_nil]
  | true =>
    unfold Listener.deliver
    rw [Bool.true_and, if_pos rfl]
    split
    · rfl
    · rw [List.append_nil]

end Faithful

/-- **The surface follows the view.** Before any event of any run, every command of that event fits
the surface when its turn comes, and no sector comes or goes twice in it; the surface has exactly
the displayed sectors, at the positions that the view holds, in the styles of the last complete
render; and a tap becomes an intent, a single one that names its sector, exactly for what is on the
surface. -/
theorem surface_follows (settings : Settings) (events : List View.Event) (event : View.Event) :
    let w := (start settings).run events
    w.view = (View.start settings).run events ∧
    w.surface.AllFit (w.view.told event) ∧
    ((w.view.told event).filterMap Command.turnover?).Nodup ∧
    w.surface.keys = w.view.displayedIds.keys ∧
    w.surface.mapValues (fun _ x => x.position) = w.view.rendered ∧
    (∀ id style, (w.surface.get? id).map (·.style) = some style ↔ (id, style) ∈ w.styles) ∧
    ∀ l id, w.view.tap l id = (w.surface.contains id,
      { l with received :=
          l.received ++ if w.surface.contains id && l.listening then [id] else [] }) := by
  intro w
  have h : w.Faithful := (faithful_start settings).run events
  exact ⟨view_run _ events, h.allFit event, w.view.nodup_turnover event, h.keys_surface,
    h.positions_surface, h.styles, h.tap_surface⟩

end Watched

end LaneChart
