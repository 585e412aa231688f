import LaneChart.Proofs.View.Display
import LaneChart.Proofs.View.Finite

/-!
# The copies that a view keeps

A view keeps positions twice, in the cache and in the table of what the surface was given, and
different operations write them: a layout pass the cache, a complete render the whole table, a
search both. The displayed sectors are kept three times over, as a neighbourhood, as a set, and as
the ids of the table. None of the copies ever drifts from the others:

> `state_of_run`: in every state of a run the displayed sectors are the same in all three, the
> table is the cache cut down to them, and the cache knows exactly the sectors that complete
> renders have shown since the last reset.

For the last part the neighbourhoods of complete renders are kept in a list beside the view
(`Chronicle`), which the program does not have.

What a complete render would move follows from it. A sector that was displayed has the position of
the table in the cache, and the pass reports that one, so the two can only differ when the position
is not even equal to itself (`reposition_mem_render_iff`).
-/

namespace LaneChart

namespace View

variable {v : View}

/-! ## What a complete render moves -/

namespace Consistent

variable {map : SectorMap} {focus : SectorId} {answer : Layout.Request → Layout.Answer}

theorem reposition_mem_block (h : v.Consistent)
    (hcomplete : (v.pass map focus answer).1.isComplete = true) {x : Shown}
    (hx : x.id ∈ (v.hood map focus).ids) (id : SectorId) (placed : Placed) :
    Command.reposition id placed ∈ v.block map focus answer x ↔
      id = x.id ∧ v.displayedIds.contains id = true ∧
        ∃ p, v.cache.get? id = some p ∧ p.hasNaN = true ∧ placed = ⟨p, true⟩ := by
  obtain ⟨p, hcache, hposition⟩ := v.exists_position_pass map focus answer hcomplete hx
  have hadded := v.contains_added_pass map focus answer hx
  unfold block Command.forSector
  rw [hposition]
  simp only [hadded]
  cases hdisplayed : v.displayedIds.contains x.id with
  | false =>
    -- it is created
    refine iff_of_false (by simp) ?_
    rintro ⟨rfl, hid, -⟩
    exact Bool.false_ne_true (hdisplayed.symm.trans hid)
  | true =>
    obtain ⟨q, hrendered, hcached, hstays⟩ := h.stays hdisplayed map focus answer
    obtain rfl : p = q := Option.some.inj (hcache.symm.trans hstays)
    have hpinned : v.cache.contains x.id = true := (IdMap.contains_eq_true_iff _ _).2 ⟨p, hcached⟩
    have hequal : (v.rendered.get? x.id).any (·.same p) = !p.hasNaN := by
      rw [hrendered, Option.any_some, Position.same_self_eq]
    rw [hequal, hpinned]
    cases hnan : p.hasNaN with
    | false =>
      refine iff_of_false (by simp) ?_
      rintro ⟨rfl, -, r, hr, hrnan, -⟩
      obtain rfl : p = r := Option.some.inj (hcached.symm.trans hr)
      exact Bool.false_ne_true (hnan.symm.trans hrnan)
    | true =>
      constructor
      · intro hmem
        have hsame : id = x.id ∧ placed = ⟨p, true⟩ := by simpa using hmem
        obtain ⟨rfl, rfl⟩ := hsame
        exact ⟨rfl, hdisplayed, p, hcached, hnan, rfl⟩
      · rintro ⟨rfl, -, r, hr, -, rfl⟩
        obtain rfl : p = r := Option.some.inj (hcached.symm.trans hr)
        exact List.mem_cons_self ..

/-- **What a render moves**: a sector that stays on the display and has a coordinate that is no
number. -/
theorem reposition_mem_render_iff (h : v.Consistent) (map : SectorMap) (focus : SectorId)
    (answer : Layout.Request → Layout.Answer) (id : SectorId) (placed : Placed) :
    Command.reposition id placed ∈ (v.render map focus answer).1.commands ↔
      (v.render map focus answer).1.outcome.isComplete = true ∧
      id ∈ (v.hood map focus).ids ∧ v.displayedIds.contains id = true ∧
      ∃ p, v.cache.get? id = some p ∧ p.hasNaN = true ∧ placed = ⟨p, true⟩ := by
  rcases v.render_cases map focus answer with ⟨hcomplete, heq⟩ | ⟨hskipped, heq⟩
  · rw [heq]
    show Command.reposition id placed ∈ Command.ofOutcome v.rendered (v.hood map focus)
      (v.pass map focus answer).1 ↔ _
    rw [ofOutcome_pass, and_iff_right hcomplete, List.mem_append, List.mem_flatMap]
    constructor
    · rintro (hremoved | ⟨x, hx, hblock⟩)
      · exact absurd hremoved (by simp)
      · have hid : x.id ∈ (v.hood map focus).ids := List.mem_map_of_mem hx
        obtain ⟨rfl, hrest⟩ := (h.reposition_mem_block hcomplete hid id placed).1 hblock
        exact ⟨hid, hrest⟩
    · rintro ⟨hid, hrest⟩
      obtain ⟨x, hx, rfl⟩ := List.mem_map.1 hid
      exact .inr ⟨x, hx, (h.reposition_mem_block hcomplete hid _ placed).2 ⟨rfl, hrest⟩⟩
  · rw [heq]
    refine iff_of_false List.not_mem_nil ?_
    rintro ⟨hcomplete, -⟩
    exact Bool.false_ne_true (hskipped.symm.trans hcomplete)

end Consistent

end View

/-! ## The sectors that the cache knows -/

/-- A view, and the neighbourhoods that complete renders have shown since the last reset. -/
structure Chronicle where
  view : View
  hoods : List Neighborhood

namespace Chronicle

/-- A view that shows nothing yet. -/
def start (settings : Settings) : Chronicle := ⟨.start settings, []⟩

/-- The list after an event: a complete render adds what it shows, and a reset clears it. -/
def hoodsAfter (w : Chronicle) : View.Event → List Neighborhood
  | .render map focus answer =>
    if (w.view.render map focus answer).1.outcome.isComplete then
      w.hoods ++ [(w.view.render map focus answer).1.neighborhood]
    else w.hoods
  | .refine => w.hoods
  | .tap _ => w.hoods
  | .reset => []

/-- One event. -/
def after (w : Chronicle) (event : View.Event) : Chronicle :=
  ⟨w.view.after event, w.hoodsAfter event⟩

/-- Any number of events. -/
def run (w : Chronicle) (events : List View.Event) : Chronicle := events.foldl after w

theorem view_run (w : Chronicle) (events : List View.Event) :
    (w.run events).view = w.view.run events :=
  View.run_of_foldl Chronicle.view (fun _ _ => rfl) w events

/-- The cache knows exactly the sectors of the listed neighbourhoods. -/
structure Faithful (w : Chronicle) : Prop where
  consistent : w.view.Consistent
  known : ∀ id, w.view.cache.contains id = true ↔ ∃ n ∈ w.hoods, id ∈ n.ids

theorem faithful_start (settings : Settings) : (start settings).Faithful where
  consistent := View.consistent_start settings
  known id := by simp [start, View.start]

namespace Faithful

variable {w : Chronicle}

theorem render (h : w.Faithful) (map : SectorMap) (focus : SectorId)
    (answer : Layout.Request → Layout.Answer) : (w.after (.render map focus answer)).Faithful := by
  refine ⟨h.consistent.render map focus answer, ?_⟩
  intro id
  show (w.view.render map focus answer).2.cache.contains id = true ↔
    ∃ n ∈ if (w.view.render map focus answer).1.outcome.isComplete then
      w.hoods ++ [(w.view.render map focus answer).1.neighborhood] else w.hoods, id ∈ n.ids
  rcases w.view.render_cases map focus answer with ⟨hcomplete, heq⟩ | ⟨hskipped, heq⟩
  · rw [heq, if_pos hcomplete]
    show (w.view.pass map focus answer).2.contains id = true ↔ _
    have hcache := Layout.Pass.contains_cache_run_iff hcomplete id
    simp only [List.mem_append, List.mem_singleton, or_and_right, exists_or, exists_eq_left]
    rw [← h.known]
    exact hcache
  · rw [heq, if_neg (by simp [hskipped])]
    exact h.known id

theorem refine (h : w.Faithful) : (w.after .refine).Faithful := by
  refine ⟨h.consistent.refine, ?_⟩
  intro id
  show w.view.refine.2.cache.contains id = true ↔ ∃ n ∈ w.hoods, id ∈ n.ids
  rw [← h.known]
  rcases w.view.refine_cases with heq | ⟨n, -, heq⟩
  · rw [heq]
  · rw [heq]
    show (w.view.cache.extend (w.view.search n).moved).contains id = true ↔ _
    rw [IdMap.contains_eq_isSome, IdMap.get?_extend, IdMap.contains_eq_isSome]
    cases hmoved : (w.view.search n).moved.get? id with
    | none => rw [Option.none_or]
    | some p =>
      -- what is moved is displayed, and so it is known already
      have hknown := h.consistent.cached id (h.consistent.displayed_of_moved hmoved)
      exact iff_of_true rfl hknown

theorem after (h : w.Faithful) : ∀ event, (w.after event).Faithful
  | .render map focus answer => h.render map focus answer
  | .refine => h.refine
  | .tap _ => h
  | .reset => faithful_start w.view.settings

theorem run (h : w.Faithful) (events : List View.Event) : (w.run events).Faithful :=
  List.foldlRecOn events Chronicle.after h fun _ h event _ => h.after event

end Faithful

end Chronicle

/-! ## The copies agree -/

namespace View.Consistent

variable {v : View}

theorem mem_displayedIds_iff (h : v.Consistent) (id : SectorId) :
    id ∈ v.displayedIds.keys ↔ id ∈ (v.displayed.map Neighborhood.ids).getD [] := by
  rw [← IdMap.contains_iff_mem_keys, h.ids]
  cases v.displayed with
  | none => exact iff_of_false (by simp) List.not_mem_nil
  | some n => exact Neighborhood.contains_idSet n id

theorem rendered_eq (h : v.Consistent) :
    v.rendered = v.cache.filterKeys v.displayedIds.contains := by
  apply IdMap.ext_get?
  intro id
  rw [h.rendered, IdMap.get?_filterKeys]

end View.Consistent

/-- **The state of a view in a run.** The displayed sectors are the same in the set, in the
neighbourhood and in the table of positions; the table is the cache cut down to them; and the cache
knows exactly the sectors of the complete renders since the last reset. A render moves no sector
but one that stays on the display with a coordinate that is no number, so none while the cache is
finite. -/
theorem Chronicle.state_of_run (settings : Settings) (events : List View.Event) :
    let w := (start settings).run events
    w.view = (View.start settings).run events ∧
    (∀ id, id ∈ w.view.displayedIds.keys ↔
      id ∈ (w.view.displayed.map Neighborhood.ids).getD []) ∧
    w.view.rendered.keys = w.view.displayedIds.keys ∧
    w.view.rendered = w.view.cache.filterKeys w.view.displayedIds.contains ∧
    (∀ id, id ∈ w.view.cache.keys ↔ ∃ n ∈ w.hoods, id ∈ n.ids) ∧
    (∀ map focus answer id placed,
      Command.reposition id placed ∈ (w.view.render map focus answer).1.commands ↔
        (w.view.render map focus answer).1.outcome.isComplete = true ∧
        id ∈ (w.view.hood map focus).ids ∧ id ∈ w.view.displayedIds.keys ∧
        ∃ p, w.view.cache.get? id = some p ∧ p.hasNaN = true ∧ placed = ⟨p, true⟩) ∧
    (w.view.cache.AllFinite → ∀ map focus answer id placed,
      Command.reposition id placed ∉ (w.view.render map focus answer).1.commands) := by
  intro w
  have h : w.Faithful := (faithful_start settings).run events
  refine ⟨view_run _ events, h.consistent.mem_displayedIds_iff,
    IdMap.keys_eq_of_contains h.consistent.contains_rendered, h.consistent.rendered_eq, ?_, ?_, ?_⟩
  · intro id
    rw [← IdMap.contains_iff_mem_keys]
    exact h.known id
  · intro map focus answer id placed
    rw [← IdMap.contains_iff_mem_keys]
    exact h.consistent.reposition_mem_render_iff map focus answer id placed
  · intro hfinite map focus answer id placed hmem
    obtain ⟨-, -, -, p, hp, hnan, -⟩ :=
      (h.consistent.reposition_mem_render_iff map focus answer id placed).1 hmem
    rw [Position.hasNaN_eq_false (hfinite id p hp)] at hnan
    exact Bool.false_ne_true hnan

/-- Once a search has sent sector 1 out of range, a render moves it to where it is already; before
the search no render moves anything. -/
theorem Chronicle.moved_in_place :
    (∃ p, ((start {}).run View.overflowing).view.cache.get? 1 = some p ∧ p.hasNaN = true ∧
      Command.reposition 1 ⟨p, true⟩ ∈ (((start {}).run View.overflowing).view.render View.path 1
        fun _ => .ok View.farApart).1.commands) ∧
    ((start {}).run (View.overflowing.take 1)).view.cache.AllFinite ∧
    ∀ id placed, Command.reposition id placed ∉
      (((start {}).run (View.overflowing.take 1)).view.render View.path 1
        fun _ => .ok View.farApart).1.commands := by
  obtain ⟨-, -, -, -, -, hmoves, -⟩ := state_of_run {} View.overflowing
  obtain ⟨-, -, -, -, -, -, hnone⟩ := state_of_run {} (View.overflowing.take 1)
  have hcache : ((start {}).run View.overflowing).view.cache.get? 1 = some ⟨0 / 0, 0 / 0⟩ := by
    decide +kernel
  have hfinite : ((start {}).run (View.overflowing.take 1)).view.cache.AllFinite := by
    decide +kernel
  refine ⟨⟨_, hcache, by decide +kernel, (hmoves _ _ _ _ _).2 ?_⟩, hfinite, hnone hfinite _ _ _⟩
  exact ⟨by decide +kernel, by decide +kernel, by decide +kernel, _, hcache, by decide +kernel, rfl⟩

end LaneChart
