import LaneChart.Proofs.View.Run

/-!
# Positions are stable

A sector that has a place keeps it. The layout alone never moves what the cache knows, whatever it
is asked to lay out and whatever the providers answer; among the events of a view only a search for
fewer crossings moves a sector, and it says so, and only a reset forgets one:

> `positions_stable`: a cached position survives every layout call bit for bit and is what every
> later outcome reports, pinned; a view changes it by a search that emits a move of the sector, and
> drops it by a reset; so a sector that returns to the display is where it was shown last.

The last part compares the cache with a table that is never read by the program: where every sector
was shown last (`Remembered`). The two are the same table, because an event leaves the cache alone
wherever nothing is displayed after it (`cache_after_of_not_displayed`).
-/

namespace LaneChart

/-! ## Layout calls -/

namespace Layout

/-- A layout call: what to lay out, what was displayed before, and a provider. -/
structure Call where
  hood : Neighborhood
  previous : IdSet
  answer : Request → Answer

namespace Call

/-- The outcome of a call and the cache after it. -/
def run (c : Call) (cache : Placement) : Outcome × Placement :=
  Pass.run cache c.hood c.previous c.answer

/-- The cache after some calls. -/
def cacheAfter (cache : Placement) (calls : List Call) : Placement :=
  calls.foldl (fun cache c => (c.run cache).2) cache

theorem cacheAfter_of_cached {cache : Placement} {id : SectorId} {p : Position}
    (h : cache.get? id = some p) (calls : List Call) :
    (cacheAfter cache calls).get? id = some p := by
  induction calls generalizing cache with
  | nil => exact h
  | cons c calls ih => exact ih (Pass.cache_run_of_cached h)

end Call

end Layout

/-! ## Events of a view -/

namespace View

variable {v : View}

/-- A move on the surface is a move in the cache, and the other way round. -/
theorem cache_refine (v : View) (id : SectorId) :
    (∃ q, Command.reposition id ⟨q, false⟩ ∈ v.told .refine ∧ v.refine.2.cache.get? id = some q) ∨
    v.refine.2.cache.get? id = v.cache.get? id := by
  rcases v.refine_cases with heq | ⟨n, -, heq⟩
  · rw [heq]
    exact .inr rfl
  · have htold : v.told .refine = (v.search n).moved.entries.map fun e =>
        .reposition e.1 ⟨e.2, false⟩ := by
      show (v.refine.1.map (·.commands)).getD [] = _
      rw [heq]
      rfl
    rw [heq, htold]
    show (∃ q, _ ∧ (v.cache.extend (v.search n).moved).get? id = some q) ∨
      (v.cache.extend (v.search n).moved).get? id = v.cache.get? id
    rw [IdMap.get?_extend]
    cases hmoved : (v.search n).moved.get? id with
    | none => exact .inr rfl
    | some q =>
      refine .inl ⟨q, List.mem_map.2 ⟨(id, q), ?_, rfl⟩, rfl⟩
      exact (IdMap.get?_eq_some_iff _).1 hmoved

theorem cache_render_of_cached {id : SectorId} {p : Position} (h : v.cache.get? id = some p)
    (map : SectorMap) (focus : SectorId) (answer : Layout.Request → Layout.Answer) :
    (v.render map focus answer).2.cache.get? id = some p := by
  rcases v.render_cases map focus answer with ⟨-, heq⟩ | ⟨-, heq⟩
  · rw [heq]
    show (v.pass map focus answer).2.get? id = some p
    exact Layout.Pass.cache_run_of_cached h
  · rw [heq]
    exact h

/-- **What can happen to a cached position**: it stays, or a reset drops it, or a search replaces it
by another one and emits the move. -/
theorem cache_after_cases {id : SectorId} {p : Position} (h : v.cache.get? id = some p) :
    ∀ event : Event, (v.after event).cache.get? id = some p ∨ event = .reset ∨
      (event = .refine ∧ ∃ q, Command.reposition id ⟨q, false⟩ ∈ v.told event ∧
        (v.after event).cache.get? id = some q)
  | .render map focus answer => .inl (cache_render_of_cached h map focus answer)
  | .refine => by
    rcases v.cache_refine id with hmoved | hsame
    · exact .inr (.inr ⟨rfl, hmoved⟩)
    · exact .inl (hsame.trans h)
  | .tap _ => .inl h
  | .reset => .inr (.inl rfl)

/-- An event other than a reset leaves the cache alone where nothing is displayed after it. -/
theorem cache_after_of_not_displayed (h : v.Consistent) {event : Event} (hevent : event ≠ .reset)
    {id : SectorId} (hid : (v.after event).displayedIds.contains id = false) :
    (v.after event).cache.get? id = v.cache.get? id := by
  cases event with
  | reset => exact absurd rfl hevent
  | tap _ => rfl
  | render map focus answer =>
    change (v.render map focus answer).2.displayedIds.contains id = false at hid
    show (v.render map focus answer).2.cache.get? id = _
    rcases v.render_cases map focus answer with ⟨-, heq⟩ | ⟨-, heq⟩
    · rw [heq] at hid ⊢
      show (v.pass map focus answer).2.get? id = _
      cases hcache : v.cache.get? id with
      | some p => exact Layout.Pass.cache_run_of_cached hcache
      | none =>
        cases hnew : (v.pass map focus answer).2.get? id with
        | none => rfl
        | some p =>
          have hmem := (Layout.Pass.cache_run_of_uncached hcache hnew).1
          exact absurd ((Neighborhood.contains_idSet _ _).2 hmem) (by rw [hid]; simp)
    · rw [heq]
  | refine =>
    change v.refine.2.displayedIds.contains id = false at hid
    show v.refine.2.cache.get? id = _
    rcases v.refine_cases with heq | ⟨n, -, heq⟩
    · rw [heq]
    · rw [heq] at hid ⊢
      show (v.cache.extend (v.search n).moved).get? id = _
      rw [IdMap.get?_extend]
      cases hmoved : (v.search n).moved.get? id with
      | none => rfl
      | some p => exact absurd (h.displayed_of_moved hmoved) (by rw [hid]; simp)

end View

/-! ## Where sectors were shown last -/

/-- A view, and where every sector was shown last since the last reset. -/
structure Remembered where
  view : View
  shown : Placement

namespace Remembered

/-- A view that shows nothing yet. -/
def start (settings : Settings) : Remembered := ⟨.start settings, IdMap.empty⟩

/-- The table after an event: a reset clears it, and everything else writes what is shown now. -/
def shownAfter (w : Remembered) : View.Event → Placement
  | .reset => IdMap.empty
  | event => w.shown.extend (w.view.after event).rendered

/-- One event. -/
def after (w : Remembered) (event : View.Event) : Remembered :=
  ⟨w.view.after event, w.shownAfter event⟩

/-- Any number of events. -/
def run (w : Remembered) (events : List View.Event) : Remembered := events.foldl after w

theorem view_run (w : Remembered) (events : List View.Event) :
    (w.run events).view = w.view.run events :=
  View.run_of_foldl Remembered.view (fun _ _ => rfl) w events

/-- The table is the cache: both have every sector where it was shown last. -/
structure Faithful (w : Remembered) : Prop where
  consistent : w.view.Consistent
  shown : w.shown = w.view.cache

theorem faithful_start (settings : Settings) : (start settings).Faithful :=
  ⟨View.consistent_start settings, rfl⟩

namespace Faithful

variable {w : Remembered}

theorem shown_after (h : w.Faithful) (event : View.Event) :
    w.shownAfter event = (w.view.after event).cache := by
  by_cases hevent : event = .reset
  · rw [hevent]
    rfl
  · have htable : w.shownAfter event = w.shown.extend (w.view.after event).rendered := by
      cases event with
      | reset => exact absurd rfl hevent
      | _ => rfl
    have hafter := h.consistent.after event
    -- what is displayed now is written over the table, and nothing else has changed in the cache
    rw [htable, h.shown]
    apply IdMap.ext_get?
    intro id
    rw [IdMap.get?_extend, hafter.rendered]
    cases hid : (w.view.after event).displayedIds.contains id with
    | true =>
      obtain ⟨p, hp⟩ := (IdMap.contains_eq_true_iff _ _).1 (hafter.cached id hid)
      rw [if_pos rfl, hp, Option.some_or]
    | false =>
      rw [if_neg Bool.false_ne_true, Option.none_or,
        View.cache_after_of_not_displayed h.consistent hevent hid]

theorem after (h : w.Faithful) (event : View.Event) : (w.after event).Faithful :=
  ⟨h.consistent.after event, h.shown_after event⟩

theorem run (h : w.Faithful) (events : List View.Event) : (w.run events).Faithful :=
  List.foldlRecOn events Remembered.after h fun _ h event _ => h.after event

/-- A sector that a complete render displays is where it was shown last. -/
theorem rendered_of_shown (h : w.Faithful) {id : SectorId} {p : Position}
    (hshown : w.shown.get? id = some p) {map : SectorMap} {focus : SectorId}
    {answer : Layout.Request → Layout.Answer}
    (hcomplete : (w.view.render map focus answer).1.outcome.isComplete = true)
    (hid : id ∈ (w.view.hood map focus).ids) :
    (w.view.render map focus answer).2.rendered.get? id = some p := by
  rw [h.shown] at hshown
  have hcached := View.cache_render_of_cached hshown map focus answer
  rw [(h.consistent.render map focus answer).rendered, hcached]
  rcases w.view.render_cases map focus answer with ⟨-, heq⟩ | ⟨hskipped, heq⟩
  · rw [heq]
    exact if_pos ((Neighborhood.contains_idSet _ _).2 hid)
  · rw [heq] at hcomplete
    exact absurd (hcomplete.symm.trans hskipped) (by simp)

end Faithful

end Remembered

/-- **Positions are stable.** No layout calls change a cached position, and every later outcome that
displays its sector reports it, pinned, and does not list the sector as placed. In a run of a view a
cached position is changed only by a search that emits a move of its sector, and dropped only by a
reset. And a sector that a complete render displays is where it was shown last. -/
theorem positions_stable :
    (∀ (cache : Placement) (id : SectorId) (p : Position), cache.get? id = some p →
      ∀ (calls : List Layout.Call) (c : Layout.Call),
        (Layout.Call.cacheAfter cache calls).get? id = some p ∧
        id ∉ (c.run (Layout.Call.cacheAfter cache calls)).1.placed ∧
        (id ∈ c.hood.ids →
          (c.run (Layout.Call.cacheAfter cache calls)).1.positions.get? id = some ⟨p, true⟩)) ∧
    (∀ (settings : Settings) (events : List View.Event) (event : View.Event) (id : SectorId)
      (p : Position), ((View.start settings).run events).cache.get? id = some p →
        (((View.start settings).run events).after event).cache.get? id = some p ∨
        event = .reset ∨
        (event = .refine ∧ ∃ q,
          Command.reposition id ⟨q, false⟩ ∈ ((View.start settings).run events).told event ∧
          (((View.start settings).run events).after event).cache.get? id = some q)) ∧
    (∀ (settings : Settings) (events : List View.Event),
      let w := (Remembered.start settings).run events
      w.view = (View.start settings).run events ∧
      ∀ (map : SectorMap) (focus : SectorId) (answer : Layout.Request → Layout.Answer)
        (id : SectorId) (p : Position), w.shown.get? id = some p →
          (w.view.render map focus answer).1.outcome.isComplete = true →
          id ∈ (w.view.hood map focus).ids →
            (w.view.render map focus answer).2.rendered.get? id = some p) := by
  refine ⟨?_, ?_, ?_⟩
  · intro cache id p h calls c
    have hcached := Layout.Call.cacheAfter_of_cached h calls
    refine ⟨hcached, Layout.Pass.not_mem_placed_run hcached, ?_⟩
    intro hid
    exact Layout.Pass.positions_run_of_cached hid hcached
  · intro settings events event id p h
    exact View.cache_after_cases h event
  · intro settings events w
    have h : w.Faithful := (Remembered.faithful_start settings).run events
    refine ⟨Remembered.view_run _ events, ?_⟩
    intro map focus answer id p hshown hcomplete hid
    exact h.rendered_of_shown hshown hcomplete hid

/-! ## A sector that returns -/

namespace Remembered

/-- The line 1, 2, 3, 4. -/
def line : SectorMap := IdMap.ofList
  [(1, { adjacent := [2] }), (2, { adjacent := [1, 3] }), (3, { adjacent := [2, 4] }),
   (4, { adjacent := [3] })]

/-- The line with a sector 5 discovered next to 2. -/
def longerLine : SectorMap := line.insertAll [(2, { adjacent := [5, 1, 3] }), (5, {})]

/-- Two sectors at a time are displayed: first 1 and 2, and then 4 and 3. -/
def leaving : Remembered := (start { limits := ⟨2, 3⟩ }).run
  [.render line 1 fun _ => .ok ⟨IdMap.ofList [(1, ⟨0, 0⟩), (2, ⟨1, 0⟩)], 0⟩,
   .render line 4 fun _ => .ok ⟨IdMap.ofList [(3, ⟨2, 0⟩), (4, ⟨3, 0⟩)], 0⟩]

/-- An answer for 2 and a new neighbour 5: it echoes the zero of 2 with the other sign, and it has a
position for 1 that nobody asked for. -/
def stray : Layout.Solution := ⟨IdMap.ofList [(1, ⟨7, 7⟩), (2, ⟨1, -0.0⟩), (5, ⟨4, 4⟩)], 0⟩

/-- Sector 2 returns to where it was. -/
theorem returns_in_place :
    leaving.view.displayedIds.keys = [3, 4] ∧
    leaving.shown.get? 2 = some ⟨1, 0⟩ ∧
    (leaving.view.render longerLine 2 fun _ => .ok stray).1.outcome.isComplete = true ∧
    2 ∈ (leaving.view.hood longerLine 2).ids ∧
    (leaving.view.render longerLine 2 fun _ => .ok stray).2.rendered.get? 2 = some ⟨1, 0⟩ :=
  ⟨by decide +kernel, by decide +kernel, by decide +kernel, by decide +kernel,
    (positions_stable.2.2 _ _).2 _ _ _ _ _ (by decide +kernel) (by decide +kernel)
      (by decide +kernel)⟩

end Remembered

end LaneChart
