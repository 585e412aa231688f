import LaneChart.View.Basic
import LaneChart.Proofs.Crossing.Replay
import LaneChart.Proofs.Layout.Pass
import LaneChart.Proofs.Neighborhood.Frontier

/-!
# Runs of a view

A view lives through events: renders, each with a map, a focus and a provider of its own, searches
for fewer crossings, taps, and resets, in any order. `View.after` is one of them and `View.run`
any number.

Two statements open `render` and `refine` once and for all (`render_cases`, `refine_cases`), so no
later proof needs to look inside. From them:

> `consistent_run`: in every state of a run the surface was given a position for exactly the
> displayed sectors, and it is the one in the cache, bit for bit.
-/

namespace LaneChart.View

/-! ## Events -/

/-- What can happen to a view. The provider of a render may answer anything. -/
inductive Event where
  | render (map : SectorMap) (focus : SectorId) (answer : Layout.Request → Layout.Answer)
  | refine
  | tap (id : SectorId)
  | reset

/-- The view after an event. -/
def after (v : View) : Event → View
  | .render map focus answer => (v.render map focus answer).2
  | .refine => v.refine.2
  | .tap _ => v
  | .reset => v.reset

/-- What an event tells the rendering surface. -/
def told (v : View) : Event → List Command
  | .render map focus answer => (v.render map focus answer).1.commands
  | .refine => (v.refine.1.map (·.commands)).getD []
  | .tap _ => []
  | .reset => []

/-- The view after some events. -/
def run (v : View) (events : List Event) : View := events.foldl after v

/-- A view that shows nothing yet. -/
def start (settings : Settings) : View := { settings }

/-- Every new view shows nothing yet, and its settings can be used. -/
theorem new_eq_ok_iff {settings : Settings} {v : View} :
    new settings = .ok v ↔ settings.validate = .ok () ∧ v = start settings := by
  unfold new
  cases settings.validate with
  | ok u => exact ⟨fun h => ⟨rfl, (Except.ok.inj h).symm⟩, fun ⟨_, hv⟩ => congrArg _ hv.symm⟩
  | error failure => simp

/-- Whatever is run beside a view leaves the view its run. -/
theorem run_of_foldl {σ : Type} (view : σ → View) {step : σ → Event → σ}
    (hstep : ∀ s event, view (step s event) = (view s).after event) (s : σ)
    (events : List Event) : view (events.foldl step s) = (view s).run events := by
  induction events generalizing s with
  | nil => rfl
  | cons event rest ih =>
    rw [List.foldl_cons, ih, hstep]
    rfl

/-- Whether every event of a run meets a condition, in the state that it finds. -/
def Throughout (Q : View → Event → Prop) (v : View) : List Event → Prop
  | [] => True
  | event :: rest => Q v event ∧ (v.after event).Throughout Q rest

/-- When an event keeps `P` under one condition exactly, then a run that starts with `P` has it at
every moment exactly if the condition is met throughout. -/
theorem forall_take_iff {σ : Type} (view : σ → View) (step : σ → Event → σ) {I P : σ → Prop}
    {Q : View → Event → Prop} (hview : ∀ s event, view (step s event) = (view s).after event)
    (hI : ∀ s event, I s → I (step s event))
    (hstep : ∀ s event, I s → P s → (P (step s event) ↔ Q (view s) event)) {s : σ} (hi : I s)
    (hp : P s) (events : List Event) :
    (∀ k, P ((events.take k).foldl step s)) ↔ (view s).Throughout Q events := by
  induction events generalizing s with
  | nil =>
    have hstays : ∀ k, P ((([] : List Event).take k).foldl step s) := by
      intro k
      rw [List.take_nil]
      exact hp
    exact iff_of_true hstays trivial
  | cons event rest ih =>
    unfold Throughout
    rw [← hstep s event hi hp, ← hview]
    constructor
    · intro hall
      have hafter : P (step s event) := hall 1
      exact ⟨hafter, (ih (hI s event hi) hafter).1 fun k => hall (k + 1)⟩
    · rintro ⟨hafter, hrest⟩ k
      cases k with
      | zero => exact hp
      | succ k => exact (ih (hI s event hi) hafter).2 hrest k

/-! ## Renders -/

section Render

variable (v : View) (map : SectorMap) (focus : SectorId) (answer : Layout.Request → Layout.Answer)

theorem nodup_ids_hood : (v.hood map focus).ids.Nodup :=
  Neighborhood.nodup_ids_extract map focus v.settings.limits

/-- The layout pass of a render. -/
def pass : Layout.Outcome × Placement :=
  Layout.Pass.run v.cache (v.hood map focus) v.displayedIds answer

/-- **A render** shows what its pass came to, or leaves the view as it was and says nothing. -/
theorem render_cases :
    ((v.pass map focus answer).1.isComplete = true ∧ v.render map focus answer =
      (⟨v.hood map focus, (v.pass map focus answer).1,
        Command.ofOutcome v.rendered (v.hood map focus) (v.pass map focus answer).1⟩,
      { v with
        cache := (v.pass map focus answer).2
        displayed := some (v.hood map focus)
        displayedIds := (v.hood map focus).idSet
        rendered := (v.pass map focus answer).1.positions.mapValues fun _ p => p.position })) ∨
    ((v.pass map focus answer).1.isComplete = false ∧ v.render map focus answer =
      (⟨v.hood map focus, (v.pass map focus answer).1, []⟩, v)) := by
  unfold render
  simp only
  split
  · next h => exact .inl ⟨h, rfl⟩
  · next h =>
    rw [Bool.not_eq_true] at h
    refine .inr ⟨h, ?_⟩
    have hcache : (v.pass map focus answer).2 = v.cache := Layout.Pass.cache_run_of_skipped h
    show (_, { v with cache := (v.pass map focus answer).2 }) = (_, v)
    rw [hcache]
    rfl

/-- The positions that a complete render gives the surface are those of the displayed sectors in the
cache after it. -/
theorem get?_positions_pass (id : SectorId) :
    ((v.pass map focus answer).1.positions.mapValues fun _ p => p.position).get? id =
      if (v.hood map focus).idSet.contains id then (v.pass map focus answer).2.get? id
      else none := by
  rw [IdMap.get?_mapValues, pass, Layout.Pass.positions_run]
  simp only [Neighborhood.contains_idSet]
  by_cases hid : id ∈ (v.hood map focus).ids
  · rw [if_pos hid, if_pos hid, Option.map_map]
    exact Option.map_id'
  · rw [if_neg hid, if_neg hid, Option.map_none]

end Render

/-! ## Refinements -/

/-- What a refinement of a displayed neighbourhood finds. -/
def search (v : View) (n : Neighborhood) : Crossing.Refinement :=
  Crossing.refine v.rendered n.lanes v.settings.minimizer

/-- **A refinement** moves what its search moved, on the surface and in the cache; with nothing
displayed it does nothing. -/
theorem refine_cases (v : View) :
    v.refine = (none, v) ∨
    ∃ n, v.displayed = some n ∧ v.refine =
      (some
        { report := (v.search n).report
          commands := (v.search n).moved.entries.map fun e => .reposition e.1 ⟨e.2, false⟩ },
        { v with
          rendered := v.rendered.extend (v.search n).moved
          cache := v.cache.extend (v.search n).moved }) := by
  unfold refine
  split
  · exact .inl rfl
  · next n hdisplayed =>
    split
    · exact .inl rfl
    · exact .inr ⟨n, hdisplayed, rfl⟩

/-! ## What holds in every state -/

/-- The surface was given a position for exactly the displayed sectors, and it is the one in the
cache. -/
structure Consistent (v : View) : Prop where
  ids : v.displayedIds = (v.displayed.map Neighborhood.idSet).getD IdMap.empty
  cached : ∀ id, v.displayedIds.contains id = true → v.cache.contains id = true
  rendered : ∀ id, v.rendered.get? id =
    if v.displayedIds.contains id then v.cache.get? id else none

theorem consistent_start (settings : Settings) : (start settings).Consistent where
  ids := rfl
  cached id h := absurd h (by simp [start])
  rendered id := by simp [start]

namespace Consistent

variable {v : View}

theorem contains_rendered (h : v.Consistent) (id : SectorId) :
    v.rendered.contains id = v.displayedIds.contains id := by
  rw [IdMap.contains_eq_isSome, h.rendered]
  cases hid : v.displayedIds.contains id with
  | false => rfl
  | true => exact h.cached id hid

theorem rendered_eq_cache (h : v.Consistent) {id : SectorId} {p : Position}
    (hp : v.rendered.get? id = some p) : v.cache.get? id = some p := by
  rw [h.rendered] at hp
  split at hp
  · exact hp
  · exact absurd hp (by simp)

theorem render (h : v.Consistent) (map : SectorMap) (focus : SectorId)
    (answer : Layout.Request → Layout.Answer) : (v.render map focus answer).2.Consistent := by
  rcases v.render_cases map focus answer with ⟨hcomplete, heq⟩ | ⟨-, heq⟩
  · rw [heq]
    refine ⟨rfl, ?_, v.get?_positions_pass map focus answer⟩
    intro id hid
    exact Layout.Pass.contains_cache_run hcomplete ((Neighborhood.contains_idSet _ _).1 hid)
  · rw [heq]
    exact h

/-- A displayed sector is where it was shown, in the cache and in what a pass makes of it. -/
theorem stays (h : v.Consistent) {id : SectorId} (hid : v.displayedIds.contains id = true)
    (map : SectorMap) (focus : SectorId) (answer : Layout.Request → Layout.Answer) :
    ∃ p, v.rendered.get? id = some p ∧ v.cache.get? id = some p ∧
      (v.pass map focus answer).2.get? id = some p := by
  obtain ⟨p, hp⟩ := (IdMap.contains_eq_true_iff _ _).1 (h.cached id hid)
  refine ⟨p, ?_, hp, Layout.Pass.cache_run_of_cached hp⟩
  rw [h.rendered, if_pos hid, hp]

theorem displayed_of_moved (h : v.Consistent) {n : Neighborhood} {id : SectorId} {p : Position}
    (hp : (v.search n).moved.get? id = some p) : v.displayedIds.contains id = true := by
  rw [← h.contains_rendered]
  exact Crossing.contains_of_moved _ _ _ ((IdMap.contains_eq_true_iff _ _).2 ⟨p, hp⟩)

theorem refine (h : v.Consistent) : v.refine.2.Consistent := by
  rcases v.refine_cases with heq | ⟨n, hdisplayed, heq⟩
  · rw [heq]
    exact h
  · rw [heq]
    refine ⟨h.ids, ?_, ?_⟩
    · intro id hid
      show (v.cache.extend (v.search n).moved).contains id = true
      obtain ⟨p, hp⟩ := (IdMap.contains_eq_true_iff _ _).1 (h.cached id hid)
      rw [IdMap.contains_eq_isSome, IdMap.get?_extend, hp, Option.isSome_or, Option.isSome_some,
        Bool.or_true]
    · intro id
      show (v.rendered.extend (v.search n).moved).get? id =
        if v.displayedIds.contains id then (v.cache.extend (v.search n).moved).get? id else none
      rw [IdMap.get?_extend, IdMap.get?_extend, h.rendered]
      cases hmoved : (v.search n).moved.get? id with
      | some p => rw [Option.some_or, Option.some_or, if_pos (h.displayed_of_moved hmoved)]
      | none => rw [Option.none_or, Option.none_or]

theorem after (h : v.Consistent) : ∀ event, (v.after event).Consistent
  | .render map focus answer => h.render map focus answer
  | .refine => h.refine
  | .tap _ => h
  | .reset => consistent_start v.settings

end Consistent

/-- **Every state of a run is consistent**, whatever the providers answer. -/
theorem consistent_run (settings : Settings) (events : List Event) :
    ((start settings).run events).Consistent :=
  List.foldlRecOn events after (consistent_start settings) fun _ h event _ => h.after event

end LaneChart.View
