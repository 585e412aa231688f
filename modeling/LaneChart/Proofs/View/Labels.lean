import LaneChart.Proofs.View.Display

/-!
# Labels on the surface

A displayed sector is labelled with its port. A complete render brings the style of every displayed
sector up to date, and the position where it changed; the label it sends to a sector that enters the
display, and to no other. So a label is as old as the visual that it is written on:

> `labels_current_iff`: a label is the port that its sector had when it entered the display, and the
> labels of a run are current at every moment exactly if no complete render finds a sector that is
> displayed already with another port than before.

Sectors are discovered next to where one is, and there they are displayed already, as stand-ins
without a port. That is how a label goes out of date in the ordinary course of things
(`label_goes_stale`).

`Labelled` runs the labels beside the view, as `Watched` does the visuals.
-/

namespace LaneChart

/-! ## What commands write -/

/-- What is written on the visuals of a surface: the port of the sector, if it has one. -/
abbrev Labels := IdMap (Option String)

namespace Labels

/-- The labels after a command. -/
def apply (s : Labels) : Command → Labels
  | .add id _ _ label => s.insert id label
  | .remove id => s.erase id
  | .reposition _ _ => s
  | .restyle _ _ => s

/-- The labels after some commands. -/
def applyAll (s : Labels) (cs : List Command) : Labels := cs.foldl apply s

theorem applyAll_append (s : Labels) (cs ds : List Command) :
    applyAll s (cs ++ ds) = applyAll (applyAll s cs) ds := List.foldl_append

theorem get?_removals (s : Labels) (ids : List SectorId) (j : SectorId) :
    (applyAll s (ids.map .remove)).get? j = if j ∈ ids then none else s.get? j := by
  unfold applyAll
  rw [List.foldl_map]
  exact s.get?_foldl_erase ids j

theorem applyAll_moves (s : Labels) (moves : List (SectorId × Position)) :
    applyAll s (moves.map fun e => .reposition e.1 ⟨e.2, false⟩) = s := by
  induction moves with
  | nil => rfl
  | cons a moves ih => exact ih

section Frame

variable {v : View} {map : SectorMap} {focus : SectorId} {answer : Layout.Request → Layout.Answer}

/-- The block of a displayed sector writes its port if it enters the display, and nothing
otherwise. -/
theorem get?_block (hcomplete : (v.pass map focus answer).1.isComplete = true) {x : Shown}
    (hx : x.id ∈ (v.hood map focus).ids) (s : Labels) (j : SectorId) :
    (applyAll s (v.block map focus answer x)).get? j =
      if j = x.id then (if v.displayedIds.contains x.id then s.get? x.id else some x.port)
      else s.get? j := by
  obtain ⟨p, -, hposition⟩ := v.exists_position_pass map focus answer hcomplete hx
  have hadded := v.contains_added_pass map focus answer hx
  unfold View.block Command.forSector
  rw [hposition]
  simp only [hadded]
  cases hdisplayed : v.displayedIds.contains x.id with
  | false => exact IdMap.get?_insert s x.id x.port j
  | true =>
    have hsame : s.get? j = if j = x.id then s.get? x.id else s.get? j := by
      by_cases hj : j = x.id
      · rw [if_pos hj, hj]
      · rw [if_neg hj]
    simp only [Bool.not_true, Bool.false_eq_true, if_false, if_true]
    split
    · exact hsame
    · exact hsame

theorem get?_blocks (hcomplete : (v.pass map focus answer).1.isComplete = true) {xs : List Shown}
    (hxs : ∀ x ∈ xs, x.id ∈ (v.hood map focus).ids) (hnodup : (xs.map (·.id)).Nodup)
    (s : Labels) :
    (∀ x ∈ xs, (applyAll s (xs.flatMap (v.block map focus answer))).get? x.id =
      if v.displayedIds.contains x.id then s.get? x.id else some x.port) ∧
    ∀ j, j ∉ xs.map (·.id) →
      (applyAll s (xs.flatMap (v.block map focus answer))).get? j = s.get? j := by
  induction xs generalizing s with
  | nil => exact ⟨fun x hx => absurd hx List.not_mem_nil, fun j _ => rfl⟩
  | cons a xs ih =>
    obtain ⟨ha, hrest⟩ : a.id ∉ xs.map (·.id) ∧ (xs.map (·.id)).Nodup :=
      List.nodup_cons.1 hnodup
    have hblock := get?_block hcomplete (hxs a (List.mem_cons_self ..)) s
    obtain ⟨hwritten, hothers⟩ := ih (fun x hx => hxs x (List.mem_cons_of_mem _ hx)) hrest
      (applyAll s (v.block map focus answer a))
    rw [List.flatMap_cons, applyAll_append]
    refine ⟨?_, ?_⟩
    · intro x hx
      rcases List.mem_cons.1 hx with rfl | hx
      · rw [hothers x.id ha, hblock, if_pos rfl]
      · have hne : x.id ≠ a.id := by
          intro he
          exact ha (he ▸ List.mem_map_of_mem hx)
        rw [hwritten x hx, hblock, if_neg hne]
    · intro j hj
      rw [List.map_cons, List.mem_cons, not_or] at hj
      rw [hothers j hj.2, hblock, if_neg hj.1]

/-- **What a complete render writes**: the ports of the sectors that enter the display. What stays
keeps its label, and what leaves loses it. -/
theorem get?_frame (hcomplete : (v.pass map focus answer).1.isComplete = true) {s : Labels}
    (hs : ∀ id, s.contains id = v.displayedIds.contains id) :
    (∀ x ∈ (v.hood map focus).sectors,
      (applyAll s (Command.ofOutcome v.rendered (v.hood map focus)
        (v.pass map focus answer).1)).get? x.id =
        if v.displayedIds.contains x.id then s.get? x.id else some x.port) ∧
    ∀ id, id ∉ (v.hood map focus).ids →
      (applyAll s (Command.ofOutcome v.rendered (v.hood map focus)
        (v.pass map focus answer).1)).get? id = none := by
  have hmem : ∀ x ∈ (v.hood map focus).sectors, x.id ∈ (v.hood map focus).ids := by
    intro x hx
    exact List.mem_map_of_mem hx
  rw [View.ofOutcome_pass, applyAll_append]
  obtain ⟨hwritten, hothers⟩ := get?_blocks hcomplete hmem (v.nodup_ids_hood map focus)
    (applyAll s ((Layout.Pass.removed v.displayedIds (v.hood map focus)).map .remove))
  refine ⟨?_, ?_⟩
  · intro x hx
    have hkept : x.id ∉ Layout.Pass.removed v.displayedIds (v.hood map focus) := by
      intro hremoved
      exact ((v.mem_removed_iff map focus x.id).1 hremoved).2 (hmem x hx)
    rw [hwritten x hx, get?_removals, if_neg hkept]
  · intro id hid
    rw [hothers id hid, get?_removals]
    by_cases hdisplayed : v.displayedIds.contains id = true
    · rw [if_pos ((v.mem_removed_iff map focus id).2 ⟨hdisplayed, hid⟩)]
    · -- it was not displayed before either
      rw [← hs, Bool.not_eq_true, IdMap.contains_eq_false_iff] at hdisplayed
      rw [hdisplayed, ite_self]

end Frame

end Labels

/-! ## When a label goes out of date -/

namespace View

variable {v : View}

/-- A complete render keeps the ports of the sectors that stay on the display. -/
def KeepsPorts (v : View) : Event → Prop
  | .render map focus answer =>
    (v.render map focus answer).1.outcome.isComplete = true →
      ∀ n, v.displayed = some n → ∀ x ∈ n.sectors, ∀ y ∈ (v.hood map focus).sectors,
        y.id = x.id → y.port = x.port
  | .refine => True
  | .tap _ => True
  | .reset => True

/-- Every displayed sector has the port that is listed for it. -/
def HasPorts (port : SectorId → Option String) (v : View) : Prop :=
  ∀ n, v.displayed = some n → ∀ x ∈ n.sectors, x.port = port x.id

theorem Consistent.contains_displayedIds_iff (h : v.Consistent) (id : SectorId) :
    v.displayedIds.contains id = true ↔
      ∃ n, v.displayed = some n ∧ ∃ x ∈ n.sectors, x.id = id := by
  rw [h.ids]
  cases v.displayed with
  | none => simp
  | some n =>
    rw [Option.map_some, Option.getD_some, Neighborhood.contains_idSet, Neighborhood.ids,
      List.mem_map]
    simp only [Option.some.injEq, exists_eq_left']

theorem displayed_refine (v : View) : v.refine.2.displayed = v.displayed := by
  rcases v.refine_cases with heq | ⟨n, -, heq⟩
  · rw [heq]
  · rw [heq]

/-- While the maps list the same ports, every render keeps the ports. -/
theorem throughout_keepsPorts {port : SectorId → Option String} (h : v.HasPorts port)
    {events : List Event}
    (hmaps : ∀ map focus answer, Event.render map focus answer ∈ events →
      ∀ id, (map.get? id).bind (·.port) = port id) : v.Throughout KeepsPorts events := by
  induction events generalizing v with
  | nil => trivial
  | cons event rest ih =>
    have hrest : (v.after event).HasPorts port → (v.after event).Throughout KeepsPorts rest := by
      intro hafter
      exact ih hafter fun map focus answer hmem => hmaps map focus answer
        (List.mem_cons_of_mem _ hmem)
    cases event with
    | render map focus answer =>
      have hports : ∀ y ∈ (v.hood map focus).sectors, y.port = port y.id := by
        intro y hy
        rw [← hmaps map focus answer (List.mem_cons_self ..)]
        exact Neighborhood.port_of_mem_extract hy
      refine ⟨?_, hrest ?_⟩
      · intro _ n hn x hx y hy hid
        rw [hports y hy, h n hn x hx, hid]
      · show (v.render map focus answer).2.HasPorts port
        rcases v.render_cases map focus answer with ⟨-, heq⟩ | ⟨-, heq⟩
        · rw [heq]
          intro n hn
          obtain rfl : v.hood map focus = n := Option.some.inj hn
          exact hports
        · rw [heq]
          exact h
    | refine =>
      refine ⟨trivial, hrest ?_⟩
      intro n hn
      exact h n (v.displayed_refine ▸ hn)
    | tap id => exact ⟨trivial, hrest h⟩
    | reset => exact ⟨trivial, hrest fun n hn => absurd hn (by simp [after, reset])⟩

end View

/-! ## The labels beside the view -/

/-- A view, and the labels that its commands have written. -/
structure Labelled where
  view : View
  labels : Labels

namespace Labelled

/-- A view that shows nothing yet, and no labels. -/
def start (settings : Settings) : Labelled := ⟨.start settings, IdMap.empty⟩

/-- The labels after an event: a reset clears the surface, and everything else is told in
commands. -/
def labelsAfter (w : Labelled) : View.Event → Labels
  | .reset => IdMap.empty
  | event => w.labels.applyAll (w.view.told event)

/-- One event. -/
def after (w : Labelled) (event : View.Event) : Labelled :=
  ⟨w.view.after event, w.labelsAfter event⟩

/-- Any number of events. -/
def run (w : Labelled) (events : List View.Event) : Labelled := events.foldl after w

theorem view_run (w : Labelled) (events : List View.Event) :
    (w.run events).view = w.view.run events :=
  View.run_of_foldl Labelled.view (fun _ _ => rfl) w events

/-- Whether every displayed sector is labelled with the port that it has in the neighbourhood on the
display. -/
def Current (w : Labelled) : Prop :=
  ∀ n, w.view.displayed = some n → ∀ x ∈ n.sectors, w.labels.get? x.id = some x.port

/-- The displayed sectors are labelled, and nothing else is. -/
structure Faithful (w : Labelled) : Prop where
  consistent : w.view.Consistent
  known : ∀ id, w.labels.contains id = w.view.displayedIds.contains id

theorem faithful_start (settings : Settings) : (start settings).Faithful :=
  ⟨View.consistent_start settings, fun _ => rfl⟩

theorem current_start (settings : Settings) : (start settings).Current :=
  fun _ hn => absurd hn (by simp [start, View.start])

theorem labels_refine (w : Labelled) : (w.after .refine).labels = w.labels := by
  show w.labels.applyAll (w.view.told .refine) = w.labels
  unfold View.told
  rcases w.view.refine_cases with heq | ⟨n, -, heq⟩
  · rw [heq]
    rfl
  · rw [heq]
    exact w.labels.applyAll_moves _

/-- A render displays its neighbourhood, or it changes nothing. -/
theorem after_render_cases (w : Labelled) (map : SectorMap) (focus : SectorId)
    (answer : Layout.Request → Layout.Answer) :
    ((w.view.render map focus answer).1.outcome.isComplete = true ∧
      (w.after (.render map focus answer)).view.displayed = some (w.view.hood map focus)) ∨
    ((w.view.render map focus answer).1.outcome.isComplete = false ∧
      w.after (.render map focus answer) = w) := by
  have hafter : w.after (.render map focus answer) = ⟨(w.view.render map focus answer).2,
      w.labels.applyAll (w.view.render map focus answer).1.commands⟩ := rfl
  rw [hafter]
  rcases w.view.render_cases map focus answer with ⟨hcomplete, heq⟩ | ⟨hskipped, heq⟩
  · rw [heq]
    exact .inl ⟨hcomplete, rfl⟩
  · rw [heq]
    exact .inr ⟨hskipped, rfl⟩

namespace Faithful

variable {w : Labelled} {map : SectorMap} {focus : SectorId}
  {answer : Layout.Request → Layout.Answer}

theorem render (h : w.Faithful) (map : SectorMap) (focus : SectorId)
    (answer : Layout.Request → Layout.Answer) : (w.after (.render map focus answer)).Faithful := by
  refine ⟨h.consistent.render map focus answer, ?_⟩
  intro id
  show (w.labels.applyAll (w.view.render map focus answer).1.commands).contains id =
    (w.view.render map focus answer).2.displayedIds.contains id
  rcases w.view.render_cases map focus answer with ⟨hcomplete, heq⟩ | ⟨-, heq⟩
  · rw [heq]
    show (w.labels.applyAll (Command.ofOutcome w.view.rendered (w.view.hood map focus)
      (w.view.pass map focus answer).1)).contains id = (w.view.hood map focus).idSet.contains id
    obtain ⟨hwritten, hnone⟩ := Labels.get?_frame hcomplete h.known
    by_cases hid : id ∈ (w.view.hood map focus).ids
    · obtain ⟨x, hx, rfl⟩ := List.mem_map.1 hid
      rw [(Neighborhood.contains_idSet _ _).2 hid, IdMap.contains_eq_isSome, hwritten x hx]
      cases hdisplayed : w.view.displayedIds.contains x.id with
      | false => rfl
      | true => exact (h.known x.id).trans hdisplayed
    · have hout : (w.view.hood map focus).idSet.contains id = false := by
        rw [← Bool.not_eq_true, Neighborhood.contains_idSet]
        exact hid
      rw [hout, IdMap.contains_eq_false_iff]
      exact hnone id hid
  · rw [heq]
    exact h.known id

theorem refine (h : w.Faithful) : (w.after .refine).Faithful := by
  refine ⟨h.consistent.refine, ?_⟩
  intro id
  rw [w.labels_refine, h.known]
  show w.view.displayedIds.contains id = w.view.refine.2.displayedIds.contains id
  rcases w.view.refine_cases with heq | ⟨n, -, heq⟩
  · rw [heq]
  · rw [heq]

theorem after (h : w.Faithful) : ∀ event, (w.after event).Faithful
  | .render map focus answer => h.render map focus answer
  | .refine => h.refine
  | .tap _ => h
  | .reset => faithful_start w.view.settings

theorem run (h : w.Faithful) (events : List View.Event) : (w.run events).Faithful :=
  List.foldlRecOn events Labelled.after h fun _ h event _ => h.after event

/-- After a complete render a sector has the label that it had, or its port if it has just entered
the display. -/
theorem get?_labels_render (h : w.Faithful)
    (hcomplete : (w.view.render map focus answer).1.outcome.isComplete = true) {x : Shown}
    (hx : x ∈ (w.view.hood map focus).sectors) :
    (w.after (.render map focus answer)).labels.get? x.id =
      if w.view.displayedIds.contains x.id then w.labels.get? x.id else some x.port := by
  show (w.labels.applyAll (w.view.render map focus answer).1.commands).get? x.id = _
  rcases w.view.render_cases map focus answer with ⟨hpass, heq⟩ | ⟨hskipped, heq⟩
  · rw [heq]
    exact (Labels.get?_frame hpass h.known).1 x hx
  · rw [heq] at hcomplete
    exact absurd (hskipped.symm.trans hcomplete) Bool.false_ne_true

/-- **Labels stay current through a render** exactly if it keeps the ports of what stays. -/
theorem current_render_iff (h : w.Faithful) (hcurrent : w.Current) (map : SectorMap)
    (focus : SectorId) (answer : Layout.Request → Layout.Answer) :
    (w.after (.render map focus answer)).Current ↔
      w.view.KeepsPorts (.render map focus answer) := by
  rcases w.after_render_cases map focus answer with ⟨hcomplete, hdisplayed⟩ | ⟨hskipped, hsame⟩
  · constructor
    · intro hafter _ n hn x hx y hy hid
      have hthere : w.view.displayedIds.contains y.id = true :=
        (h.consistent.contains_displayedIds_iff y.id).2 ⟨n, hn, x, hx, hid.symm⟩
      have hlabel := h.get?_labels_render hcomplete hy
      rw [hafter _ hdisplayed y hy, if_pos hthere, hid, hcurrent n hn x hx] at hlabel
      exact Option.some.inj hlabel
    · intro hkeeps n hn y hy
      obtain rfl : w.view.hood map focus = n := Option.some.inj (hdisplayed.symm.trans hn)
      rw [h.get?_labels_render hcomplete hy]
      split
      · next hthere =>
        obtain ⟨n, hn, x, hx, hid⟩ := (h.consistent.contains_displayedIds_iff y.id).1 hthere
        rw [← hid, hcurrent n hn x hx, hkeeps hcomplete n hn x hx y hy hid.symm]
      · rfl
  · -- nothing is displayed anew, and nothing is written
    rw [hsame]
    refine iff_of_true hcurrent ?_
    intro hcomplete
    exact absurd (hskipped.symm.trans hcomplete) Bool.false_ne_true

theorem current_after_iff (h : w.Faithful) (hcurrent : w.Current) : ∀ event,
    (w.after event).Current ↔ w.view.KeepsPorts event
  | .render map focus answer => h.current_render_iff hcurrent map focus answer
  | .refine => by
    refine iff_of_true ?_ trivial
    intro n hn x hx
    rw [w.labels_refine]
    exact hcurrent n (w.view.displayed_refine ▸ hn) x hx
  | .tap _ => iff_of_true hcurrent trivial
  | .reset => iff_of_true (current_start w.view.settings) trivial

end Faithful

/-- **When labels are current.** Exactly the displayed sectors are labelled. After a complete render
a sector that entered the display is labelled with its port, which is that of its record in the map,
and one that stayed has the label that it had. So in a run the labels are current at every moment
exactly if every complete render keeps the ports of the sectors that stay; and in particular while
all maps list the same ports. -/
theorem labels_current_iff (settings : Settings) (events : List View.Event) :
    let w := (start settings).run events
    w.view = (View.start settings).run events ∧
    w.labels.keys = w.view.displayedIds.keys ∧
    (∀ map focus answer, (w.view.render map focus answer).1.outcome.isComplete = true →
      ∀ x ∈ (w.view.hood map focus).sectors, x.port = (map.get? x.id).bind (·.port) ∧
        (w.after (.render map focus answer)).labels.get? x.id =
          if w.view.displayedIds.contains x.id then w.labels.get? x.id else some x.port) ∧
    ((∀ k, ((start settings).run (events.take k)).Current) ↔
      (View.start settings).Throughout View.KeepsPorts events) ∧
    ∀ port : SectorId → Option String,
      (∀ map focus answer, View.Event.render map focus answer ∈ events →
        ∀ id, (map.get? id).bind (·.port) = port id) →
      ∀ k, ((start settings).run (events.take k)).Current := by
  intro w
  have h : w.Faithful := (faithful_start settings).run events
  have hiff : (∀ k, ((start settings).run (events.take k)).Current) ↔
      (View.start settings).Throughout View.KeepsPorts events :=
    View.forall_take_iff (I := Faithful) (P := Current) view after (fun _ _ => rfl)
      (fun _ event h => h.after event)
      (fun _ event h hcurrent => h.current_after_iff hcurrent event)
      (faithful_start settings) (current_start settings) events
  refine ⟨view_run _ events, IdMap.keys_eq_of_contains h.known, ?_, hiff, ?_⟩
  · intro map focus answer hcomplete x hx
    exact ⟨Neighborhood.port_of_mem_extract hx, h.get?_labels_render hcomplete hx⟩
  · intro port hmaps
    have hnothing : (View.start settings).HasPorts port :=
      fun _ hn => absurd hn (by simp [View.start])
    exact hiff.2 (View.throughout_keepsPorts hnothing hmaps)

/-! ## A port that is discovered -/

/-- Sector 1, from where there is a lane to a sector that is not discovered yet. -/
def harbour : SectorMap := IdMap.ofList [(1, { adjacent := [2], visited := true })]

/-- The same map after the sector was visited. -/
def chartedHarbour : SectorMap :=
  harbour.insert 2 { adjacent := [1], visited := true, port := some "SSB" }

/-- A provider with a place for either sector. -/
def moor : Layout.Request → Layout.Answer :=
  fun _ => .ok ⟨IdMap.ofList [(1, ⟨0, 0⟩), (2, ⟨1, 0⟩)], 0⟩

/-- When the sector is discovered before it is displayed, then its port is on the surface, and its
label stays current for as long as the map is the same. -/
theorem label_of_charted :
    ((start {}).view.render chartedHarbour 1 moor).1.outcome.isComplete = true ∧
    ((start {}).after (.render chartedHarbour 1 moor)).labels.get? 2 = some (some "SSB") ∧
    ∀ k, ((start {}).run ([.render chartedHarbour 1 moor, .refine,
      .render chartedHarbour 2 moor].take k)).Current := by
  have hcomplete : ((start {}).view.render chartedHarbour 1 moor).1.outcome.isComplete = true := by
    decide +kernel
  obtain ⟨-, -, hlabels, -, -⟩ := labels_current_iff {} []
  obtain ⟨-, -, -, -, hcurrent⟩ := labels_current_iff {}
    [.render chartedHarbour 1 moor, .refine, .render chartedHarbour 2 moor]
  refine ⟨hcomplete, ?_, ?_⟩
  · have hshown : { id := 2, adjacent := [1], visited := true, port := some "SSB" } ∈
        ((start {}).view.hood chartedHarbour 1).sectors := by decide +kernel
    exact (hlabels chartedHarbour 1 moor hcomplete _ hshown).2
  · refine hcurrent (fun id => (chartedHarbour.get? id).bind (·.port)) ?_
    intro map focus answer hmem id
    have hrender : map = chartedHarbour ∧ focus = 1 ∧ answer = moor ∨
        map = chartedHarbour ∧ focus = 2 ∧ answer = moor := by simpa using hmem
    rcases hrender with ⟨rfl, -⟩ | ⟨rfl, -⟩
    · rfl
    · rfl

/-- Both sectors are displayed, the second one as a stand-in. -/
def moored : Labelled := (start {}).run [.render harbour 1 moor]

/-- **A label goes stale.** When the sector is displayed before it is discovered, then the complete
render that shows it as a port leaves it without a label. -/
theorem label_goes_stale :
    (moored.view.render chartedHarbour 1 moor).1.outcome.isComplete = true ∧
    (moored.view.render chartedHarbour 1 moor).1.commands =
      [.restyle 1 .center, .restyle 2 .visitedLeaf] ∧
    { id := 2, adjacent := [1], visited := true, port := some "SSB" } ∈
      (moored.view.render chartedHarbour 1 moor).1.neighborhood.sectors ∧
    (moored.after (.render chartedHarbour 1 moor)).labels.get? 2 = some none ∧
    ¬ (moored.after (.render chartedHarbour 1 moor)).Current := by
  have hlabel : (moored.after (.render chartedHarbour 1 moor)).labels.get? 2 = some none := by
    decide +kernel
  have hdisplayed : (moored.after (.render chartedHarbour 1 moor)).view.displayed =
      some (moored.view.render chartedHarbour 1 moor).1.neighborhood := by decide +kernel
  have hshown : { id := 2, adjacent := [1], visited := true, port := some "SSB" } ∈
      (moored.view.render chartedHarbour 1 moor).1.neighborhood.sectors := by decide +kernel
  refine ⟨by decide +kernel, by decide +kernel, hshown, hlabel, ?_⟩
  intro hcurrent
  have hwritten := hcurrent _ hdisplayed _ hshown
  exact absurd (hlabel.symm.trans hwritten) (by simp)

end Labelled

end LaneChart
