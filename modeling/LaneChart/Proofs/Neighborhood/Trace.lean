import LaneChart.Proofs.Neighborhood.Search

/-!
# The search as a list of references

The queue of the search may hold an id many times, ids that are recorded already and ids that are
not in the map, so it is no list of sectors to come. It is a list of *references*: each entry stands
for one place in the lanes of one recorded sector, and the entries come in the order of these
places. `Trace` makes the places explicit. Its invariant is one ascending list, the references that
recorded a sector followed by those that wait, together with the fact that every reference to a
sector that is still to be recorded waits (`pending`). Two things follow for the entry at the front,
if its sector is to be recorded:

> `Trace.first_waiting`: it is the first reference to the sector.
> `Trace.isDistance_waiting`: it has the distance of the sector, the length of the shortest route.

The second rests on `Trace.exists_waiting`: a route to a sector that is not recorded leaves the
recorded ones somewhere, and the reference by which it leaves them waits. `Trace.step` puts the two
together, one step at a time.
-/

namespace LaneChart

/-! ## Distances -/

/-- A route of so many lanes leads from the center to a sector, through sectors of the map. -/
inductive Route (map : SectorMap) (center : SectorId) : Nat → SectorId → Prop where
  | here (hcenter : map.contains center = true) : Route map center 0 center
  | lane {d : Nat} {p q : SectorId} {sector : Sector} (hp : Route map center d p)
      (hsector : map.get? p = some sector) (hq : q ∈ sector.adjacent)
      (hmap : map.contains q = true) : Route map center (d + 1) q

/-- The length of the shortest route to a sector. -/
structure IsDistance (map : SectorMap) (center id : SectorId) (d : Nat) : Prop where
  route : Route map center d id
  least : ∀ {e}, Route map center e id → d ≤ e

theorem IsDistance.unique {map : SectorMap} {center id : SectorId} {d e : Nat}
    (hd : IsDistance map center id d) (he : IsDistance map center id e) : d = e :=
  Nat.le_antisymm (hd.least he.route) (he.least hd.route)

/-! ## References -/

/-- A place in the lanes of a list of sectors: the number of the sector, and the place in its
adjacency. -/
structure Reference where
  parent : Nat
  place : Nat

/-- The order of references: by the sector, and within one sector by the place. -/
def Reference.Before (r t : Reference) : Prop :=
  r.parent < t.parent ∨ r.parent = t.parent ∧ r.place < t.place

/-- A reference to an id. -/
def RefersAt (sectors : List Shown) (id : SectorId) (r : Reference) : Prop :=
  ∃ s, sectors[r.parent]? = some s ∧ s.adjacent[r.place]? = some id

/-- The first reference to an id: its earliest listed parent, and its first place there. -/
structure FirstReference (sectors : List Shown) (id : SectorId) (r : Reference) : Prop where
  refers : RefersAt sectors id r
  first : ∀ {t}, RefersAt sectors id t → r = t ∨ r.Before t

namespace Search

variable {map : SectorMap} {limits : Limits} {center : SectorId} {s s' : Search}

/-! ## Queue entries and where they come from -/

/-- A queue entry together with the reference that put it there. -/
structure Traced where
  id : SectorId
  distance : Nat
  source : Reference

/-- The entry as the queue has it. -/
def Traced.entry (e : Traced) : SectorId × Nat := (e.id, e.distance)

/-- The references by which the sector with a number, recorded at a distance, adds to the queue. -/
def references (limits : Limits) (seen : IdSet) (sector : Sector) (distance number : Nat) :
    List Traced :=
  if distance < limits.maxHops.toNat then
    (sector.adjacent.zipIdx.filter fun e => !seen.contains e.1).map
      fun e => ⟨e.1, distance + 1, ⟨number, e.2⟩⟩
  else []

theorem map_entry_references (seen : IdSet) (sector : Sector) (distance number : Nat) :
    (references limits seen sector distance number).map Traced.entry =
      successors limits seen sector distance := by
  unfold references successors
  split
  · have hfst : sector.adjacent.filter (!seen.contains ·) =
        (sector.adjacent.zipIdx.filter fun e => !seen.contains e.1).map (·.1) :=
      (congrArg _ (List.zipIdx_map_fst 0 sector.adjacent).symm).trans List.filter_map
    rw [hfst, List.map_map, List.map_map]
    rfl
  · rfl

theorem mem_references {seen : IdSet} {sector : Sector} {distance number : Nat} {e : Traced} :
    e ∈ references limits seen sector distance number ↔
      distance < limits.maxHops.toNat ∧ e.distance = distance + 1 ∧ e.source.parent = number ∧
        sector.adjacent[e.source.place]? = some e.id ∧ seen.contains e.id = false := by
  unfold references
  split
  · next hnear =>
    simp only [List.mem_map, List.mem_filter, List.mem_zipIdx_iff_getElem?, Bool.not_eq_true']
    constructor
    · rintro ⟨x, ⟨hx, hseen⟩, rfl⟩
      exact ⟨hnear, rfl, rfl, hx, hseen⟩
    · rintro ⟨-, hd, hn, hx, hseen⟩
      refine ⟨(e.id, e.source.place), ⟨hx, hseen⟩, ?_⟩
      obtain ⟨id, d, ⟨i, k⟩⟩ := e
      simp only at hd hn
      rw [hd, hn]
  · next hfar =>
    constructor
    · intro h
      exact absurd h List.not_mem_nil
    · intro h
      exact absurd h.1 hfar

/-- A sector refers to its lanes in order. -/
theorem references_ordered (seen : IdSet) (sector : Sector) (distance number : Nat) :
    (references limits seen sector distance number).Pairwise
      fun a b => a.source.Before b.source := by
  unfold references
  split
  · rw [List.pairwise_map]
    apply List.Pairwise.filter
    rw [List.pairwise_iff_getElem]
    intro i j hi hj hij
    right
    refine ⟨rfl, ?_⟩
    simpa using hij
  · exact List.Pairwise.nil

/-! ## The trace of a search -/

/-- A reference by a recorded sector that is near enough to have its lanes queued. -/
def Sourced (limits : Limits) (s : Search) (e : Traced) : Prop :=
  ∃ p, s.found[e.source.parent]? = some p ∧ p.1.adjacent[e.source.place]? = some e.id ∧
    p.2 < limits.maxHops.toNat ∧ e.distance = p.2 + 1

/-- A search seen as the references it has followed: `taken` are those that recorded a sector, and
`waiting` are those in the queue. -/
structure Trace (map : SectorMap) (limits : Limits) (center : SectorId) (s : Search)
    (taken waiting : List Traced) : Prop where
  books : Books map limits s
  queue : s.queue = waiting.map Traced.entry
  found : s.found.map (fun e => (e.1.id, e.2)) = (center, 0) :: taken.map Traced.entry
  sourced : ∀ e ∈ taken ++ waiting, Sourced limits s e
  ordered : (taken ++ waiting).Pairwise fun a b => a.source.Before b.source
  first : ∀ e ∈ taken, ∀ r, RefersAt (s.found.map (·.1)) e.id r →
    e.source = r ∨ e.source.Before r
  pending : ∀ r p q, s.found[r.parent]? = some p → p.2 < limits.maxHops.toNat →
    p.1.adjacent[r.place]? = some q → map.contains q = true → q ∉ s.ids →
      ∃ e ∈ waiting, e.source = r
  sorted : s.found.Pairwise fun a b => a.2 ≤ b.2
  near : ∀ e ∈ s.found, e.2 ≤ limits.maxHops.toNat
  distance : ∀ e ∈ s.found, IsDistance map center e.1.id e.2

section

variable {taken waiting : List Traced}

theorem Trace.distance_le (h : Trace map limits center s taken waiting) {i j : Nat}
    {p q : Shown × Nat} (hp : s.found[i]? = some p) (hq : s.found[j]? = some q) (hij : i ≤ j) :
    p.2 ≤ q.2 := by
  rcases Nat.eq_or_lt_of_le hij with rfl | hlt
  · have hsame : p = q := Option.some.inj (hp.symm.trans hq)
    exact Nat.le_of_eq (congrArg Prod.snd hsame)
  · obtain ⟨hi, rfl⟩ := List.getElem?_eq_some_iff.1 hp
    obtain ⟨hj, rfl⟩ := List.getElem?_eq_some_iff.1 hq
    exact List.pairwise_iff_getElem.1 h.sorted i j hi hj hlt

/-- An earlier reference leads no farther than a later one. -/
theorem Trace.distance_le_of_before (h : Trace map limits center s taken waiting) {a b : Traced}
    (ha : Sourced limits s a) (hb : Sourced limits s b) (hab : a.source.Before b.source) :
    a.distance ≤ b.distance := by
  obtain ⟨p, hp, -, -, hpd⟩ := ha
  obtain ⟨q, hq, -, -, hqd⟩ := hb
  have hparent : a.source.parent ≤ b.source.parent := by
    unfold Reference.Before at hab
    omega
  have hpq := h.distance_le hp hq hparent
  omega

/-- A recorded sector is the center, or some reference recorded it. -/
theorem Trace.mem_found (h : Trace map limits center s taken waiting) {e : Shown × Nat}
    (he : e ∈ s.found) :
    e.1.id = center ∧ e.2 = 0 ∨ ∃ t ∈ taken, t.id = e.1.id ∧ t.distance = e.2 := by
  have hmem : (e.1.id, e.2) ∈ (center, 0) :: taken.map Traced.entry :=
    h.found ▸ List.mem_map.2 ⟨e, he, rfl⟩
  rcases List.mem_cons.1 hmem with heq | hmem
  · exact .inl ⟨congrArg Prod.fst heq, congrArg Prod.snd heq⟩
  · obtain ⟨t, ht, heq⟩ := List.mem_map.1 hmem
    exact .inr ⟨t, ht, congrArg Prod.fst heq, congrArg Prod.snd heq⟩

/-- No recorded sector is farther away than a reference that waits. -/
theorem Trace.found_le_waiting (h : Trace map limits center s taken waiting) {e : Shown × Nat}
    (he : e ∈ s.found) {w : Traced} (hw : w ∈ waiting) : e.2 ≤ w.distance := by
  rcases h.mem_found he with ⟨-, hzero⟩ | ⟨t, ht, -, hd⟩
  · omega
  · rw [← hd]
    exact h.distance_le_of_before (h.sourced t (List.mem_append_left _ ht))
      (h.sourced w (List.mem_append_right _ hw)) ((List.pairwise_append.1 h.ordered).2.2 t ht w hw)

/-- **Whatever is still to be recorded waits**: when a route within the greatest distance leads to
a sector that is not recorded, some reference waits that is no longer than the route. -/
theorem Trace.exists_waiting (h : Trace map limits center s taken waiting) {d : Nat}
    {q : SectorId} (hroute : Route map center d q) (hd : d ≤ limits.maxHops.toNat)
    (hq : q ∉ s.ids) : ∃ w ∈ waiting, w.distance ≤ d := by
  induction hroute with
  | here =>
    have hcenter : (center, 0) ∈ s.found.map (fun e => (e.1.id, e.2)) := by
      rw [h.found]
      exact List.mem_cons_self ..
    obtain ⟨e, he, heq⟩ := List.mem_map.1 hcenter
    exact absurd (List.mem_map.2 ⟨e, he, (Prod.mk.inj heq).1⟩) hq
  | @lane d p q sector hp hsector hadj hmap ih =>
    by_cases hpids : p ∈ s.ids
    · -- the sector before it is recorded, so its reference waits
      obtain ⟨e, he, rfl⟩ := List.mem_map.1 hpids
      obtain ⟨i, hi, hie⟩ := List.mem_iff_getElem.1 he
      have hei : s.found[i]? = some e := List.getElem?_eq_some_iff.2 ⟨hi, hie⟩
      obtain ⟨sector', hsector', hshown⟩ := h.books.recorded e he
      have hsame : sector' = sector := Option.some.inj (hsector'.symm.trans hsector)
      obtain ⟨k, hk, hkq⟩ := List.mem_iff_getElem.1 hadj
      have hplace : e.1.adjacent[k]? = some q := by
        rw [hshown, hsame]
        exact List.getElem?_eq_some_iff.2 ⟨hk, hkq⟩
      have hle : e.2 ≤ d := (h.distance e he).least hp
      obtain ⟨w, hw, hsource⟩ := h.pending ⟨i, k⟩ e q hei (by omega) hplace hmap hq
      obtain ⟨p', hp', -, -, hwd⟩ := h.sourced w (List.mem_append_right _ hw)
      rw [hsource, hei] at hp'
      rw [← Option.some.inj hp'] at hwd
      exact ⟨w, hw, by omega⟩
    · obtain ⟨w, hw, hle⟩ := ih (by omega) hpids
      exact ⟨w, hw, by omega⟩

/-! ## Every step keeps the trace -/

/-- Dropping an entry keeps the trace: nothing refers through it to a sector still to be
recorded. -/
theorem Trace.drop {w : Traced} (h : Trace map limits center s taken (w :: waiting))
    (hdrop : limits.maxHops.toNat < w.distance ∨ s.seen.contains w.id = true ∨
      map.contains w.id = false) :
    Trace map limits center { s with queue := waiting.map Traced.entry } taken waiting := by
  have hsub : (taken ++ waiting).Sublist (taken ++ w :: waiting) :=
    (List.sublist_cons_self w waiting).append_left taken
  refine
    { books := ⟨h.books.seen, h.books.distinct, h.books.recorded, h.books.room⟩
      queue := rfl
      found := h.found
      sourced := fun e he => h.sourced e (hsub.subset he)
      ordered := h.ordered.sublist hsub
      first := h.first
      pending := ?_
      sorted := h.sorted
      near := h.near
      distance := h.distance }
  intro r p q hp hnear hplace hmap hq
  obtain ⟨e, he, rfl⟩ := h.pending r p q hp hnear hplace hmap hq
  rcases List.mem_cons.1 he with rfl | he
  · -- the dropped entry would lead to a sector that is near, new and in the map
    exfalso
    obtain ⟨p', hp', hplace', -, hd⟩ :=
      h.sourced e (List.mem_append_right _ (List.mem_cons_self ..))
    have hpp : p' = p := Option.some.inj (hp'.symm.trans hp)
    rw [hpp] at hplace' hd
    have hid : e.id = q := Option.some.inj (hplace'.symm.trans hplace)
    rcases hdrop with hfar | hseen | hnone
    · omega
    · exact hq (hid ▸ (h.books.seen _).1 hseen)
    · rw [hid, hmap] at hnone
      exact Bool.noConfusion hnone
  · exact ⟨e, he, rfl⟩

theorem getElem?_found_record {id : SectorId} {sector : Sector} {distance : Nat}
    {rest : List (SectorId × Nat)} {i : Nat} {p : Shown × Nat} :
    (s.record limits id sector distance rest).found[i]? = some p ↔
      s.found[i]? = some p ∨ i = s.found.length ∧ p = (Shown.ofSector id sector, distance) := by
  show (s.found ++ [(Shown.ofSector id sector, distance)])[i]? = some p ↔ _
  rcases Nat.lt_trichotomy i s.found.length with hlt | heq | hgt
  · rw [List.getElem?_append_left hlt]
    exact ⟨.inl, fun h => h.resolve_right fun h => by omega⟩
  · subst heq
    simp [eq_comm]
  · rw [List.getElem?_eq_none (by simp; omega), List.getElem?_eq_none (by omega)]
    simp
    omega

/-- A reference among the recorded sectors, after one more is recorded, is an old one or one by the
new sector. -/
theorem refersAt_record {id j : SectorId} {sector : Sector} {distance : Nat}
    {rest : List (SectorId × Nat)} {r : Reference}
    (h : RefersAt ((s.record limits id sector distance rest).found.map (·.1)) j r) :
    RefersAt (s.found.map (·.1)) j r ∨ r.parent = s.found.length := by
  obtain ⟨x, hx, hplace⟩ := h
  rw [List.getElem?_map, Option.map_eq_some_iff] at hx
  obtain ⟨p, hp, rfl⟩ := hx
  rcases getElem?_found_record.1 hp with hold | ⟨hnew, -⟩
  · exact .inl ⟨p.1, by rw [List.getElem?_map, hold]; rfl, hplace⟩
  · exact .inr hnew

theorem Sourced.parent_lt {e : Traced} (h : Sourced limits s e) :
    e.source.parent < s.found.length := by
  obtain ⟨p, hp, -⟩ := h
  exact (List.getElem?_eq_some_iff.1 hp).1

theorem Sourced.record {e : Traced} (h : Sourced limits s e) (id : SectorId) (sector : Sector)
    (distance : Nat) (rest : List (SectorId × Nat)) :
    Sourced limits (s.record limits id sector distance rest) e := by
  obtain ⟨p, hp, hplace⟩ := h
  exact ⟨p, getElem?_found_record.2 (.inl hp), hplace⟩

/-- What a sector at the greatest distance refers to comes after all references that are queued. -/
theorem Trace.before_of_far (h : Trace map limits center s taken waiting) {t : Traced}
    (ht : Sourced limits s t) {r : Reference} {p : Shown × Nat}
    (hp : s.found[r.parent]? = some p) (hfar : limits.maxHops.toNat ≤ p.2) :
    t.source.Before r := by
  obtain ⟨q, hq, -, hqnear, -⟩ := ht
  left
  apply Nat.lt_of_not_le
  intro hle
  have hpq := h.distance_le hp hq hle
  omega

/-- The entry at the front of the queue, if its sector is to be recorded, is the first reference to
it: any other by a sector that is near enough waits behind it, and the others come later still. -/
theorem Trace.first_waiting {w : Traced} (h : Trace map limits center s taken (w :: waiting))
    (hmap : map.contains w.id = true) (hnew : w.id ∉ s.ids) {r : Reference}
    (hr : RefersAt (s.found.map (·.1)) w.id r) : w.source = r ∨ w.source.Before r := by
  obtain ⟨x, hx, hplace⟩ := hr
  rw [List.getElem?_map, Option.map_eq_some_iff] at hx
  obtain ⟨p, hp, rfl⟩ := hx
  have hbehind := (List.pairwise_cons.1 (List.pairwise_append.1 h.ordered).2.1).1
  rcases Nat.lt_or_ge p.2 limits.maxHops.toNat with hnear | hfar
  · obtain ⟨e, he, rfl⟩ := h.pending r p w.id hp hnear hplace hmap hnew
    rcases List.mem_cons.1 he with rfl | he
    · exact .inl rfl
    · exact .inr (hbehind e he)
  · have hsourced := h.sourced w (List.mem_append_right _ (List.mem_cons_self ..))
    exact .inr (h.before_of_far hsourced hp hfar)

/-- The entry at the front of the queue, if its sector is to be recorded, has the distance of it. -/
theorem Trace.isDistance_waiting {w : Traced}
    (h : Trace map limits center s taken (w :: waiting)) (hmap : map.contains w.id = true)
    (hnew : w.id ∉ s.ids) : IsDistance map center w.id w.distance := by
  have hw := h.sourced w (List.mem_append_right _ (List.mem_cons_self ..))
  obtain ⟨p, hp, hplace, hnear, hd⟩ := hw
  have hpmem : p ∈ s.found := List.mem_of_getElem? hp
  constructor
  · obtain ⟨sector, hsector, hshown⟩ := h.books.recorded p hpmem
    rw [hshown] at hplace
    rw [hd]
    exact .lane (h.distance p hpmem).route hsector (List.mem_of_getElem? hplace) hmap
  · intro e hroute
    -- a shorter route would have a shorter reference waiting in front
    rcases Nat.lt_or_ge e w.distance with hlt | hge
    · obtain ⟨x, hx, hxe⟩ := h.exists_waiting hroute (by omega) hnew
      have hwx : w.distance ≤ x.distance := by
        rcases List.mem_cons.1 hx with rfl | hx'
        · exact Nat.le_refl _
        · exact h.distance_le_of_before ⟨p, hp, hplace, hnear, hd⟩
            (h.sourced x (List.mem_append_right _ hx))
            ((List.pairwise_cons.1 (List.pairwise_append.1 h.ordered).2.1).1 x hx')
      omega
    · exact hge

theorem sourced_references {id : SectorId} {sector : Sector} {distance : Nat}
    {rest : List (SectorId × Nat)} {e : Traced}
    (he : e ∈ references limits (s.seen.insert id ()) sector distance s.found.length) :
    Sourced limits (s.record limits id sector distance rest) e := by
  obtain ⟨hnear, hd, hparent, hplace, -⟩ := mem_references.1 he
  exact ⟨_, getElem?_found_record.2 (.inr ⟨hparent, rfl⟩), hplace, hnear, hd⟩

section

variable {w : Traced} {sector : Sector} {rest : List (SectorId × Nat)}

/-- The old references, followed by those of the new sector: all are sourced by recorded ones. -/
theorem Trace.sourced_record (h : Trace map limits center s taken (w :: waiting)) {e : Traced}
    (he : e ∈ (taken ++ w :: waiting) ++
      references limits (s.seen.insert w.id ()) sector w.distance s.found.length) :
    Sourced limits (s.record limits w.id sector w.distance rest) e := by
  rcases List.mem_append.1 he with he | he
  · exact (h.sourced e he).record _ _ _ _
  · exact sourced_references he

theorem Trace.ordered_record (h : Trace map limits center s taken (w :: waiting)) :
    ((taken ++ w :: waiting) ++
      references limits (s.seen.insert w.id ()) sector w.distance s.found.length).Pairwise
        fun a b => a.source.Before b.source := by
  rw [List.pairwise_append]
  refine ⟨h.ordered, references_ordered _ _ _ _, ?_⟩
  intro a ha b hb
  left
  rw [(mem_references.1 hb).2.2.1]
  exact (h.sourced a ha).parent_lt

/-- The references that recorded a sector are still the first ones to it: the new sector comes after
all of them. -/
theorem Trace.first_record (h : Trace map limits center s taken (w :: waiting))
    (hmap : map.contains w.id = true) (hnew : w.id ∉ s.ids) {e : Traced}
    (he : e ∈ taken ++ [w]) {r : Reference}
    (hr : RefersAt ((s.record limits w.id sector w.distance rest).found.map (·.1)) e.id r) :
    e.source = r ∨ e.source.Before r := by
  have hsourced : Sourced limits s e := by
    apply h.sourced
    rw [List.append_cons]
    exact List.mem_append_left _ he
  rcases refersAt_record hr with hold | hparent
  · rcases List.mem_append.1 he with he | he
    · exact h.first e he r hold
    · rw [List.mem_singleton.1 he] at hold ⊢
      exact h.first_waiting hmap hnew hold
  · right
    left
    rw [hparent]
    exact hsourced.parent_lt

/-- What is still to be recorded waits as before, or the new sector refers to it. -/
theorem Trace.pending_record (h : Trace map limits center s taken (w :: waiting)) {r : Reference}
    {p : Shown × Nat} {q : SectorId}
    (hp : (s.record limits w.id sector w.distance rest).found[r.parent]? = some p)
    (hnear : p.2 < limits.maxHops.toNat) (hplace : p.1.adjacent[r.place]? = some q)
    (hmap : map.contains q = true)
    (hq : q ∉ (s.record limits w.id sector w.distance rest).ids) :
    ∃ e ∈ waiting ++ references limits (s.seen.insert w.id ()) sector w.distance s.found.length,
      e.source = r := by
  rw [ids_record, List.mem_append, not_or] at hq
  rcases getElem?_found_record.1 hp with hold | ⟨hparent, rfl⟩
  · obtain ⟨e, he, rfl⟩ := h.pending r p q hold hnear hplace hmap hq.1
    rcases List.mem_cons.1 he with rfl | he
    · -- the entry itself refers to its own sector, which is recorded now
      exfalso
      obtain ⟨p', hp', hplace', -⟩ :=
        h.sourced e (List.mem_append_right _ (List.mem_cons_self ..))
      rw [Option.some.inj (hp'.symm.trans hold)] at hplace'
      exact hq.2 (List.mem_singleton.2 (Option.some.inj (hplace.symm.trans hplace')))
    · exact ⟨e, List.mem_append_left _ he, rfl⟩
  · have hunseen : (s.seen.insert w.id ()).contains q = false := by
      rw [IdMap.contains_insert, Bool.or_eq_false_iff, beq_eq_false_iff_ne]
      exact ⟨fun he => hq.2 (List.mem_singleton.2 he), h.books.seen_eq_false hq.1⟩
    refine ⟨⟨q, w.distance + 1, r⟩, List.mem_append_right _ (mem_references.2 ?_), rfl⟩
    exact ⟨hnear, rfl, hparent, hplace, hunseen⟩

/-- Recording the sector of an entry keeps the trace. -/
theorem Trace.record (h : Trace map limits center s taken (w :: waiting))
    (hcap : s.found.length < limits.maxSectors) (hmap : map.get? w.id = some sector)
    (hseen : s.seen.contains w.id = false) :
    Trace map limits center (s.record limits w.id sector w.distance (waiting.map Traced.entry))
      (taken ++ [w])
      (waiting ++ references limits (s.seen.insert w.id ()) sector w.distance s.found.length) := by
  have hnew : w.id ∉ s.ids := h.books.not_mem_ids hseen
  have hcontains : map.contains w.id = true := (IdMap.contains_eq_true_iff _ _).2 ⟨_, hmap⟩
  -- the entry moves from the front of those that wait to the end of those that were taken
  have happend : taken ++ [w] ++ (waiting ++
      references limits (s.seen.insert w.id ()) sector w.distance s.found.length) =
      (taken ++ w :: waiting) ++
        references limits (s.seen.insert w.id ()) sector w.distance s.found.length := by
    simp
  refine
    { books := books_record h.books hcap hmap hseen
      queue := ?_
      found := ?_
      sourced := ?_
      ordered := happend ▸ h.ordered_record
      first := fun e he r hr => h.first_record hcontains hnew he hr
      pending := fun r p q hp hnear hplace hq hqids =>
        h.pending_record hp hnear hplace hq hqids
      sorted := ?_
      near := ?_
      distance := ?_ }
  · rw [List.map_append, map_entry_references]
    rfl
  · show (s.found ++ [(Shown.ofSector w.id sector, w.distance)]).map _ = _
    rw [List.map_append, h.found, List.map_append]
    rfl
  · intro e he
    rw [happend] at he
    exact h.sourced_record he
  · show (s.found ++ [_]).Pairwise _
    rw [List.pairwise_append]
    refine ⟨h.sorted, List.pairwise_singleton _ _, ?_⟩
    intro a ha b hb
    rw [List.mem_singleton.1 hb]
    exact h.found_le_waiting ha (List.mem_cons_self ..)
  · intro e he
    rcases List.mem_append.1 he with he | he
    · exact h.near e he
    · rw [List.mem_singleton.1 he]
      obtain ⟨p, -, -, hnear, hd⟩ :=
        h.sourced w (List.mem_append_right _ (List.mem_cons_self ..))
      show w.distance ≤ _
      omega
  · intro e he
    rcases List.mem_append.1 he with he | he
    · exact h.distance e he
    · rw [List.mem_singleton.1 he]
      exact h.isDistance_waiting hcontains hnew

end

/-- **One step keeps the trace.** -/
theorem Trace.step (h : Trace map limits center s taken waiting)
    (hs : s.step map limits = some s') :
    ∃ taken' waiting', Trace map limits center s' taken' waiting' := by
  obtain ⟨hcap, id, distance, rest, hq, hcase⟩ := step_cases hs
  cases waiting with
  | nil => exact absurd (h.queue.symm.trans hq) (by simp)
  | cons w waiting =>
    obtain ⟨hentry, rfl⟩ := List.cons.inj (h.queue.symm.trans hq)
    obtain ⟨rfl, rfl⟩ := Prod.mk.inj hentry
    rcases hcase with ⟨rfl, hdrop⟩ | ⟨sector, hmap, hseen, -, rfl⟩
    · exact ⟨_, _, h.drop hdrop⟩
    · exact ⟨_, _, h.record hcap hmap hseen⟩

theorem Trace.run (k : Nat) (h : Trace map limits center s taken waiting) :
    ∃ taken' waiting', Trace map limits center (s.run map limits k) taken' waiting' :=
  run_induction (P := fun s => ∃ taken waiting, Trace map limits center s taken waiting)
    (fun ⟨_, _, h⟩ hs => h.step hs) k ⟨_, _, h⟩

/-- The search that has recorded the center has a trace. -/
theorem trace_center {sector : Sector} (hcap : 0 < limits.maxSectors)
    (hmap : map.get? center = some sector) :
    Trace map limits center ((start center).record limits center sector 0 []) []
      (references limits ((start center).seen.insert center ()) sector 0 0) := by
  have hcontains : map.contains center = true := (IdMap.contains_eq_true_iff _ _).2 ⟨_, hmap⟩
  have hfound : ((start center).record limits center sector 0 []).found =
      [(Shown.ofSector center sector, 0)] := rfl
  refine
    { books := books_record (books_start map limits center) hcap hmap rfl
      queue := (map_entry_references _ _ _ _).symm
      found := rfl
      sourced := fun e he => sourced_references he
      ordered := references_ordered _ _ _ _
      first := fun e he => absurd he List.not_mem_nil
      pending := ?_
      sorted := List.pairwise_singleton _ _
      near := ?_
      distance := ?_ }
  · intro r p q hp hnear hplace hq hqids
    rcases getElem?_found_record.1 hp with hold | ⟨hparent, rfl⟩
    · exact absurd hold (by simp [start])
    · refine ⟨⟨q, 1, r⟩, mem_references.2 ⟨hnear, rfl, hparent, hplace, ?_⟩, rfl⟩
      rw [IdMap.contains_insert, Bool.or_eq_false_iff, beq_eq_false_iff_ne]
      exact ⟨fun he => hqids (he ▸ List.mem_singleton.2 rfl), rfl⟩
  · intro e he
    rw [hfound, List.mem_singleton] at he
    rw [he]
    exact Nat.zero_le _
  · intro e he
    rw [hfound, List.mem_singleton] at he
    rw [he]
    exact ⟨.here hcontains, fun _ => Nat.zero_le _⟩

end

end Search

end LaneChart
