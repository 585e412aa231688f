import LaneChart.Json.Record
import LaneChart.Proofs.IdMap
import LaneChart.Proofs.Json.Written

/-!
# Typed values are read again

A value of a simple type is written as a document that its reader takes back, and so are lists,
records and objects keyed by ids of such values. A record is written by name and looked up by name,
so for the reader it comes down to the list of its members, as an association list
(`record?_ofMembers`); a field that holds nothing is not in the list.

All of it is spelled properly, so a document that a reader takes back is also read again from its
text: `ReadsBack` puts the two together, for either form of the text.
-/

namespace LaneChart.Json

open Decimal (naturalText)

variable {α : Type}

/-! ## Simple types -/

theorem natBelow?_ofNat {n bound : Nat} (h : n < bound) : (ofNat n).natBelow? bound = some n := by
  show (if true && true && decide (n < bound) then some n else none) = some n
  rw [decide_eq_true h]
  rfl

@[simp] theorem word64?_ofId (id : SectorId) : word64? (ofId id) = some id := by
  unfold word64? ofId
  rw [natBelow?_ofNat id.toNat_lt]
  exact congrArg some UInt64.ofNat_toNat

@[simp] theorem word32?_ofNat (n : UInt32) : word32? (ofNat n.toNat) = some n := by
  unfold word32?
  rw [natBelow?_ofNat n.toNat_lt]
  exact congrArg some UInt32.ofNat_toNat

@[simp] theorem text?_ofText (s : String) : text? (ofText s) = some s := by
  show (unescape (escape s.toList)).map String.ofList = some s
  rw [unescape_escape, Option.map_some, String.ofList_toList]

@[simp] theorem nullable?_ofId (id : SectorId) : nullable? word64? (ofId id) = some (some id) := by
  show (word64? (ofId id)).map some = some (some id)
  rw [word64?_ofId, Option.map_some]

@[simp] theorem nullable?_ofText (s : String) : nullable? text? (ofText s) = some (some s) := by
  show (text? (ofText s)).map some = some (some s)
  rw [text?_ofText, Option.map_some]

@[simp] theorem bool?_bool (b : Bool) : bool? (.bool b) = some b := rfl

theorem mapM_of_some {β : Type} {g : β → Option α} {h : β → α} {l : List β}
    (hread : ∀ a ∈ l, g a = some (h a)) : l.mapM g = some (l.map h) := by
  induction l with
  | nil => rfl
  | cons a l ih =>
    obtain ⟨ha, hl⟩ := List.forall_mem_cons.1 hread
    rw [List.mapM_cons, ha, ih hl]
    rfl

theorem list?_ofList {f : α → Json} {item : Json → Option α} {l : List α}
    (h : ∀ a ∈ l, item (f a) = some a) : list? item (ofList f l) = some l := by
  have hitems : l.mapM (item ∘ f) = some (l.map id) := mapM_of_some h
  show (l.map f).mapM item = some l
  rw [List.mapM_map, hitems, List.map_id]

@[simp] theorem list?_ofId (ids : List SectorId) : list? word64? (ofList ofId ids) = some ids :=
  list?_ofList fun id _ => word64?_ofId id

theorem idKey?_idKey (id : SectorId) : idKey? (idKey id) = some id := by
  have hscan : scanWhole (naturalText id.toNat ++ []) = some (id.toNat, []) :=
    scanWhole_naturalText id.toNat noDigit_nil
  rw [List.append_nil] at hscan
  unfold idKey? idKey
  simp only [hscan]
  rw [if_pos id.toNat_lt, UInt64.ofNat_toNat]

/-- An object keyed by ids is read as the map of its entries, the later one of an id counting. -/
theorem idMap?_entries {f : α → Json} {value : Json → Option α} {l : List (SectorId × α)}
    (h : ∀ e ∈ l, value (f e.2) = some e.2) :
    (Json.object (l.map fun e => (idKey e.1, f e.2))).idMap? value = some (IdMap.ofList l) := by
  have hentries : (l.map fun e => (idKey e.1, f e.2)).mapM
      (fun m => do return (← idKey? m.1, ← value m.2)) = some l := by
    rw [List.mapM_map, mapM_of_some (h := id), List.map_id]
    intro e he
    show (idKey? (idKey e.1)).bind (fun k => (value (f e.2)).bind fun v => some (k, v)) = some e
    rw [idKey?_idKey, h e he]
    rfl
  unfold idMap?
  simp only [hentries, Option.map_some]

/-! ## Records -/

theorem namedMembers?_map (l : List (String × Json)) :
    namedMembers? (l.map fun m => member m.1 m.2) = some (l.map fun m => (m.1.toList, m.2)) := by
  unfold namedMembers?
  rw [List.mapM_map]
  apply mapM_of_some
  intro m _
  show (unescape (escape m.1.toList)).map (·, m.2) = some (m.1.toList, m.2)
  rw [unescape_escape, Option.map_some]

/-- Among members of different names the only one of a name is the one that is found. -/
theorem onlyMember?_map {l : List (String × Json)} (h : (l.map (·.1)).Nodup) (name : String) :
    onlyMember? (l.map fun m => (m.1.toList, m.2)) name = some (l.lookup name) := by
  induction l with
  | nil => rfl
  | cons m l ih =>
    obtain ⟨key, value⟩ := m
    obtain ⟨hkey, hl⟩ := List.nodup_cons.1 h
    rw [List.lookup_cons]
    by_cases hname : name = key
    · have hnone :
          (l.map fun m => (m.1.toList, m.2)).filter (fun m => m.1 == name.toList) = [] := by
        rw [List.filter_eq_nil_iff]
        intro m hm heq
        obtain ⟨n, hn, rfl⟩ := List.mem_map.1 hm
        have hsame := String.toList_inj.1 (eq_of_beq heq)
        exact hkey (List.mem_map.2 ⟨n, hn, hsame.trans hname⟩)
      unfold onlyMember?
      rw [List.map_cons, List.filter_cons, hnone]
      simp [hname]
    · have hne : (key.toList == name.toList) = false := by
        rw [beq_eq_false_iff_ne]
        exact fun heq => hname (String.toList_inj.1 heq).symm
      have hskip : onlyMember? ((key, value) :: l |>.map fun m => (m.1.toList, m.2)) name =
          onlyMember? (l.map fun m => (m.1.toList, m.2)) name := by
        unfold onlyMember?
        rw [List.map_cons, List.filter_cons, hne, if_neg Bool.false_ne_true]
      rw [hskip, ih hl, beq_false_of_ne hname]

/-- **What was written by name is found by name.** -/
theorem record?_ofMembers {l : List (String × Json)} (h : (l.map (·.1)).Nodup)
    (names : List String) :
    (ofMembers l).record? names = some ⟨true, names.map fun name => l.lookup name⟩ := by
  have hfields : names.mapM (onlyMember? (l.map fun m => (m.1.toList, m.2))) =
      some (names.map fun name => l.lookup name) :=
    mapM_of_some fun name _ => onlyMember?_map h name
  unfold record? ofMembers
  simp only [namedMembers?_map, hfields, Option.bind_eq_bind, Option.bind_some]
  rfl

/-- Members of different names are found in their order by their own names. -/
theorem map_lookup_keys {l : List (String × Json)} (h : (l.map (·.1)).Nodup) :
    (l.map (·.1)).map (fun name => l.lookup name) = l.map fun m => some m.2 := by
  induction l with
  | nil => rfl
  | cons m l ih =>
    obtain ⟨key, value⟩ := m
    obtain ⟨hkey, hl⟩ := List.nodup_cons.1 h
    have hrest : (l.map (·.1)).map (fun name => ((key, value) :: l).lookup name) =
        (l.map (·.1)).map fun name => l.lookup name := by
      refine List.map_congr_left fun name hname => ?_
      have hne : name ≠ key := fun heq => hkey (heq ▸ hname)
      rw [List.lookup_cons, beq_false_of_ne hne]
    rw [List.map_cons, List.map_cons, List.map_cons, hrest, ih hl, List.lookup_cons_self]

/-- **What was written by name in the order of its declaration** is a record of just these
values. -/
theorem record?_ofMembers_keys {l : List (String × Json)} {names : List String} (h : names.Nodup)
    (hnames : l.map (·.1) = names) :
    (ofMembers l).record? names = some ⟨true, l.map fun m => some m.2⟩ := by
  subst hnames
  rw [record?_ofMembers h, map_lookup_keys h]

/-! ## Spelling -/

theorem wellSpelled_ofNat (n : Nat) : WellSpelled (ofNat n) :=
  .number fun _ hc => absurd hc List.not_mem_nil

theorem wellSpelled_ofText (s : String) : WellSpelled (ofText s) :=
  .string (enclosed_escape s.toList)

theorem wellSpelled_ofList {f : α → Json} {l : List α} (h : ∀ a ∈ l, WellSpelled (f a)) :
    WellSpelled (ofList f l) := by
  refine .array ?_
  intro v hv
  obtain ⟨a, ha, rfl⟩ := List.mem_map.1 hv
  exact h a ha

theorem wellSpelled_ofMembers {l : List (String × Json)} (h : ∀ m ∈ l, WellSpelled m.2) :
    WellSpelled (ofMembers l) := by
  refine .object ?_ ?_
  · intro m hm
    obtain ⟨n, -, rfl⟩ := List.mem_map.1 hm
    exact enclosed_escape n.1.toList
  · intro m hm
    obtain ⟨n, hn, rfl⟩ := List.mem_map.1 hm
    exact h n hn

theorem wellSpelled_entries {f : α → Json} {l : List (SectorId × α)}
    (h : ∀ e ∈ l, WellSpelled (f e.2)) :
    WellSpelled (.object (l.map fun e => (idKey e.1, f e.2))) := by
  refine .object ?_ ?_
  · intro m hm
    obtain ⟨e, -, rfl⟩ := List.mem_map.1 hm
    exact enclosed_naturalText e.1.toNat
  · intro m hm
    obtain ⟨e, he, rfl⟩ := List.mem_map.1 hm
    exact h e he

theorem wellSpelled_of_mem_optionalMember {name : String} {f : α → Json} {o : Option α}
    {m : String × Json} (hm : m ∈ optionalMember name f o) (h : ∀ a, WellSpelled (f a)) :
    WellSpelled m.2 := by
  cases o with
  | none => exact absurd hm List.not_mem_nil
  | some a =>
    obtain rfl := List.mem_singleton.1 hm
    exact h a

/-! ## From the text -/

/-- A document reads back as a value, from its compact text and from its indented one. -/
structure ReadsBack (parse : String → Option α) (j : Json) (a : α) : Prop where
  compact : parse j.render = some a
  indented : parse j.renderIndented = some a

theorem WellSpelled.readsBack {value : Json → Option α} {j : Json} {a : α} (hj : WellSpelled j)
    (ha : value j = some a) : ReadsBack (fun text => (read? text).bind value) j a := by
  constructor
  · show (read? j.render).bind value = some a
    rw [read?_render hj, Option.bind_some, ha]
  · show (read? j.renderIndented).bind value = some a
    rw [read?_renderIndented hj, Option.bind_some, ha]

end LaneChart.Json
