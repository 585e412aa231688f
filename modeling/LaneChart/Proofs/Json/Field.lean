import LaneChart.Json.Record
import Mathlib.Data.List.Basic

/-!
# What a document gives for a field

A record may be written by name or as a list. Either way a document gives a field a value,
or it does not: `field?` says which, without asking whether the rest of the document can
be read as the record.

> `given_of_record?`: what a record that was read holds for a field is what the document
> gives for it.
> `fieldAs?_of_orElse`: a field that was read is the value given for it, or else the default.
-/

namespace LaneChart.Json

variable {α : Type}

/-- What a document gives for a field of a record: the value of the member of that name, or the item
at the place that the name has in the declaration of the record. -/
def field? (names : List String) (name : String) : Json → Option Json
  | .object members => (members.find? fun m => unescape m.1 == some name.toList).map (·.2)
  | .array items => items[names.idxOf name]?
  | _ => none

/-! ## Members -/

theorem find?_namedMembers {members named : List (List Char × Json)}
    (h : namedMembers? members = some named) (name : List Char) :
    (named.find? fun m => m.1 == name).map (·.2) =
      (members.find? fun m => unescape m.1 == some name).map (·.2) := by
  unfold namedMembers? at h
  induction members generalizing named with
  | nil =>
    obtain rfl := Option.some.inj h
    rfl
  | cons m members ih =>
    rw [List.mapM_cons] at h
    cases hm : unescape m.1 with
    | none => simp [hm] at h
    | some decoded =>
      cases hrest : members.mapM fun m => (unescape m.1).map (·, m.2) with
      | none => simp [hm, hrest] at h
      | some rest =>
        simp only [hm, hrest, Option.map_some, Option.bind_eq_bind, Option.bind_some] at h
        obtain rfl := Option.some.inj h
        rw [List.find?_cons, List.find?_cons, hm]
        by_cases hname : decoded = name
        · simp [hname]
        · have hne : (some decoded == some name) = false := by simp [hname]
          simp only [beq_false_of_ne hname, hne]
          exact ih hrest

theorem eq_of_onlyMember? {members : List (List Char × Json)} {name : String} {value : Option Json}
    (h : onlyMember? members name = some value) :
    value = (members.find? fun m => m.1 == name.toList).map (·.2) := by
  rw [← List.head?_filter]
  unfold onlyMember? at h
  split at h
  · next hnone =>
    rw [hnone]
    exact (Option.some.inj h).symm
  · next m hone =>
    rw [hone]
    exact (Option.some.inj h).symm
  · exact absurd h (by simp)

theorem getElem?_of_mapM {β : Type} {f : β → Option α} {l : List β} {out : List α}
    (h : l.mapM f = some out) {i : Nat} {b : β} (hb : l[i]? = some b) :
    ∃ a, out[i]? = some a ∧ f b = some a := by
  induction l generalizing out i with
  | nil => exact absurd hb (by simp)
  | cons c l ih =>
    rw [List.mapM_cons] at h
    cases hc : f c with
    | none => simp [hc] at h
    | some a =>
      cases hrest : l.mapM f with
      | none => simp [hc, hrest] at h
      | some rest =>
        simp only [hc, hrest, Option.bind_eq_bind, Option.bind_some] at h
        obtain rfl := Option.some.inj h
        cases i with
        | zero =>
          obtain rfl := Option.some.inj hb
          exact ⟨a, rfl, hc⟩
        | succ i => exact ih hrest hb

/-! ## Fields -/

/-- **A record holds what the document gives.** -/
theorem given_of_record? {names : List String} {j : Json} {r : Record}
    (h : j.record? names = some r) (hnodup : names.Nodup) {i : Nat} {name : String}
    (hi : names[i]? = some name) :
    r.given i = j.field? names name := by
  unfold record? at h
  split at h
  · next members =>
    simp only [Option.bind_eq_bind, Option.bind_eq_some_iff] at h
    obtain ⟨named, hnamed, fields, hfields, hr⟩ := h
    obtain rfl := Option.some.inj hr
    obtain ⟨value, hvalue, honly⟩ := getElem?_of_mapM hfields hi
    show (fields[i]?).join = (members.find? fun m => unescape m.1 == some name.toList).map (·.2)
    rw [hvalue, ← find?_namedMembers hnamed, ← eq_of_onlyMember? honly]
    rfl
  · next items =>
    split at h
    · next hlength =>
      obtain rfl := Option.some.inj h
      obtain ⟨hlt, hname⟩ := List.getElem?_eq_some_iff.1 hi
      have hplace : names.idxOf name = i := by
        rw [← hname]
        exact hnodup.idxOf_getElem i hlt
      show ((items.map some ++ List.replicate (names.length - items.length) none)[i]?).join =
        items[names.idxOf name]?
      rw [hplace, List.getElem?_append, List.length_map]
      split
      · rw [List.getElem?_map]
        cases items[i]? <;> rfl
      · next hpast =>
        rw [List.getElem?_eq_none (Nat.not_lt.1 hpast), List.getElem?_replicate_of_lt (by omega)]
        rfl
    · exact absurd h (by simp)
  · exact absurd h (by simp)

/-- The value that a document gives for a field, where there is a document and the field has a value
of its type there. -/
def fieldAs? (names : List String) (name : String) (value : Json → Option α) (j : Option Json) :
    Option α :=
  (j.bind (field? names name)).bind value

/-- **A field that was read**, when its reader agrees with a function that has a value for every
document and the default for none. -/
theorem eq_of_orElse {names : List String} {j : Json} {r : Record} (hr : j.record? names = some r)
    (hnodup : names.Nodup) {i : Nat} {name : String} (hi : names[i]? = some name)
    {value : Json → Option α} {default a : α} {f : Option Json → α} (hnone : f none = default)
    (hsome : ∀ v b, value v = some b → b = f (some v)) (h : r.orElse i value default = some a) :
    a = f (j.field? names name) := by
  unfold Record.orElse at h
  rw [given_of_record? hr hnodup hi] at h
  split at h
  · next hfield =>
    rw [hfield, hnone]
    exact (Option.some.inj h).symm
  · next v hfield =>
    rw [hfield]
    exact hsome v a h

/-- **A field that was read** is the value given for it, or else its default. What is read after it
goes on with that. -/
theorem fieldAs?_of_orElse {β : Type} {names : List String} {j : Json} {r : Record}
    (hr : j.record? names = some r) (hnodup : names.Nodup) {i : Nat} {name : String}
    (hi : names[i]? = some name) {value : Json → Option α} {default : α} {rest : α → Option β}
    {b : β} (h : (r.orElse i value default).bind rest = some b) :
    rest ((fieldAs? names name value (some j)).getD default) = some b := by
  obtain ⟨a, ha, hrest⟩ := Option.bind_eq_some_iff.1 h
  have hvalue (v : Json) (c : α) (hc : value v = some c) :
      c = ((some v).bind value).getD default := by
    rw [Option.bind_some, hc]
    rfl
  rwa [eq_of_orElse (f := fun v => (v.bind value).getD default) hr hnodup hi rfl hvalue ha] at hrest

/-! ## Bounded fields -/

theorem lt_of_natBelow? {bound n : Nat} {j : Json} (h : j.natBelow? bound = some n) :
    n < bound := by
  unfold natBelow? at h
  split at h
  · unfold Number.natBelow? at h
    split at h
    · next hbound =>
      obtain rfl := Option.some.inj h
      simp only [Bool.and_eq_true, decide_eq_true_eq] at hbound
      exact hbound.2
    · exact absurd h nofun
  · exact absurd h nofun

/-- A bounded field that was read, or its default, is bounded. -/
theorem fieldAs?_natBelow?_lt {names : List String} {name : String} {bound default : Nat}
    {j : Option Json} (hdefault : default < bound) :
    (fieldAs? names name (natBelow? bound) j).getD default < bound := by
  cases h : fieldAs? names name (natBelow? bound) j with
  | none => exact hdefault
  | some n =>
    obtain ⟨v, -, hn⟩ := Option.bind_eq_some_iff.1 h
    exact lt_of_natBelow? hn

end LaneChart.Json
