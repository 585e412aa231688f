import LaneChart.Documents.Sector
import LaneChart.Proofs.Json.Typed

/-!
# Documents of the travel graph are read again

Sectors, maps, lanes and neighbourhoods hold ids, times, truth values and texts, and no coordinates,
so nothing about them is rounded. For each type the reader takes back what the writer wrote
(`ofJson?_toJson`), and what it wrote is properly spelled (`wellSpelled_toJson`).

A map is written in ascending order of its ids, but nothing depends on that: the reader goes by the
ids, so the entries may be listed in any order.

> `documents_read_back`: every map, neighbourhood and lane is read again from its text.
-/

namespace LaneChart

open Json (Record ReadsBack WellSpelled)

namespace Sector

theorem ofJson?_toJson (s : Sector) : ofJson? s.toJson = some s := by
  obtain ⟨adjacent, visited, lastVisit, port⟩ := s
  have hnames : (([("adjacent", Json.ofList Json.ofId adjacent), ("visited", Json.bool visited)]
      ++ Json.optionalMember "last_visited_at" Json.ofId lastVisit
      ++ Json.optionalMember "port_code" Json.ofText port).map (·.1)).Nodup := by
    cases lastVisit <;> cases port <;> simp [Json.optionalMember]
  unfold ofJson? toJson
  rw [Json.record?_ofMembers hnames]
  cases lastVisit <;> cases port <;>
    simp [fields, Record.given, Record.orElse, Record.optional, Json.optionalMember,
      List.lookup_cons]

theorem wellSpelled_toJson (s : Sector) : WellSpelled s.toJson := by
  apply Json.wellSpelled_ofMembers
  intro m hm
  rcases List.mem_append.1 hm with hm | hm
  · rcases List.mem_append.1 hm with hm | hm
    · rcases List.mem_cons.1 hm with rfl | hm
      · exact Json.wellSpelled_ofList fun id _ => Json.wellSpelled_ofNat id.toNat
      · obtain rfl := List.mem_singleton.1 hm
        exact .bool s.visited
    · exact Json.wellSpelled_of_mem_optionalMember hm fun t => Json.wellSpelled_ofNat t.toNat
  · exact Json.wellSpelled_of_mem_optionalMember hm Json.wellSpelled_ofText

end Sector

namespace Shown

theorem ofJson?_toJson (s : Shown) : ofJson? s.toJson = some s := by
  obtain ⟨id, adjacent, visited, port, frontier⟩ := s
  have hnames : (([("id", Json.ofId id), ("adjacent", Json.ofList Json.ofId adjacent),
        ("visited", Json.bool visited)]
      ++ Json.optionalMember "port_marker" Json.ofText port
      ++ [("frontier", Json.bool frontier)]).map (·.1)).Nodup := by
    cases port <;> simp [Json.optionalMember]
  unfold ofJson? toJson
  rw [Json.record?_ofMembers hnames]
  cases port <;>
    simp [fields, Record.given, Record.required, Record.orElse, Record.optional,
      Json.optionalMember, List.lookup_cons]

theorem wellSpelled_toJson (s : Shown) : WellSpelled s.toJson := by
  apply Json.wellSpelled_ofMembers
  intro m hm
  rcases List.mem_append.1 hm with hm | hm
  · rcases List.mem_append.1 hm with hm | hm
    · rcases List.mem_cons.1 hm with rfl | hm
      · exact Json.wellSpelled_ofNat s.id.toNat
      rcases List.mem_cons.1 hm with rfl | hm
      · exact Json.wellSpelled_ofList fun id _ => Json.wellSpelled_ofNat id.toNat
      · obtain rfl := List.mem_singleton.1 hm
        exact .bool s.visited
    · exact Json.wellSpelled_of_mem_optionalMember hm Json.wellSpelled_ofText
  · obtain rfl := List.mem_singleton.1 hm
    exact .bool s.frontier

end Shown

namespace Neighborhood

theorem ofJson?_toJson (n : Neighborhood) : ofJson? n.toJson = some n := by
  obtain ⟨center, sectors⟩ := n
  have hsectors : Json.list? Shown.ofJson? (Json.ofList Shown.toJson sectors) = some sectors :=
    Json.list?_ofList fun s _ => s.ofJson?_toJson
  unfold ofJson? toJson
  rw [Json.record?_ofMembers (by simp)]
  simp [Record.given, Record.required, List.lookup_cons, hsectors]

theorem wellSpelled_toJson (n : Neighborhood) : WellSpelled n.toJson := by
  apply Json.wellSpelled_ofMembers
  intro m hm
  rcases List.mem_cons.1 hm with rfl | hm
  · exact Json.wellSpelled_ofNat n.center.toNat
  · obtain rfl := List.mem_singleton.1 hm
    exact Json.wellSpelled_ofList fun s _ => s.wellSpelled_toJson

end Neighborhood

namespace Lane

theorem ofJson?_toJson (l : Lane) : ofJson? l.toJson = some l := by
  unfold ofJson? toJson
  rw [Json.record?_ofMembers (by simp)]
  simp [Record.given, Record.required, List.lookup_cons]

theorem wellSpelled_toJson (l : Lane) : WellSpelled l.toJson := by
  apply Json.wellSpelled_ofMembers
  intro m hm
  rcases List.mem_cons.1 hm with rfl | hm
  · exact Json.wellSpelled_ofNat l.start.toNat
  · obtain rfl := List.mem_singleton.1 hm
    exact Json.wellSpelled_ofNat l.stop.toNat

end Lane

namespace SectorMap

/-- The document of a sector map with its entries in a given order. -/
def listing (entries : List (SectorId × Sector)) : Json :=
  .object (entries.map fun e => (Json.idKey e.1, e.2.toJson))

theorem toJson_eq_listing (m : SectorMap) : toJson m = listing m.entries := rfl

theorem ofJson?_listing (entries : List (SectorId × Sector)) :
    ofJson? (listing entries) = some (IdMap.ofList entries) :=
  Json.idMap?_entries fun e _ => e.2.ofJson?_toJson

theorem wellSpelled_listing (entries : List (SectorId × Sector)) : WellSpelled (listing entries) :=
  Json.wellSpelled_entries fun e _ => e.2.wellSpelled_toJson

end SectorMap

/-- A map is the map of its entries, in whatever order they are listed. -/
theorem IdMap.ofList_of_perm {α : Type} {m : IdMap α} {l : List (SectorId × α)}
    (h : l.Perm m.entries) : ofList l = m := by
  have hnodup : (l.map (·.1)).Nodup := (h.map Prod.fst).nodup_iff.2 m.keys_nodup
  apply ext_get?
  intro id
  cases hid : m.get? id with
  | some value => exact get?_ofList_of_mem hnodup (h.mem_iff.2 (m.get?_eq_some_iff.1 hid))
  | none =>
    have habsent : ¬ (ofList l).contains id = true := by
      rw [contains_ofList, (h.map Prod.fst).mem_iff]
      show ¬ id ∈ m.keys
      rw [mem_keys_iff, hid]
      exact Bool.false_ne_true
    rw [contains_eq_isSome, Bool.not_eq_true, Option.isSome_eq_false_iff, Option.isNone_iff_eq_none]
      at habsent
    exact habsent

theorem SectorMap.readsBack_listing {m : SectorMap} {entries : List (SectorId × Sector)}
    (h : entries.Perm m.entries) : ReadsBack SectorMap.parse? (SectorMap.listing entries) m := by
  have hread : SectorMap.ofJson? (SectorMap.listing entries) = some m := by
    rw [SectorMap.ofJson?_listing, IdMap.ofList_of_perm h]
  exact (SectorMap.wellSpelled_listing entries).readsBack hread

/-- **What is written of the travel graph is read again**, from the compact text and from
the indented one: every sector map, also with its entries listed in any other order, every
neighbourhood, and every lane. -/
theorem documents_read_back :
    (∀ m : SectorMap, ReadsBack SectorMap.parse? (SectorMap.toJson m) m) ∧
    (∀ (m : SectorMap) (entries : List (SectorId × Sector)), entries.Perm m.entries →
      ReadsBack SectorMap.parse? (SectorMap.listing entries) m) ∧
    (∀ n : Neighborhood,
      ReadsBack (fun text => (Json.read? text).bind Neighborhood.ofJson?) n.toJson n) ∧
    ∀ l : Lane, ReadsBack (fun text => (Json.read? text).bind Lane.ofJson?) l.toJson l := by
  refine ⟨?_, ?_, ?_, ?_⟩
  · intro m
    rw [SectorMap.toJson_eq_listing]
    exact SectorMap.readsBack_listing (List.Perm.refl _)
  · intro m entries h
    exact SectorMap.readsBack_listing h
  · intro n
    exact n.wellSpelled_toJson.readsBack n.ofJson?_toJson
  · intro l
    exact l.wellSpelled_toJson.readsBack l.ofJson?_toJson

/-- A map with the greatest id, the latest time, and a port that is all quotes, escapes, control
characters and characters beyond them. -/
def farEnd : SectorMap := IdMap.ofList
  [(7,
      { adjacent := [18446744073709551615, 7, 0]
        lastVisit := some 18446744073709551615
        port := some "\"/\\\n\x01é😀" }),
    (18446744073709551615, { visited := true })]

/-- It is read again with its later entry first. -/
theorem farEnd_read_back :
    farEnd.entries.reverse.Perm farEnd.entries ∧
    SectorMap.parse? (SectorMap.listing farEnd.entries.reverse).render = some farEnd ∧
    SectorMap.parse? (SectorMap.listing farEnd.entries.reverse).renderIndented = some farEnd := by
  have hperm : farEnd.entries.reverse.Perm farEnd.entries := List.reverse_perm farEnd.entries
  obtain ⟨-, hlisted, -⟩ := documents_read_back
  exact ⟨hperm, (hlisted farEnd _ hperm).compact, (hlisted farEnd _ hperm).indented⟩

end LaneChart
