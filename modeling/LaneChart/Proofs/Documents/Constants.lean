import LaneChart.Cli.Configuration
import LaneChart.Proofs.Documents.Settings
import LaneChart.Proofs.Json.Singles
import LaneChart.Proofs.Layout.Settle

/-!
# Settings are read again

Accepted settings are written by themselves and as a configuration file. Nine of the
constants of the layout are singles. Seven of them are checked, and each check holds for
finite values only. The angle of the approximation and the threshold of rest are not
checked, so a number past every single makes them infinite; a constant that is not finite is
written as null, and null is read as no single.

> `Settings.reread_iff_finite`: what was accepted is accepted again as written, if these two are
> finite, and cannot be read at all if one of them is not.
> `Settings.endless_not_reread`: that happens.
-/

namespace LaneChart

open Json (Record WellSpelled Kept)

/-! ## Counts -/

namespace Limits

theorem ofJson?_toJson {l : Limits} (h : l.maxSectors < UInt64.size) :
    ofJson? l.toJson = some l := by
  unfold ofJson? toJson
  rw [Json.record?_ofMembers_keys (by decide) (by rfl)]
  simp [Record.given, Record.orElse, Json.natBelow?_ofNat h]

theorem wellSpelled_toJson (l : Limits) : WellSpelled l.toJson := by
  apply Json.wellSpelled_ofMembers
  simp only [List.forall_mem_cons, List.not_mem_nil, false_imp_iff, implies_true, and_true]
  exact ⟨Json.wellSpelled_ofNat _, Json.wellSpelled_ofNat _⟩

end Limits

namespace Crossing.Budget

theorem ofJson?_toJson (b : Budget) : ofJson? b.toJson = some b := by
  unfold ofJson? toJson
  rw [Json.record?_ofMembers_keys (by decide) (by rfl)]
  simp [Record.given, Record.orElse]

theorem wellSpelled_toJson (b : Budget) : WellSpelled b.toJson := by
  apply Json.wellSpelled_ofMembers
  simp only [List.forall_mem_cons, List.not_mem_nil, false_imp_iff, implies_true, and_true]
  exact ⟨Json.wellSpelled_ofNat _, Json.wellSpelled_ofNat _⟩

end Crossing.Budget

/-! ## Constants -/

namespace Layout.Force.Settings

variable {s t : Settings} {x : Float32}

/-- The constants that are checked. -/
def checked (s : Settings) : List Float32 := s.positives.map (·.2) ++ [s.damping, s.gravity]

/-- The constants that are singles. -/
def constants (s : Settings) : List Float32 := s.checked ++ [s.theta, s.restThreshold]

theorem forall_mem_constants_iff {p : Float32 → Prop} : (∀ x ∈ s.constants, p x) ↔
    (p s.dt ∧ p s.repulsion ∧ p s.attraction ∧ p s.idealLength ∧ p s.seedRadius ∧ p s.damping ∧
      p s.gravity) ∧ p s.theta ∧ p s.restThreshold := by
  simp [constants, checked, positives, and_assoc]

/-- Constants that were read from what was written for others: the counts and the switch are the
same, and the checks that were passed are passed again. -/
structure Reread (s t : Settings) : Prop where
  iterations : t.iterations = s.iterations
  approximate : t.approximate = s.approximate
  maxTreeDepth : t.maxTreeDepth = s.maxTreeDepth
  dt : Kept s.dt t.dt
  repulsion : Kept s.repulsion t.repulsion
  attraction : Kept s.attraction t.attraction
  idealLength : Kept s.idealLength t.idealLength
  seedRadius : Kept s.seedRadius t.seedRadius
  damping : Kept s.damping t.damping
  gravity : Kept s.gravity t.gravity

/-- Every check holds for finite values only. -/
theorem isFinite_of_validate (h : s.validate = .ok ()) : ∀ x ∈ s.checked, x.isFinite = true := by
  obtain ⟨hpositives, hdamping, hgravity, -⟩ :=
    s.objection?_eq_none_iff.1 (s.validate_eq_ok_iff.1 h)
  intro x hx
  rcases List.mem_append.1 hx with hx | hx
  · obtain ⟨c, hc, rfl⟩ := List.mem_map.1 hx
    exact (Bool.and_eq_true_iff.1 (hpositives c hc)).1
  rcases List.mem_cons.1 hx with rfl | hx
  · obtain ⟨b, hb, -⟩ := Single.isShare_iff.1 hdamping
    exact Single.isFinite_iff_kind.2 ⟨b, hb⟩
  · obtain rfl := List.mem_singleton.1 hx
    exact (Bool.and_eq_true_iff.1 hgravity).1

theorem Reread.validate_eq (h : Reread s t) (hs : s.validate = .ok ()) : t.validate = .ok () := by
  obtain ⟨hpositives, hdamping, hgravity, hiterations⟩ :=
    s.objection?_eq_none_iff.1 (s.validate_eq_ok_iff.1 hs)
  rw [validate_eq_ok_iff, objection?_eq_none_iff]
  simp only [positives, List.forall_mem_cons, List.not_mem_nil, false_imp_iff, implies_true,
    and_true] at hpositives ⊢
  obtain ⟨hdt, hrepulsion, hattraction, hlength, hradius⟩ := hpositives
  refine ⟨⟨h.dt.positive hdt, h.repulsion.positive hrepulsion, h.attraction.positive hattraction,
    h.idealLength.positive hlength, h.seedRadius.positive hradius⟩, h.damping.share hdamping,
    h.gravity.nonNegative hgravity, ?_⟩
  rw [h.iterations]
  exact hiterations

/-- What is written is read field by field. -/
theorem ofJson?_toJson_eq (s : Settings) : ofJson? s.toJson =
    (Json.word32? (Json.ofNat s.iterations.toNat)).bind fun iterations =>
    (Json.single? (Json.ofSingle s.dt)).bind fun dt =>
    (Json.single? (Json.ofSingle s.damping)).bind fun damping =>
    (Json.single? (Json.ofSingle s.repulsion)).bind fun repulsion =>
    (Json.single? (Json.ofSingle s.attraction)).bind fun attraction =>
    (Json.single? (Json.ofSingle s.idealLength)).bind fun idealLength =>
    (Json.single? (Json.ofSingle s.gravity)).bind fun gravity =>
    (Json.single? (Json.ofSingle s.theta)).bind fun theta =>
    (Json.bool? (.bool s.approximate)).bind fun approximate =>
    ((Json.ofNat s.maxTreeDepth).natBelow? UInt64.size).bind fun maxTreeDepth =>
    (Json.single? (Json.ofSingle s.seedRadius)).bind fun seedRadius =>
    (Json.single? (Json.ofSingle s.restThreshold)).bind fun restThreshold =>
    some ⟨iterations, dt, damping, repulsion, attraction, idealLength, gravity, theta, approximate,
      maxTreeDepth, seedRadius, restThreshold⟩ := by
  unfold ofJson? toJson
  rw [Json.record?_ofMembers_keys nodup_fields rfl]
  rfl

/-- **Finite constants are read again.** -/
theorem exists_reread (hdepth : s.maxTreeDepth < UInt64.size)
    (h : ∀ x ∈ s.constants, x.isFinite = true) :
    ∃ t, ofJson? s.toJson = some t ∧ Reread s t := by
  obtain ⟨⟨hdt, hrepulsion, hattraction, hlength, hradius, hdamping, hgravity⟩, htheta,
    hthreshold⟩ := forall_mem_constants_iff.1 h
  obtain ⟨dt, hdt, hdtKept⟩ := Json.single?_ofSingle hdt
  obtain ⟨repulsion, hrepulsion, hrepulsionKept⟩ := Json.single?_ofSingle hrepulsion
  obtain ⟨attraction, hattraction, hattractionKept⟩ := Json.single?_ofSingle hattraction
  obtain ⟨idealLength, hlength, hlengthKept⟩ := Json.single?_ofSingle hlength
  obtain ⟨seedRadius, hradius, hradiusKept⟩ := Json.single?_ofSingle hradius
  obtain ⟨damping, hdamping, hdampingKept⟩ := Json.single?_ofSingle hdamping
  obtain ⟨gravity, hgravity, hgravityKept⟩ := Json.single?_ofSingle hgravity
  obtain ⟨theta, htheta, -⟩ := Json.single?_ofSingle htheta
  obtain ⟨restThreshold, hthreshold, -⟩ := Json.single?_ofSingle hthreshold
  refine ⟨⟨s.iterations, dt, damping, repulsion, attraction, idealLength, gravity, theta,
    s.approximate, s.maxTreeDepth, seedRadius, restThreshold⟩, ?_, ⟨rfl, rfl, rfl, hdtKept,
    hrepulsionKept, hattractionKept, hlengthKept, hradiusKept, hdampingKept, hgravityKept⟩⟩
  rw [ofJson?_toJson_eq, Json.word32?_ofNat, hdt, hdamping, hrepulsion, hattraction, hlength,
    hgravity, htheta, Json.natBelow?_ofNat hdepth, hradius, hthreshold]
  rfl

/-- **Only finite constants are read again.** -/
theorem isFinite_of_ofJson?_toJson (h : ofJson? s.toJson = some t) :
    ∀ x ∈ s.constants, x.isFinite = true := by
  -- a field of the record is there only if its single was read, and that was not null
  have hfinite {x y : Float32} (hread : Json.single? (Json.ofSingle x) = some y) :
      x.isFinite = true := by
    rw [← Json.isSome_single?_ofSingle, hread]
    rfl
  simp only [ofJson?_toJson_eq, Option.bind_eq_some_iff] at h
  obtain ⟨-, -, dt, hdt, damping, hdamping, repulsion, hrepulsion, attraction, hattraction,
    idealLength, hlength, gravity, hgravity, theta, htheta, -, -, -, -, seedRadius, hradius,
    restThreshold, hthreshold, -⟩ := h
  exact forall_mem_constants_iff.2 ⟨⟨hfinite hdt, hfinite hrepulsion, hfinite hattraction,
    hfinite hlength, hfinite hradius, hfinite hdamping, hfinite hgravity⟩, hfinite htheta,
    hfinite hthreshold⟩

theorem wellSpelled_toJson (s : Settings) : WellSpelled s.toJson := by
  apply Json.wellSpelled_ofMembers
  simp only [List.forall_mem_cons, List.not_mem_nil, false_imp_iff, implies_true, and_true]
  exact ⟨Json.wellSpelled_ofNat _, Json.wellSpelled_ofSingle _, Json.wellSpelled_ofSingle _,
    Json.wellSpelled_ofSingle _, Json.wellSpelled_ofSingle _, Json.wellSpelled_ofSingle _,
    Json.wellSpelled_ofSingle _, Json.wellSpelled_ofSingle _, .bool _, Json.wellSpelled_ofNat _,
    Json.wellSpelled_ofSingle _, Json.wellSpelled_ofSingle _⟩

end Layout.Force.Settings

/-! ## Settings -/

namespace Settings

variable {s t : Settings} {text : String}

open Cli (FileState configOfJson? configToJson fileSettings)

theorem parse_eq_ok_iff :
    parse text = .ok s ↔ (Json.read? text).bind ofJson? = some s ∧ s.validate = .ok () := by
  unfold parse
  split
  · next hnone =>
    rw [hnone]
    exact iff_of_false nofun fun h => nomatch h.1
  next u hread =>
  rw [hread, Option.some.injEq]
  split
  · next hvalid =>
    constructor
    · intro h
      injection h with h
      exact ⟨h, h ▸ hvalid⟩
    · exact fun h => congrArg Except.ok h.1
  · next e hrefused =>
    refine iff_of_false nofun ?_
    rintro ⟨rfl, hvalid⟩
    exact absurd (hrefused.symm.trans hvalid) nofun

theorem validate_eq_ok_iff (s : Settings) : s.validate = .ok () ↔ s.layout.validate = .ok () := by
  unfold validate
  cases s.layout.validate with
  | ok v => exact iff_of_true rfl rfl
  | error e => exact iff_of_false nofun nofun

/-- The counts that were read fit their sixty-four bits. -/
theorem counts_lt_of_ofJson? {j : Json} (h : ofJson? j = some s) :
    s.limits.maxSectors < UInt64.size ∧ s.layout.maxTreeDepth < UInt64.size := by
  rw [eq_given h]
  exact ⟨Json.fieldAs?_natBelow?_lt (by decide), Json.fieldAs?_natBelow?_lt (by decide)⟩

theorem ofJson?_toJson_eq (hcount : s.limits.maxSectors < UInt64.size) :
    ofJson? s.toJson =
      (Layout.Force.Settings.ofJson? s.layout.toJson).map fun layout =>
        ⟨s.limits, s.minimizer, layout⟩ := by
  unfold ofJson? toJson
  rw [Json.record?_ofMembers_keys (by decide) (by rfl)]
  show (Limits.ofJson? s.limits.toJson).bind _ = _
  rw [Limits.ofJson?_toJson hcount, Option.bind_some]
  show (Crossing.Budget.ofJson? s.minimizer.toJson).bind _ = _
  rw [Crossing.Budget.ofJson?_toJson, Option.bind_some, Option.map_eq_bind]
  rfl

theorem wellSpelled_toJson (s : Settings) : WellSpelled s.toJson := by
  apply Json.wellSpelled_ofMembers
  simp only [List.forall_mem_cons, List.not_mem_nil, false_imp_iff, implies_true, and_true]
  exact ⟨s.limits.wellSpelled_toJson, s.minimizer.wellSpelled_toJson, s.layout.wellSpelled_toJson⟩

/-- A configuration file is read as the settings in it. -/
theorem configOfJson?_configToJson (s : Settings) :
    configOfJson? (configToJson s) = ofJson? s.toJson := by
  unfold configOfJson? configToJson
  rw [Json.record?_ofMembers_keys (by decide) (by rfl)]
  rfl

theorem wellSpelled_configToJson (s : Settings) : WellSpelled (configToJson s) := by
  apply Json.wellSpelled_ofMembers
  simp only [List.forall_mem_cons, List.not_mem_nil, false_imp_iff, implies_true, and_true]
  exact s.wellSpelled_toJson

/-! ## From the text -/

/-- What is written for some settings is accepted as others: by itself, in either form of
the text, and as a configuration file. -/
structure AcceptedAs (s t : Settings) : Prop where
  compact : parse s.toJson.render = .ok t
  indented : parse s.toJson.renderIndented = .ok t
  file (path : String) :
    fileSettings (fun _ => .text (configToJson s).renderIndented) (some path) = .ok t
  valid : t.validate = .ok ()

/-- What is written for some settings cannot be read. -/
structure Unreadable (s : Settings) : Prop where
  compact : parse s.toJson.render = .error .malformed
  indented : parse s.toJson.renderIndented = .error .malformed
  file (path : String) :
    fileSettings (fun _ => .text (configToJson s).renderIndented) (some path) =
      .error (.malformedConfig path)

theorem acceptedAs_of_ofJson? (h : ofJson? s.toJson = some t) (hvalid : t.validate = .ok ()) :
    AcceptedAs s t where
  compact := parse_eq_ok_iff.2 ⟨(s.wellSpelled_toJson.readsBack h).compact, hvalid⟩
  indented := parse_eq_ok_iff.2 ⟨(s.wellSpelled_toJson.readsBack h).indented, hvalid⟩
  file path := by
    have hread : (Json.read? (configToJson s).renderIndented).bind configOfJson? = some t :=
      (s.wellSpelled_configToJson.readsBack ((configOfJson?_configToJson s).trans h)).indented
    unfold fileSettings
    simp only [hread]
  valid := hvalid

theorem unreadable_of_ofJson? (h : ofJson? s.toJson = none) : Unreadable s where
  compact := by
    unfold parse
    rw [Json.read?_render s.wellSpelled_toJson, Option.bind_some, h]
  indented := by
    unfold parse
    rw [Json.read?_renderIndented s.wellSpelled_toJson, Option.bind_some, h]
  file path := by
    unfold fileSettings
    simp only [Json.read?_renderIndented s.wellSpelled_configToJson, Option.bind_some,
      configOfJson?_configToJson, h]

theorem exists_acceptedAs (h : parse text = .ok s)
    (hfinite : ∀ x ∈ s.layout.constants, x.isFinite = true) :
    ∃ t, s.AcceptedAs t ∧ t.limits = s.limits ∧ t.minimizer = s.minimizer ∧
      s.layout.Reread t.layout := by
  obtain ⟨hread, hvalid⟩ := parse_eq_ok_iff.1 h
  obtain ⟨j, -, hj⟩ := Option.bind_eq_some_iff.1 hread
  obtain ⟨hcount, hdepth⟩ := counts_lt_of_ofJson? hj
  obtain ⟨layout, hlayout, hreread⟩ := Layout.Force.Settings.exists_reread hdepth hfinite
  refine ⟨⟨s.limits, s.minimizer, layout⟩, acceptedAs_of_ofJson? ?_ ?_, rfl, rfl, hreread⟩
  · rw [ofJson?_toJson_eq hcount, hlayout, Option.map_some]
  · exact (validate_eq_ok_iff _).2 (hreread.validate_eq ((validate_eq_ok_iff s).1 hvalid))

theorem unreadable_of_not_finite (h : parse text = .ok s) {x : Float32}
    (hx : x ∈ s.layout.constants) (hinfinite : x.isFinite = false) : s.Unreadable := by
  obtain ⟨hread, -⟩ := parse_eq_ok_iff.1 h
  obtain ⟨j, -, hj⟩ := Option.bind_eq_some_iff.1 hread
  apply unreadable_of_ofJson?
  rw [ofJson?_toJson_eq (counts_lt_of_ofJson? hj).1, Option.map_eq_none_iff,
    Option.eq_none_iff_forall_ne_some]
  intro layout hlayout
  rw [Layout.Force.Settings.isFinite_of_ofJson?_toJson hlayout x hx] at hinfinite
  exact nomatch hinfinite

/-- **Accepted settings are read again if and only if their constants are finite.** Those that are
checked are; so it comes down to the angle of the approximation and the threshold of rest. As long
as these are finite, what is written is accepted again, with the same counts and with constants that
pass the same checks. Otherwise it cannot be read. -/
theorem reread_iff_finite (h : parse text = .ok s) :
    (∀ x ∈ s.layout.checked, x.isFinite = true) ∧
    ((∀ x ∈ s.layout.constants, x.isFinite = true) ↔
      s.layout.theta.isFinite = true ∧ s.layout.restThreshold.isFinite = true) ∧
    ((∀ x ∈ s.layout.constants, x.isFinite = true) →
      ∃ t, s.AcceptedAs t ∧ t.limits = s.limits ∧ t.minimizer = s.minimizer ∧
        s.layout.Reread t.layout) ∧
    ((∃ x ∈ s.layout.constants, x.isFinite = false) → s.Unreadable) := by
  have hchecked := Layout.Force.Settings.isFinite_of_validate
    ((validate_eq_ok_iff s).1 (parse_eq_ok_iff.1 h).2)
  refine ⟨hchecked, ?_, exists_acceptedAs h,
    fun ⟨x, hx, hinfinite⟩ => unreadable_of_not_finite h hx hinfinite⟩
  unfold Layout.Force.Settings.constants
  rw [List.forall_mem_append, and_iff_right hchecked, List.forall_mem_cons,
    List.forall_mem_singleton]

/-- Settings at the ends of what is accepted: the least and the greatest single, one, a
negative zero, and a negative angle. -/
def atTheEnds : Settings where
  limits := { maxSectors := 18446744073709551615 }
  layout :=
    { dt := Decimal.singleOfBits false 1
      damping := 1
      repulsion := Decimal.singleOfBits false (Decimal.Format.single.infinityBits - 1)
      gravity := Decimal.singleOfBits true 0
      theta := -0.5 }

theorem atTheEnds_reread :
    parse ("\x7b\"limits\":[18446744073709551615],\"layout\":\x7b\"dt\":1e-45,\"damping\":1,"
      ++ "\"repulsion\":3.4028235e38,\"gravity\":-0.0,\"theta\":-5e-1\x7d\x7d") = .ok atTheEnds ∧
    (∀ x ∈ atTheEnds.layout.constants, x.isFinite = true) ∧ ∃ t, atTheEnds.AcceptedAs t := by
  have hparse : parse ("\x7b\"limits\":[18446744073709551615],\"layout\":\x7b\"dt\":1e-45,"
      ++ "\"damping\":1,\"repulsion\":3.4028235e38,\"gravity\":-0.0,\"theta\":-5e-1\x7d\x7d") =
      .ok atTheEnds :=
    parse_eq_ok_iff.2 (by decide +kernel)
  obtain ⟨-, hfinite, hagain, -⟩ := reread_iff_finite hparse
  have hall := hfinite.2 (by decide +kernel)
  obtain ⟨t, ht, -⟩ := hagain hall
  exact ⟨hparse, hall, t, ht⟩

/-- Settings with an infinite angle. -/
def endless : Settings where
  layout := { theta := Decimal.singleOfBits false Decimal.Format.single.infinityBits }

/-- **An angle past every single is accepted**, is not finite, and cannot be read as written. -/
theorem endless_not_reread :
    parse "\x7b\"layout\":\x7b\"theta\":1e39\x7d\x7d" = .ok endless ∧
    endless.layout.theta ∈ endless.layout.constants ∧ endless.layout.theta.isFinite = false ∧
    endless.Unreadable := by
  have hparse : parse "\x7b\"layout\":\x7b\"theta\":1e39\x7d\x7d" = .ok endless :=
    parse_eq_ok_iff.2 (by decide +kernel)
  have hmem : endless.layout.theta ∈ endless.layout.constants :=
    List.mem_append_right _ (List.mem_cons_self ..)
  have hinfinite : endless.layout.theta.isFinite = false := by decide +kernel
  exact ⟨hparse, hmem, hinfinite, unreadable_of_not_finite hparse hmem hinfinite⟩

end Settings

end LaneChart
