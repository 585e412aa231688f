import LaneChart.Cli.Configuration
import LaneChart.Proofs.Documents.Settings

/-!
# The layers of the settings

The program reads its settings in sequence, each layer replacing what the one below it gave, and
checks them twice. `layered` is the same as a table: for every field the layers that can give it,
the topmost first. The table has a value whatever the layers hold. That the program has settings at
all takes three things, and none of them looks at the command line:

* the configuration file, if there is one, spells settings (`ConfigParses`);
* every variable that is set spells a number (`VariablesParse`), whether or not an option above it
  gives the field;
* the constants of the layout can be used, which no option replaces (`effectiveSettings_eq_map`).

> `effectiveSettings_eq_layered`: when there are settings, and which.

Under the variables of the process lie those of the environment file. Its assignments are carried
out in sequence too, and `EnvFile.setTo?` is the table for them.
-/

namespace LaneChart.Cli

/-! ## The environment file -/

namespace EnvFile

/-- The variables after one assignment, given those that are set before. -/
def Assignment.over (lookup : String → Option String) (a : Assignment) (key : String) :
    Option String :=
  (lookup key).or (if key = String.ofList a.name then some (a.text lookup) else none)

theorem define_cons (lookup : String → Option String) (a : Assignment) (rest : List Assignment) :
    define lookup (a :: rest) = define (a.over lookup) rest := by
  rw [define]
  by_cases hset : (lookup (String.ofList a.name)).isSome
  · have hover : a.over lookup = lookup := by
      funext key
      unfold Assignment.over
      split
      · next hname =>
        obtain ⟨value, hvalue⟩ := Option.isSome_iff_exists.1 hset
        rw [hname, hvalue, Option.some_or]
      · exact Option.or_none
    rw [if_pos hset, hover]
  · have hover : a.over lookup =
        fun n => if n = String.ofList a.name then some (a.text lookup) else lookup n := by
      funext key
      unfold Assignment.over
      split
      · next hname => rw [hname, Option.not_isSome_iff_eq_none.1 hset, Option.none_or]
      · exact Option.or_none
    rw [if_neg hset, hover]

/-- What some assignments set a variable to, given the variables that are set before: the text of
the first assignment to it, whose references are to the variables as the assignments above it leave
them. -/
def setTo? (lookup : String → Option String) (as : List Assignment) (key : String) :
    Option String :=
  let other (a : Assignment) := key != String.ofList a.name
  (as.dropWhile other).head?.map fun a => a.text (define lookup (as.takeWhile other))

/-- **Carrying assignments out** sets the variables that are not set before. -/
theorem define_eq_or (lookup : String → Option String) (as : List Assignment) (key : String) :
    define lookup as key = (lookup key).or (setTo? lookup as key) := by
  induction as generalizing lookup with
  | nil => exact (Option.or_none).symm
  | cons a rest ih =>
    rw [define_cons, ih, Assignment.over]
    by_cases hname : key = String.ofList a.name
    · have hfirst : setTo? lookup (a :: rest) key = some (a.text lookup) := by
        simp [setTo?, hname, define]
      rw [if_pos hname, hfirst, Option.or_assoc, Option.some_or]
    · have hlater : setTo? lookup (a :: rest) key = setTo? (a.over lookup) rest key := by
        simp [setTo?, hname, define_cons]
      rw [if_neg hname, hlater, Option.or_none]

end EnvFile

/-- What the environment file sets a variable to. -/
def Surroundings.setByFile? (s : Surroundings) (key : String) : Option String :=
  s.envFile.bind fun text => EnvFile.setTo? s.inherited (EnvFile.read text) key

theorem Surroundings.environment_eq_or (s : Surroundings) (key : String) :
    s.environment key = (s.inherited key).or (s.setByFile? key) := by
  unfold environment setByFile?
  cases s.envFile with
  | none => exact (Option.or_none).symm
  | some text => exact EnvFile.define_eq_or s.inherited (EnvFile.read text) key

/-! ## The table -/

/-- The number below a bound that a variable spells, with blanks around it or not. -/
def numberOf? (environment : String → Option String) (key : String) (bound : Nat) : Option Nat :=
  (environment key).bind fun value => natural? bound (Text.trim value.toList)

/-- The word of thirty-two bits that a variable spells. -/
def wordOf? (environment : String → Option String) (key : String) : Option UInt32 :=
  (numberOf? environment key UInt32.size).map UInt32.ofNat

/-- The settings that a document gives as a configuration file, over the defaults. -/
def givenByFile (document : Option Json) : Settings :=
  Settings.given (document.bind (Json.field? ["engine"] "engine"))

/-- The settings by their layers: the document in the configuration file, if there is one, the
variables, and the options. -/
def layered (document : Option Json) (environment : String → Option String) (o : Options) :
    Settings :=
  let file := givenByFile document
  let number := numberOf? environment
  let word := wordOf? environment
  { limits :=
      { maxSectors :=
          (o.maxSectors.or (number "SGV_MAX_NODES" UInt64.size)).getD file.limits.maxSectors
        maxHops := (o.maxHops.or (word "SGV_MAX_HOPS")).getD file.limits.maxHops }
    minimizer :=
      { maxPasses := (word "SGV_MAX_PASSES").getD file.minimizer.maxPasses
        maxFlips := (word "SGV_MAX_FLIPS").getD file.minimizer.maxFlips }
    layout :=
      { file.layout with
        iterations := (word "SGV_LAYOUT_ITERATIONS").getD file.layout.iterations } }

/-! ## What has to be readable -/

/-- A variable is not set, or spells a number below a bound. (A variable of the process whose value
is no text is not set for the program.) -/
def VariableParses (environment : String → Option String) (key : String) (bound : Nat) : Prop :=
  (environment key).isSome → (numberOf? environment key bound).isSome

/-- The variables of the settings, each with the bound of its field. -/
def settingsVariables : List (String × Nat) :=
  [("SGV_MAX_NODES", UInt64.size), ("SGV_MAX_HOPS", UInt32.size), ("SGV_MAX_PASSES", UInt32.size),
    ("SGV_MAX_FLIPS", UInt32.size), ("SGV_LAYOUT_ITERATIONS", UInt32.size)]

/-- Every variable of the settings that is set spells a number of its field. -/
def VariablesParse (environment : String → Option String) : Prop :=
  ∀ v ∈ settingsVariables, VariableParses environment v.1 v.2

namespace Surroundings

/-- What the path of the configuration file leads to. -/
def configFile (s : Surroundings) : FileState := (s.configPath?.map s.file).getD .absent

/-- The document in the configuration file. -/
def configDocument? (s : Surroundings) : Option Json :=
  match s.configFile with
  | .text contents => Json.read? contents
  | _ => none

/-- There is no configuration file, or it can be read and spells settings. -/
def ConfigParses (s : Surroundings) : Prop :=
  match s.configFile with
  | .absent => True
  | .unreadable => False
  | .text contents => ∃ j, Json.read? contents = some j ∧ (configOfJson? j).isSome

end Surroundings

/-! ## Steps that may fail -/

section Steps

variable {ε α β : Type} {x : Except ε α} {b : β}

theorem bind_eq_ok_iff {f : α → Except ε β} :
    (x >>= f) = .ok b ↔ ∃ a, x = .ok a ∧ f a = .ok b := by
  cases x <;> simp [bind, Except.bind]

theorem map_eq_ok_iff {f : α → β} : x.map f = .ok b ↔ ∃ a, x = .ok a ∧ f a = b := by
  cases x <;> simp [Except.map]

theorem map_eq_error_iff {f : α → β} {e : ε} : x.map f = .error e ↔ x = .error e := by
  cases x <;> simp [Except.map]

end Steps

/-! ## The file -/

theorem eq_givenByFile {j : Json} {base : Settings} (h : configOfJson? j = some base) :
    base = givenByFile (some j) := by
  obtain ⟨r, hr, hbase⟩ := Option.bind_eq_some_iff.1 h
  exact Json.eq_of_orElse hr (by decide) rfl rfl (fun _ _ => Settings.eq_given) hbase

/-- **The settings of the file**, when it can be read. -/
theorem fileSettings_eq_ok_iff {s : Surroundings} {base : Settings} :
    fileSettings s.file s.configPath? = .ok base ↔
      s.ConfigParses ∧ base = givenByFile s.configDocument? := by
  unfold fileSettings Surroundings.ConfigParses Surroundings.configDocument? Surroundings.configFile
  have hnone : (Except.ok {} : Except Failure Settings) = .ok base ↔ base = givenByFile none := by
    rw [Except.ok.injEq, eq_comm]
    exact Iff.rfl
  cases s.configPath? with
  | none => simpa using hnone
  | some path =>
    dsimp only [Option.map_some, Option.getD_some]
    cases s.file path with
    | absent => simpa using hnone
    | unreadable => simp
    | text contents =>
      dsimp only
      cases Json.read? contents with
      | none => simp
      | some j =>
        cases hconfig : configOfJson? j with
        | none => simp [hconfig]
        | some settings =>
          have hparses : ∃ k, some j = some k ∧ (configOfJson? k).isSome :=
            ⟨j, rfl, Option.isSome_of_eq_some hconfig⟩
          simp only [Option.bind_some, hconfig, Except.ok.injEq, hparses, true_and]
          rw [eq_givenByFile hconfig, eq_comm]

/-! ## The variables -/

theorem numberVariable_eq_ok_iff {environment : String → Option String} {key : String} {bound : Nat}
    {n : Option Nat} :
    numberVariable environment key bound = .ok n ↔
      VariableParses environment key bound ∧ n = numberOf? environment key bound := by
  unfold numberVariable VariableParses numberOf?
  cases environment key with
  | none => simp [eq_comm]
  | some value =>
    cases hn : natural? bound (Text.trim value.toList) with
    | none => simp [hn]
    | some m => simp [hn, eq_comm]

theorem wordVariable_eq_ok_iff {environment : String → Option String} {key : String}
    {w : Option UInt32} :
    wordVariable environment key = .ok w ↔
      VariableParses environment key UInt32.size ∧ w = wordOf? environment key := by
  unfold wordVariable wordOf?
  rw [bind_eq_ok_iff]
  simp only [numberVariable_eq_ok_iff]
  constructor
  · rintro ⟨n, ⟨hparses, rfl⟩, hw⟩
    exact ⟨hparses, (Except.ok.inj hw).symm⟩
  · rintro ⟨hparses, rfl⟩
    exact ⟨_, ⟨hparses, rfl⟩, rfl⟩

/-- **The variables over the file**, when all of them can be read. -/
theorem withEnvironment_eq_ok_iff {document : Option Json} {environment : String → Option String}
    {t : Settings} :
    withEnvironment environment (givenByFile document) = .ok t ↔
      VariablesParse environment ∧ t = layered document environment {} := by
  have hall : VariablesParse environment ↔
      VariableParses environment "SGV_MAX_NODES" UInt64.size ∧
      VariableParses environment "SGV_MAX_HOPS" UInt32.size ∧
      VariableParses environment "SGV_MAX_PASSES" UInt32.size ∧
      VariableParses environment "SGV_MAX_FLIPS" UInt32.size ∧
      VariableParses environment "SGV_LAYOUT_ITERATIONS" UInt32.size := by
    simp [VariablesParse, settingsVariables]
  rw [hall]
  unfold withEnvironment
  simp only [bind_eq_ok_iff, numberVariable_eq_ok_iff, wordVariable_eq_ok_iff]
  constructor
  · rintro ⟨_, ⟨h0, rfl⟩, _, ⟨h1, rfl⟩, _, ⟨h2, rfl⟩, _, ⟨h3, rfl⟩, _, ⟨h4, rfl⟩, ht⟩
    exact ⟨⟨h0, h1, h2, h3, h4⟩, (Except.ok.inj ht).symm⟩
  · rintro ⟨⟨h0, h1, h2, h3, h4⟩, rfl⟩
    exact ⟨_, ⟨h0, rfl⟩, _, ⟨h1, rfl⟩, _, ⟨h2, rfl⟩, _, ⟨h3, rfl⟩, _, ⟨h4, rfl⟩, rfl⟩

/-! ## The check and the options -/

theorem checkSettings_eq_ok_iff {s t : Settings} :
    checkSettings s = .ok t ↔ s.validate = .ok () ∧ t = s := by
  unfold checkSettings
  cases s.validate with
  | ok => simp [eq_comm]
  | error e => simp

/-- The check does not look at what an option replaces. -/
theorem validate_withOptions (o : Options) (s : Settings) :
    (withOptions o s).validate = s.validate := rfl

theorem withOptions_layered (o : Options) (document : Option Json)
    (environment : String → Option String) :
    withOptions o (layered document environment {}) = layered document environment o := by
  simp [withOptions, layered, Option.getD_or]

/-- **The settings below the options**, when there are any. -/
theorem load_eq_ok_iff {s : Surroundings} {t : Settings} :
    load s = .ok t ↔
      (s.ConfigParses ∧ VariablesParse s.environment ∧
        (layered s.configDocument? s.environment {}).validate = .ok ()) ∧
      t = layered s.configDocument? s.environment {} := by
  unfold load
  simp only [bind_eq_ok_iff, fileSettings_eq_ok_iff, checkSettings_eq_ok_iff]
  constructor
  · rintro ⟨_, ⟨hconfig, rfl⟩, _, henv, hvalid, rfl⟩
    obtain ⟨hvariables, rfl⟩ := withEnvironment_eq_ok_iff.1 henv
    exact ⟨⟨hconfig, hvariables, hvalid⟩, rfl⟩
  · rintro ⟨⟨hconfig, hvariables, hvalid⟩, rfl⟩
    exact ⟨_, ⟨hconfig, rfl⟩, _, withEnvironment_eq_ok_iff.2 ⟨hvariables, rfl⟩, hvalid, rfl⟩

/-- **The options** are put over settings that have been checked, and checking again finds the
same. -/
theorem effectiveSettings_eq_map (s : Surroundings) (o : Options) :
    effectiveSettings s o = (load s).map (withOptions o) := by
  unfold effectiveSettings
  cases hload : load s with
  | error f => rfl
  | ok t =>
    obtain ⟨⟨-, -, hvalid⟩, rfl⟩ := load_eq_ok_iff.1 hload
    exact checkSettings_eq_ok_iff.2 ⟨(validate_withOptions o _).trans hvalid, rfl⟩

/-- **The layers of the settings.** There are settings exactly if the configuration file and
the variables can be read and what they give can be used, and then they are those of the
table. A failure is the one there is without options. The variables are those of the
process, over those of the environment file. -/
theorem effectiveSettings_eq_layered (s : Surroundings) (o : Options) :
    (∀ t, effectiveSettings s o = .ok t ↔
      (s.ConfigParses ∧ VariablesParse s.environment ∧
        (layered s.configDocument? s.environment {}).validate = .ok ()) ∧
      t = layered s.configDocument? s.environment o) ∧
    (∀ f, effectiveSettings s o = .error f ↔ load s = .error f) ∧
    ∀ key, s.environment key = (s.inherited key).or (s.setByFile? key) := by
  refine ⟨fun t => ?_, fun f => ?_, s.environment_eq_or⟩
  · rw [effectiveSettings_eq_map, map_eq_ok_iff]
    simp only [load_eq_ok_iff]
    constructor
    · rintro ⟨_, ⟨hall, rfl⟩, rfl⟩
      exact ⟨hall, withOptions_layered ..⟩
    · rintro ⟨hall, rfl⟩
      exact ⟨_, ⟨hall, rfl⟩, withOptions_layered ..⟩
  · rw [effectiveSettings_eq_map, map_eq_error_iff]

/-- Surroundings in which every layer gives something. -/
def everyLayer : Surroundings where
  inherited key :=
    if key = "HOME" then some "/home" else if key = "SGV_MAX_HOPS" then some " 5 " else none
  envFile := some "SGV_MAX_HOPS=7\nSGV_MAX_FLIPS=4\n"
  userHome := none
  file path :=
    if path = "/home/.config/sgv/config.json" then
      .text ("\x7b\"engine\": \x7b\"limits\": [20, 2], \"layout\": "
        ++ "\x7b\"iterations\": 50\x7d\x7d\x7d")
    else .absent

example : (effectiveSettings everyLayer { maxSectors := some 9 }).toOption =
    some { limits := ⟨9, 5⟩, minimizer := ⟨3, 4⟩, layout := { iterations := 50 } } := by
  decide +kernel

end LaneChart.Cli
