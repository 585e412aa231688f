import LaneChart.Json.Printer
import LaneChart.Json.Reader
import Mathlib.Data.List.Basic

/-!
# Tokens of a document

What the scanners of strings and numbers find at the front of a text that was written. A string
shows where it ends: `Enclosed` says of the characters between two quotes that the scan goes through
them as they stand, whatever they are, and it holds of all that is put together from pieces that it
holds of. A number does not show where it ends. It is read as far as it goes, so what follows must
not go on with it (`Breaks`); a comma, a bracket or a blank does not.

> `enclosed_escape`: every text can be enclosed, written with escapes.
> `scanNumber_text`: a number is read as it is written.
-/

namespace LaneChart.Json

open Decimal (naturalText)

/-! ## Blanks -/

/-- A text of blanks. -/
def Blank (b : List Char) : Prop := ∀ c ∈ b, isBlank c = true

theorem blank_nil : Blank [] := fun _ h => absurd h List.not_mem_nil

theorem blank_newline (depth : Nat) : Blank (newline depth) := by
  intro c hc
  rcases List.mem_cons.1 hc with rfl | hc
  · rfl
  · obtain ⟨-, rfl⟩ := List.mem_replicate.1 hc
    rfl

theorem skipBlanks_append {b : List Char} (h : Blank b) (cs : List Char) :
    skipBlanks (b ++ cs) = skipBlanks cs :=
  List.dropWhile_append_of_pos h

theorem skipBlanks_cons {c : Char} (h : isBlank c = false) (cs : List Char) :
    skipBlanks (c :: cs) = c :: cs := by
  unfold skipBlanks
  rw [List.dropWhile_cons, h]
  rfl

/-! ## Strings -/

/-- A text that a scan for the closing quote goes through as it stands. -/
def Enclosed (raw : List Char) : Prop :=
  ∀ acc rest, scanString acc (raw ++ rest) = scanString (raw.reverse ++ acc) rest

theorem Enclosed.append {s t : List Char} (hs : Enclosed s) (ht : Enclosed t) :
    Enclosed (s ++ t) := by
  intro acc rest
  rw [List.append_assoc, hs, ht, List.reverse_append, List.append_assoc]

theorem enclosed_flatMap {α : Type} {f : α → List Char} {l : List α} (h : ∀ a ∈ l, Enclosed (f a)) :
    Enclosed (l.flatMap f) := by
  induction l with
  | nil => exact fun _ _ => rfl
  | cons a l ih =>
    obtain ⟨ha, hl⟩ := List.forall_mem_cons.1 h
    rw [List.flatMap_cons]
    exact ha.append (ih hl)

theorem enclosed_singleton {c : Char} (hquote : c ≠ '"') (hslash : c ≠ '\\')
    (hcontrol : 0x20 ≤ c.toNat) : Enclosed [c] := by
  intro acc rest
  have hplain : (decide (c.toNat < 0x20) || decide (c = '\\')) = false := by
    simp only [Bool.or_eq_false_iff, decide_eq_false_iff_not, Nat.not_lt]
    exact ⟨hcontrol, hslash⟩
  show scanString acc (c :: rest) = scanString (c :: acc) rest
  conv => lhs; unfold scanString
  split
  · next heq => exact absurd (List.cons.inj heq).1 hquote
  · next heq => exact absurd (List.cons.inj heq).1 hslash
  · next heq => exact absurd (List.cons.inj heq).1 hslash
  · next heq =>
    obtain ⟨rfl, rfl⟩ := List.cons.inj heq
    rw [hplain]
    rfl
  · next heq => exact absurd heq (List.cons_ne_nil _ _)

theorem enclosed_escapeChar (c : Char) : Enclosed (escapeChar c) := by
  unfold escapeChar
  split
  · exact fun _ _ => rfl
  split
  · exact fun _ _ => rfl
  next hquote hslash =>
  split
  · exact fun _ _ => rfl
  split
  · exact fun _ _ => rfl
  split
  · exact fun _ _ => rfl
  split
  · exact fun _ _ => rfl
  split
  · exact fun _ _ => rfl
  split
  · next hcontrol =>
    intro acc rest
    have hhex := hex4?_hexDigit hcontrol
    show scanString acc
      ('\\' :: 'u' :: '0' :: '0' :: hexDigit (c.toNat / 16) :: hexDigit c.toNat :: rest) = _
    conv => lhs; unfold scanString
    simp only [hhex, Option.isSome_some, if_true]
    rfl
  · next hcontrol => exact enclosed_singleton hquote hslash (Nat.not_lt.1 hcontrol)

theorem enclosed_escape (s : List Char) : Enclosed (escape s) :=
  enclosed_flatMap fun c _ => enclosed_escapeChar c

/-- What stands between quotes is found up to the closing one. -/
theorem scanString_of_enclosed {raw : List Char} (h : Enclosed raw) (rest : List Char) :
    scanString [] (raw ++ '"' :: rest) = some (raw, rest) := by
  rw [h, List.append_nil]
  show some (raw.reverse.reverse, rest) = some (raw, rest)
  rw [List.reverse_reverse]

/-! ## Numbers -/

/-- A text that does not start with a digit. -/
def NoDigit (cs : List Char) : Prop := ∀ c, cs.head? = some c → isDigit c = false

/-- A text that does not go on with a number in front of it. -/
def Breaks (cs : List Char) : Prop :=
  ∀ c, cs.head? = some c → isDigit c = false ∧ c ≠ '.' ∧ c ≠ 'e' ∧ c ≠ 'E'

theorem Breaks.noDigit {cs : List Char} (h : Breaks cs) : NoDigit cs := fun c hc => (h c hc).1

theorem breaks_nil : Breaks [] := fun _ hc => absurd hc (by simp)

theorem noDigit_nil : NoDigit [] := breaks_nil.noDigit

theorem noDigit_cons {c : Char} (h : isDigit c = false) (cs : List Char) : NoDigit (c :: cs) := by
  intro d hd
  obtain rfl := Option.some.inj hd
  exact h

theorem breaks_cons {c : Char} (h : isDigit c = false ∧ c ≠ '.' ∧ c ≠ 'e' ∧ c ≠ 'E')
    (cs : List Char) : Breaks (c :: cs) := by
  intro d hd
  obtain rfl := Option.some.inj hd
  exact h

/-- Blanks end a number, and so does what ends it behind them. -/
theorem Breaks.append {b cs : List Char} (hb : Blank b) (h : Breaks cs) : Breaks (b ++ cs) := by
  cases b with
  | nil => exact h
  | cons c b =>
    have hblank := hb c (List.mem_cons_self ..)
    unfold isBlank at hblank
    simp only [Bool.or_eq_true, decide_eq_true_eq] at hblank
    rcases hblank with ((rfl | rfl) | rfl) | rfl <;> exact breaks_cons (by decide) _

theorem isDigit_of_mem_naturalText {n : Nat} {c : Char} (h : c ∈ naturalText n) :
    isDigit c = true := by
  have hdigit := Nat.isDigit_of_mem_toDigits (by decide) (by decide) h
  unfold Char.isDigit at hdigit
  rw [Bool.and_eq_true, decide_eq_true_eq, decide_eq_true_eq] at hdigit
  exact decide_eq_true hdigit

theorem naturalText_ne_nil (n : Nat) : naturalText n ≠ [] := Nat.toDigits_ne_nil

/-- A natural number starts with a digit. -/
theorem naturalText_append_ne (n : Nat) (rest : List Char) {c : Char} (hc : isDigit c = false)
    (cs : List Char) : naturalText n ++ rest ≠ c :: cs := by
  intro heq
  have hhead : (naturalText n).head? = some c := by
    rw [← List.head?_append_of_ne_nil _ (naturalText_ne_nil n), heq]
    rfl
  rw [isDigit_of_mem_naturalText (List.mem_of_head? hhead)] at hc
  exact Bool.false_ne_true hc.symm

/-- Digits are plain characters. -/
theorem enclosed_naturalText (n : Nat) : Enclosed (naturalText n) := by
  have hplain : Enclosed ((naturalText n).flatMap fun c => [c]) := by
    apply enclosed_flatMap
    intro c hc
    have hdigit : '0' ≤ c ∧ c ≤ '9' := of_decide_eq_true (isDigit_of_mem_naturalText hc)
    have hlow : '0'.toNat ≤ c.toNat := hdigit.1
    have hhigh : c.toNat ≤ '9'.toNat := hdigit.2
    refine enclosed_singleton ?_ ?_ (Nat.le_trans (by decide) hlow)
    · rintro rfl
      exact absurd hlow (by decide)
    · rintro rfl
      exact absurd hhigh (by decide)
  rwa [List.flatMap_singleton'] at hplain

/-- Digits are scanned up to the first character that is none. -/
theorem scanDigits_append {ds rest : List Char} (hne : ds ≠ []) (hds : ∀ c ∈ ds, isDigit c = true)
    (hrest : NoDigit rest) : scanDigits (ds ++ rest) = some (ds, rest) := by
  have htake : rest.takeWhile isDigit = [] := by
    cases rest with
    | nil => rfl
    | cons c rest => rw [List.takeWhile_cons, hrest c rfl, if_neg Bool.false_ne_true]
  have hdrop : rest.dropWhile isDigit = rest := by
    cases rest with
    | nil => rfl
    | cons c rest => rw [List.dropWhile_cons, hrest c rfl, if_neg Bool.false_ne_true]
  unfold scanDigits
  rw [List.takeWhile_append_of_pos hds, List.dropWhile_append_of_pos hds, htake, hdrop,
    List.append_nil]
  cases ds with
  | nil => exact absurd rfl hne
  | cons d ds => rfl

theorem scanDigits_naturalText (n : Nat) {rest : List Char} (hrest : NoDigit rest) :
    scanDigits (naturalText n ++ rest) = some (naturalText n, rest) :=
  scanDigits_append (naturalText_ne_nil n) (fun _ hc => isDigit_of_mem_naturalText hc) hrest

/-- A natural number is written without leading zeros. -/
theorem head_naturalText {n : Nat} (h : 0 < n) : (naturalText n).head? ≠ some '0' := by
  unfold naturalText
  induction n using Nat.strongRecOn with
  | ind n ih =>
    rcases Nat.lt_or_ge n 10 with hlt | hge
    · rw [Nat.toDigits_of_lt_base hlt]
      have hdigit : ∀ m : Fin 10, 0 < m.val → m.val.digitChar ≠ '0' := by decide
      intro hzero
      exact hdigit ⟨n, hlt⟩ h (Option.some.inj hzero)
    · rw [Nat.toDigits_of_base_le (by decide) hge,
        List.head?_append_of_ne_nil _ Nat.toDigits_ne_nil]
      exact ih (n / 10) (Nat.div_lt_self h (by decide)) (Nat.div_pos hge (by decide))

theorem scanWhole_naturalText (n : Nat) {rest : List Char} (hrest : NoDigit rest) :
    scanWhole (naturalText n ++ rest) = some (n, rest) := by
  rcases Nat.eq_zero_or_pos n with rfl | hpos
  · show scanWhole ('0' :: rest) = some (0, rest)
    cases rest with
    | nil => rfl
    | cons c rest =>
      show (if isDigit c then none else some (0, c :: rest)) = some (0, c :: rest)
      rw [hrest c rfl, if_neg Bool.false_ne_true]
  · have hhead := head_naturalText hpos
    have hdigits : scanWhole (naturalText n ++ rest) =
        (scanDigits (naturalText n ++ rest)).map fun d => (Nat.ofDigitChars 10 d.1 0, d.2) := by
      conv => lhs; unfold scanWhole
      split
      · next heq =>
        rw [← List.head?_append_of_ne_nil _ (naturalText_ne_nil n), heq] at hhead
        exact absurd rfl hhead
      · rfl
    rw [hdigits, scanDigits_naturalText n hrest]
    show some (Nat.ofDigitChars 10 (Nat.toDigits 10 n) 0, rest) = some (n, rest)
    rw [Nat.ofDigitChars_ten_toDigits]

/-- The part of a number from its point on, if it has one. -/
def placesText (ds : List Char) : List Char := if ds.isEmpty then [] else '.' :: ds

/-- The part of a number from the letter of its exponent on, if it has one. -/
def exponentText : Option Int → List Char
  | none => []
  | some e => 'e' :: ((if e < 0 then ['-'] else []) ++ naturalText e.natAbs)

theorem noDigit_exponentText (exponent : Option Int) {rest : List Char} (hrest : NoDigit rest) :
    NoDigit (exponentText exponent ++ rest) := by
  cases exponent with
  | none => exact hrest
  | some e => exact noDigit_cons (by decide) _

theorem noDigit_placesText (ds : List Char) {rest : List Char} (hrest : NoDigit rest) :
    NoDigit (placesText ds ++ rest) := by
  cases ds with
  | nil => exact hrest
  | cons d ds => exact noDigit_cons (by decide) _

theorem scanPlaces_placesText {ds rest : List Char} (hds : ∀ c ∈ ds, isDigit c = true)
    (hrest : NoDigit rest) (hpoint : rest.head? ≠ some '.') :
    scanPlaces (placesText ds ++ rest) = some (ds, rest) := by
  cases ds with
  | nil =>
    show scanPlaces rest = some ([], rest)
    unfold scanPlaces
    split
    · exact absurd rfl hpoint
    · rfl
  | cons d ds => exact scanDigits_append (List.cons_ne_nil d ds) hds hrest

theorem scanExponent_exponentText (exponent : Option Int) {rest : List Char} (hrest : Breaks rest) :
    scanExponent (exponentText exponent ++ rest) = some (exponent, rest) := by
  cases exponent with
  | none =>
    show scanExponent rest = some (none, rest)
    cases rest with
    | nil => rfl
    | cons c rest =>
      obtain ⟨-, -, hlower, hupper⟩ := hrest c rfl
      have hletter : (decide (c = 'e') || decide (c = 'E')) = false := by
        rw [decide_eq_false hlower, decide_eq_false hupper]
        rfl
      unfold scanExponent
      simp only [hletter, Bool.false_eq_true, if_false]
  | some e =>
    have hdigits := scanDigits_naturalText e.natAbs hrest.noDigit
    have hvalue : Nat.ofDigitChars 10 (naturalText e.natAbs) 0 = e.natAbs :=
      Nat.ofDigitChars_ten_toDigits
    by_cases hneg : e < 0
    · have htext : exponentText (some e) ++ rest =
          'e' :: '-' :: (naturalText e.natAbs ++ rest) := by
        simp only [exponentText, hneg, if_true, List.cons_append, List.nil_append]
      have hback : -((e.natAbs : Nat) : Int) = e := by omega
      rw [htext]
      show (scanDigits (naturalText e.natAbs ++ rest)).map _ = _
      simp only [hdigits, Option.map_some, hvalue, hback]
    · have htext : exponentText (some e) ++ rest = 'e' :: (naturalText e.natAbs ++ rest) := by
        simp only [exponentText, hneg, if_false, List.cons_append, List.nil_append]
      have hback : ((e.natAbs : Nat) : Int) = e := by omega
      rw [htext]
      unfold scanExponent
      simp only [decide_true, Bool.true_or, if_true]
      -- digits come right behind the letter, so neither sign is there
      split
      · next heq => exact absurd heq (naturalText_append_ne _ _ (by decide) _)
      · next heq => exact absurd heq (naturalText_append_ne _ _ (by decide) _)
      · simp only [hdigits, Option.map_some, hvalue, hback]

namespace Number

/-- Whether the places of a number are digits. -/
def WellFormed (n : Number) : Prop := ∀ c ∈ n.places, isDigit c = true

theorem text_eq (n : Number) :
    n.text = (if n.negative then ['-'] else []) ++
      (naturalText n.whole ++ (placesText n.places ++ exponentText n.exponent)) := by
  unfold text placesText
  rw [List.append_assoc, List.append_assoc]
  cases n.exponent <;> rfl

end Number

/-- **A number is read as it is written**, if what follows does not go on with it. -/
theorem scanNumber_text {n : Number} (h : n.WellFormed) {rest : List Char} (hrest : Breaks rest) :
    scanNumber (n.text ++ rest) = some (n, rest) := by
  obtain ⟨negative, whole, places, exponent⟩ := n
  have hexponent := scanExponent_exponentText exponent hrest
  have hafter := noDigit_exponentText exponent hrest.noDigit
  have hpoint : (exponentText exponent ++ rest).head? ≠ some '.' := by
    cases exponent with
    | none => exact fun hdot => (hrest '.' hdot).2.1 rfl
    | some e => simp [exponentText]
  have hplaces : scanPlaces (placesText places ++ (exponentText exponent ++ rest)) =
      some (places, exponentText exponent ++ rest) := scanPlaces_placesText h hafter hpoint
  have hwhole := scanWhole_naturalText whole (noDigit_placesText places hafter)
  rw [Number.text_eq]
  simp only [List.append_assoc]
  unfold scanNumber
  cases negative with
  | true =>
    simp only [if_true, List.cons_append, List.nil_append, hwhole, hplaces, hexponent,
      Option.bind_eq_bind, Option.bind_some]
    rfl
  | false =>
    simp only [if_false, Bool.false_eq_true, List.nil_append]
    split
    · next heq => exact absurd heq (naturalText_append_ne _ _ (by decide) _)
    · simp only [hwhole, hplaces, hexponent, Option.bind_eq_bind, Option.bind_some]
      rfl

end LaneChart.Json
