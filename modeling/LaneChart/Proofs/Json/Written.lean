import LaneChart.Proofs.Json.Scan

/-!
# Written documents are read again

A document is written in one of two forms, without blanks or with each item on a line of its own.
The reader is the same for both, so most of what is proved here is about texts and not about
either writer: `ReadsAs t v` says that a scan finds the value `v` at the front of the text `t`,
whatever follows, with as much fuel as the text is long. Each kind of value has one lemma that
says which texts read as it, in terms of the texts of its parts and with blanks where they may
stand. A writer is then followed along the document.

> `read?_render`, `read?_renderIndented`: a document that is spelled properly is read
> again from either form.
-/

namespace LaneChart.Json

/-! ## Values -/

/-- A text reads as a value: a scan finds the value at its front, with as much fuel as the
text is long, and goes on behind it. The first character tells it from a blank and from
the end of a list. -/
structure ReadsAs (t : List Char) (v : Json) : Prop where
  head : ∃ c cs, t = c :: cs ∧ isBlank c = false ∧ c ≠ ']'
  scan : ∀ {fuel rest}, t.length ≤ fuel → Breaks rest → scanValue fuel (t ++ rest) = some (v, rest)

/-- A text reads as the rest of a list, from some item on to the closing bracket. -/
structure ItemsReadAs (t : List Char) (items : List Json) : Prop where
  head : ∃ b c cs, Blank b ∧ t = b ++ c :: cs ∧ isBlank c = false ∧ c ≠ ']'
  scan : ∀ {fuel} acc rest, t.length ≤ fuel →
    scanItems fuel acc (t ++ rest) = some (.array (acc.reverse ++ items), rest)

/-- A text reads as the rest of an object, from some member on to the closing brace. -/
structure MembersReadAs (t : List Char) (members : List (List Char × Json)) : Prop where
  head : ∃ b cs, Blank b ∧ t = b ++ '"' :: cs
  scan : ∀ {fuel} acc rest, t.length ≤ fuel →
    scanMembers fuel acc (t ++ rest) = some (.object (acc.reverse ++ members), rest)

theorem scanValue_blanks {b : List Char} (hb : Blank b) (fuel : Nat) (cs : List Char) :
    scanValue fuel (b ++ cs) = scanValue fuel cs := by
  cases fuel with
  | zero => rfl
  | succ fuel =>
    unfold scanValue
    rw [skipBlanks_append hb]

/-- Fuel for a text is fuel for more than nothing. -/
theorem exists_fuel {t : List Char} {fuel : Nat} (hfuel : t.length ≤ fuel) (hne : t ≠ []) :
    ∃ n, fuel = n + 1 := by
  have hpos := List.length_pos_iff.2 hne
  exact ⟨fuel - 1, by omega⟩

section Scalars

theorem readsAs_null : ReadsAs "null".toList .null := by
  refine ⟨⟨'n', _, rfl, rfl, by decide⟩, ?_⟩
  intro fuel rest hfuel _
  obtain ⟨n, rfl⟩ := exists_fuel hfuel (by decide)
  rfl

theorem readsAs_true : ReadsAs "true".toList (.bool true) := by
  refine ⟨⟨'t', _, rfl, rfl, by decide⟩, ?_⟩
  intro fuel rest hfuel _
  obtain ⟨n, rfl⟩ := exists_fuel hfuel (by decide)
  rfl

theorem readsAs_false : ReadsAs "false".toList (.bool false) := by
  refine ⟨⟨'f', _, rfl, rfl, by decide⟩, ?_⟩
  intro fuel rest hfuel _
  obtain ⟨n, rfl⟩ := exists_fuel hfuel (by decide)
  rfl

theorem readsAs_quoted {raw : List Char} (h : Enclosed raw) :
    ReadsAs (quoted raw) (.string raw) := by
  refine ⟨⟨'"', _, rfl, rfl, by decide⟩, ?_⟩
  intro fuel rest hfuel _
  obtain ⟨n, rfl⟩ := exists_fuel hfuel (List.cons_ne_nil _ _)
  show (scanString [] ((raw ++ ['"']) ++ rest)).map _ = _
  rw [List.append_assoc, List.singleton_append, scanString_of_enclosed h]
  rfl

/-- A character that a number starts with: its sign or a digit. -/
def StartsNumber (c : Char) : Prop := c = '-' ∨ isDigit c = true

theorem StartsNumber.ne {c d : Char} (h : StartsNumber c) (hsign : d ≠ '-')
    (hdigit : isDigit d = false) : c ≠ d := by
  rintro rfl
  rcases h with rfl | h
  · exact hsign rfl
  · exact Bool.false_ne_true (hdigit.symm.trans h)

theorem StartsNumber.isBlank_eq {c : Char} (h : StartsNumber c) : isBlank c = false := by
  unfold isBlank
  rw [decide_eq_false (h.ne (d := ' ') (by decide) rfl),
    decide_eq_false (h.ne (d := '\n') (by decide) rfl),
    decide_eq_false (h.ne (d := '\t') (by decide) rfl),
    decide_eq_false (h.ne (d := '\r') (by decide) rfl)]
  rfl

theorem exists_startsNumber (n : Number) : ∃ c cs, n.text = c :: cs ∧ StartsNumber c := by
  rw [Number.text_eq]
  cases n.negative with
  | true => exact ⟨'-', _, rfl, .inl rfl⟩
  | false =>
    obtain ⟨d, ds, hds⟩ := List.exists_cons_of_ne_nil (naturalText_ne_nil n.whole)
    have hdigit : isDigit d = true := isDigit_of_mem_naturalText (hds ▸ List.mem_cons_self ..)
    exact ⟨d, _, by rw [hds]; rfl, .inr hdigit⟩

/-- What starts like a number is no other value. -/
theorem scanValue_number {c : Char} (h : StartsNumber c) (k : Nat) (cs : List Char) :
    scanValue (k + 1) (c :: cs) = (scanNumber (c :: cs)).map fun m => (.number m.1, m.2) := by
  unfold scanValue
  rw [skipBlanks_cons h.isBlank_eq]
  split
  · next heq => exact absurd heq (List.cons_ne_nil _ _)
  · next heq => exact absurd (List.cons.inj heq).1 (h.ne (by decide) rfl)
  · next heq => exact absurd (List.cons.inj heq).1 (h.ne (by decide) rfl)
  · next heq => exact absurd (List.cons.inj heq).1 (h.ne (by decide) rfl)
  · next heq => exact absurd (List.cons.inj heq).1 (h.ne (by decide) rfl)
  · next heq => exact absurd (List.cons.inj heq).1 (h.ne (by decide) rfl)
  · next heq => exact absurd (List.cons.inj heq).1 (h.ne (by decide) rfl)
  · rfl

theorem readsAs_text {n : Number} (h : n.WellFormed) : ReadsAs n.text (.number n) := by
  obtain ⟨c, cs, htext, hstart⟩ := exists_startsNumber n
  refine ⟨⟨c, cs, htext, hstart.isBlank_eq, hstart.ne (by decide) rfl⟩, ?_⟩
  intro fuel rest hfuel hrest
  obtain ⟨k, rfl⟩ := exists_fuel hfuel (htext ▸ List.cons_ne_nil _ _)
  have hscan := scanNumber_text h hrest
  rw [htext, List.cons_append] at hscan ⊢
  rw [scanValue_number hstart, hscan]
  rfl

end Scalars

/-! ### Lists -/

section Lists

variable {b b' t t' : List Char} {v : Json} {items : List Json}

theorem readsAs_emptyArray : ReadsAs "[]".toList (.array []) := by
  refine ⟨⟨'[', _, rfl, rfl, by decide⟩, ?_⟩
  intro fuel rest hfuel _
  obtain ⟨n, rfl⟩ := exists_fuel hfuel (by decide)
  rfl

/-- The first character of an item is the first one behind the blanks in front of it. -/
theorem ReadsAs.head_append (ht : ReadsAs t v) (hb : Blank b) (cs : List Char) :
    ∃ b' c cs', Blank b' ∧ b ++ (t ++ cs) = b' ++ c :: cs' ∧ isBlank c = false ∧ c ≠ ']' := by
  obtain ⟨c, t', rfl, hblank, hbracket⟩ := ht.head
  exact ⟨b, c, t' ++ cs, hb, rfl, hblank, hbracket⟩

/-- The last item, with blanks around it, and the closing bracket. -/
theorem ReadsAs.last (ht : ReadsAs t v) (hb : Blank b) (hb' : Blank b') :
    ItemsReadAs (b ++ (t ++ (b' ++ [']']))) [v] := by
  refine ⟨ht.head_append hb _, ?_⟩
  intro fuel acc rest hfuel
  simp only [List.length_append, List.length_singleton] at hfuel
  obtain ⟨n, rfl⟩ : ∃ n, fuel = n + 1 := ⟨fuel - 1, by omega⟩
  have hbreaks : Breaks (b' ++ ']' :: rest) := (breaks_cons (by decide) rest).append hb'
  have hvalue : scanValue n (b ++ (t ++ (b' ++ ']' :: rest))) = some (v, b' ++ ']' :: rest) := by
    rw [scanValue_blanks hb, ht.scan (by omega) hbreaks]
  simp only [List.append_assoc, List.singleton_append]
  unfold scanItems
  rw [hvalue]
  simp only [skipBlanks_append hb']
  show some (Json.array (v :: acc).reverse, rest) = _
  rw [List.reverse_cons]

/-- An item, with blanks in front of it, before others. -/
theorem ReadsAs.before (ht : ReadsAs t v) (hb : Blank b) (h : ItemsReadAs t' items) :
    ItemsReadAs (b ++ (t ++ ',' :: t')) (v :: items) := by
  refine ⟨ht.head_append hb _, ?_⟩
  intro fuel acc rest hfuel
  simp only [List.length_append, List.length_cons] at hfuel
  obtain ⟨n, rfl⟩ : ∃ n, fuel = n + 1 := ⟨fuel - 1, by omega⟩
  have hbreaks : Breaks (',' :: (t' ++ rest)) := breaks_cons (by decide) _
  have hvalue : scanValue n (b ++ (t ++ ',' :: (t' ++ rest))) = some (v, ',' :: (t' ++ rest)) := by
    rw [scanValue_blanks hb, ht.scan (by omega) hbreaks]
  simp only [List.append_assoc, List.cons_append]
  unfold scanItems
  rw [hvalue]
  show scanItems n (v :: acc) (t' ++ rest) = _
  rw [h.scan _ _ (by omega), List.reverse_cons, List.append_assoc, List.singleton_append]

theorem ItemsReadAs.readsAs (h : ItemsReadAs t items) : ReadsAs ('[' :: t) (.array items) := by
  refine ⟨⟨'[', t, rfl, rfl, by decide⟩, ?_⟩
  intro fuel rest hfuel _
  rw [List.length_cons] at hfuel
  obtain ⟨n, rfl⟩ : ∃ n, fuel = n + 1 := ⟨fuel - 1, by omega⟩
  have hscan := h.scan [] rest (show t.length ≤ n by omega)
  obtain ⟨b, c, cs, hb, htext, hblank, hbracket⟩ := h.head
  have hskip : skipBlanks (t ++ rest) = c :: (cs ++ rest) := by
    rw [htext, List.append_assoc, skipBlanks_append hb]
    exact skipBlanks_cons hblank _
  unfold scanValue
  rw [List.cons_append, skipBlanks_cons (by decide)]
  simp only [hskip]
  split
  · next heq => exact absurd (List.cons.inj heq).1 hbracket
  · exact hscan

end Lists

/-! ### Objects -/

section Objects

variable {b b' s t t' k : List Char} {v : Json} {members : List (List Char × Json)}

theorem readsAs_emptyObject : ReadsAs ['\x7b', '\x7d'] (.object []) := by
  refine ⟨⟨'\x7b', _, rfl, rfl, by decide⟩, ?_⟩
  intro fuel rest hfuel _
  obtain ⟨n, rfl⟩ := exists_fuel hfuel (by decide)
  rfl

/-- How the scan of an object goes on behind the value of a member. -/
def afterMember (n : Nat) (acc : List (List Char × Json)) (k : List Char) :
    Option (Json × List Char) → Option (Json × List Char)
  | none => none
  | some (v, rest) =>
    match skipBlanks rest with
    | ',' :: rest => scanMembers n ((k, v) :: acc) rest
    | '\x7d' :: rest => some (.object ((k, v) :: acc).reverse, rest)
    | _ => none

/-- Up to the value of a member the scan of an object finds the name. -/
theorem scanMembers_name (hb : Blank b) (hk : Enclosed k) (hs : Blank s) (n : Nat)
    (acc : List (List Char × Json)) (cs : List Char) :
    scanMembers (n + 1) acc (b ++ (quoted k ++ ':' :: (s ++ cs))) =
      afterMember n acc k (scanValue n cs) := by
  have hname : scanString [] (k ++ ['"'] ++ ':' :: (s ++ cs)) = some (k, ':' :: (s ++ cs)) := by
    rw [List.append_assoc, List.singleton_append, scanString_of_enclosed hk]
  have hopen : quoted k ++ ':' :: (s ++ cs) = '"' :: (k ++ ['"'] ++ ':' :: (s ++ cs)) := rfl
  conv => lhs; unfold scanMembers
  rw [skipBlanks_append hb, hopen, skipBlanks_cons (by decide)]
  simp only [hname]
  show afterMember n acc k (scanValue n (s ++ cs)) = _
  rw [scanValue_blanks hs]

/-- The last member, with blanks around it, and the closing brace. -/
theorem ReadsAs.lastMember (ht : ReadsAs t v) (hb : Blank b) (hk : Enclosed k) (hs : Blank s)
    (hb' : Blank b') :
    MembersReadAs (b ++ (quoted k ++ ':' :: (s ++ (t ++ (b' ++ ['\x7d']))))) [(k, v)] := by
  refine ⟨⟨b, _, hb, rfl⟩, ?_⟩
  intro fuel acc rest hfuel
  simp only [List.length_append, List.length_cons, List.length_nil] at hfuel
  obtain ⟨n, rfl⟩ : ∃ n, fuel = n + 1 := ⟨fuel - 1, by omega⟩
  have hbreaks : Breaks (b' ++ '\x7d' :: rest) := (breaks_cons (by decide) rest).append hb'
  simp only [List.append_assoc, List.cons_append, List.nil_append]
  rw [scanMembers_name hb hk hs, ht.scan (by omega) hbreaks]
  simp only [afterMember, skipBlanks_append hb']
  show some (Json.object ((k, v) :: acc).reverse, rest) = _
  rw [List.reverse_cons]

/-- A member, with blanks in front of it, before others. -/
theorem ReadsAs.beforeMembers (ht : ReadsAs t v) (hb : Blank b) (hk : Enclosed k) (hs : Blank s)
    (h : MembersReadAs t' members) :
    MembersReadAs (b ++ (quoted k ++ ':' :: (s ++ (t ++ ',' :: t')))) ((k, v) :: members) := by
  refine ⟨⟨b, _, hb, rfl⟩, ?_⟩
  intro fuel acc rest hfuel
  simp only [List.length_append, List.length_cons] at hfuel
  obtain ⟨n, rfl⟩ : ∃ n, fuel = n + 1 := ⟨fuel - 1, by omega⟩
  have hbreaks : Breaks (',' :: (t' ++ rest)) := breaks_cons (by decide) _
  simp only [List.append_assoc, List.cons_append]
  rw [scanMembers_name hb hk hs, ht.scan (by omega) hbreaks]
  show scanMembers n ((k, v) :: acc) (t' ++ rest) = _
  rw [h.scan _ _ (by omega), List.reverse_cons, List.append_assoc, List.singleton_append]

theorem MembersReadAs.readsAs (h : MembersReadAs t members) :
    ReadsAs ('\x7b' :: t) (.object members) := by
  refine ⟨⟨'\x7b', t, rfl, rfl, by decide⟩, ?_⟩
  intro fuel rest hfuel _
  rw [List.length_cons] at hfuel
  obtain ⟨n, rfl⟩ : ∃ n, fuel = n + 1 := ⟨fuel - 1, by omega⟩
  have hscan := h.scan [] rest (show t.length ≤ n by omega)
  obtain ⟨b, cs, hb, htext⟩ := h.head
  have hskip : skipBlanks (t ++ rest) = '"' :: (cs ++ rest) := by
    rw [htext, List.append_assoc, skipBlanks_append hb]
    rfl
  unfold scanValue
  rw [List.cons_append, skipBlanks_cons (by decide)]
  simp only [hskip]
  exact hscan

end Objects

/-! ## The two writers -/

/-- A document that is spelled as the format asks: its strings and names can stand between quotes,
and its numbers have digits where digits belong. -/
inductive WellSpelled : Json → Prop
  | null : WellSpelled .null
  | bool (b : Bool) : WellSpelled (.bool b)
  | number {n : Number} (h : n.WellFormed) : WellSpelled (.number n)
  | string {raw : List Char} (h : Enclosed raw) : WellSpelled (.string raw)
  | array {items : List Json} (h : ∀ v ∈ items, WellSpelled v) : WellSpelled (.array items)
  | object {members : List (List Char × Json)} (hnames : ∀ m ∈ members, Enclosed m.1)
      (h : ∀ m ∈ members, WellSpelled m.2) : WellSpelled (.object members)

section Compact

theorem itemsReadAs_compact {v : Json} {rest : List Json}
    (h : ∀ w ∈ v :: rest, ReadsAs (compact w) w) :
    ItemsReadAs (compactItems (v :: rest) ++ [']']) (v :: rest) := by
  induction rest generalizing v with
  | nil => exact (h v (List.mem_cons_self ..)).last blank_nil blank_nil
  | cons w rest ih =>
    obtain ⟨hv, hrest⟩ := List.forall_mem_cons.1 h
    have htext : compactItems (v :: w :: rest) ++ [']'] =
        compact v ++ ',' :: (compactItems (w :: rest) ++ [']']) := by
      rw [compactItems, List.append_assoc, List.cons_append]
      exact List.cons_ne_nil w rest
    rw [htext]
    exact hv.before blank_nil (ih hrest)

theorem membersReadAs_compact {m : List Char × Json} {rest : List (List Char × Json)}
    (hnames : ∀ n ∈ m :: rest, Enclosed n.1) (h : ∀ n ∈ m :: rest, ReadsAs (compact n.2) n.2) :
    MembersReadAs (compactMembers (m :: rest) ++ ['\x7d']) (m :: rest) := by
  induction rest generalizing m with
  | nil =>
    have htext :
        compactMembers [m] ++ ['\x7d'] = quoted m.1 ++ ':' :: (compact m.2 ++ ['\x7d']) := by
      rw [compactMembers, List.append_assoc, List.cons_append]
    rw [htext]
    exact (h m (List.mem_cons_self ..)).lastMember blank_nil (hnames m (List.mem_cons_self ..))
      blank_nil blank_nil
  | cons n rest ih =>
    obtain ⟨hm, hrest⟩ := List.forall_mem_cons.1 h
    obtain ⟨hname, hothers⟩ := List.forall_mem_cons.1 hnames
    have htext : compactMembers (m :: n :: rest) ++ ['\x7d'] =
        quoted m.1 ++ ':' :: (compact m.2 ++ ',' :: (compactMembers (n :: rest) ++ ['\x7d'])) := by
      rw [compactMembers]
      · simp only [List.append_assoc, List.cons_append]
      · exact List.cons_ne_nil n rest
    rw [htext]
    exact hm.beforeMembers blank_nil hname blank_nil (ih hothers hrest)

theorem WellSpelled.readsAs_compact {j : Json} (h : WellSpelled j) : ReadsAs (compact j) j := by
  induction h with
  | null => exact readsAs_null
  | bool b =>
    cases b with
    | true => exact readsAs_true
    | false => exact readsAs_false
  | number h => exact readsAs_text h
  | string h => exact readsAs_quoted h
  | @array items _ ih =>
    cases items with
    | nil => exact readsAs_emptyArray
    | cons v rest => exact (itemsReadAs_compact ih).readsAs
  | @object members hnames _ ih =>
    cases members with
    | nil => exact readsAs_emptyObject
    | cons m rest => exact (membersReadAs_compact hnames ih).readsAs

end Compact

section Indented

theorem itemsReadAs_indented {v : Json} {rest : List Json} (depth outer : Nat)
    (h : ∀ w ∈ v :: rest, ReadsAs (indented depth w) w) :
    ItemsReadAs (newline depth ++ (indented depth v ++ (indentedItems depth rest ++
      (newline outer ++ [']'])))) (v :: rest) := by
  induction rest generalizing v with
  | nil => exact (h v (List.mem_cons_self ..)).last (blank_newline depth) (blank_newline outer)
  | cons w rest ih =>
    obtain ⟨hv, hrest⟩ := List.forall_mem_cons.1 h
    have htext : indentedItems depth (w :: rest) ++ (newline outer ++ [']']) =
        ',' :: (newline depth ++ (indented depth w ++ (indentedItems depth rest ++
          (newline outer ++ [']'])))) := by
      rw [indentedItems]
      simp only [List.append_assoc, List.cons_append]
    rw [htext]
    exact hv.before (blank_newline depth) (ih hrest)

theorem membersReadAs_indented {m : List Char × Json} {rest : List (List Char × Json)}
    (depth outer : Nat) (hnames : ∀ n ∈ m :: rest, Enclosed n.1)
    (h : ∀ n ∈ m :: rest, ReadsAs (indented depth n.2) n.2) :
    MembersReadAs (newline depth ++ (quoted m.1 ++ ':' :: ([' '] ++ (indented depth m.2 ++
      (indentedMembers depth rest ++ (newline outer ++ ['\x7d'])))))) (m :: rest) := by
  have hspace : Blank [' '] := by
    intro c hc
    obtain rfl := List.mem_singleton.1 hc
    rfl
  induction rest generalizing m with
  | nil =>
    exact (h m (List.mem_cons_self ..)).lastMember (blank_newline depth)
      (hnames m (List.mem_cons_self ..)) hspace (blank_newline outer)
  | cons n rest ih =>
    obtain ⟨hm, hrest⟩ := List.forall_mem_cons.1 h
    obtain ⟨hname, hothers⟩ := List.forall_mem_cons.1 hnames
    have htext : indentedMembers depth (n :: rest) ++ (newline outer ++ ['\x7d']) =
        ',' :: (newline depth ++ (quoted n.1 ++ ':' :: ([' '] ++ (indented depth n.2 ++
          (indentedMembers depth rest ++ (newline outer ++ ['\x7d'])))))) := by
      rw [indentedMembers]
      simp only [List.append_assoc, List.cons_append, List.nil_append]
    rw [htext]
    exact hm.beforeMembers (blank_newline depth) hname hspace (ih hothers hrest)

theorem WellSpelled.readsAs_indented {j : Json} (h : WellSpelled j) (depth : Nat) :
    ReadsAs (indented depth j) j := by
  induction h generalizing depth with
  | null => exact readsAs_null
  | bool b =>
    cases b with
    | true => exact readsAs_true
    | false => exact readsAs_false
  | number h => exact readsAs_text h
  | string h => exact readsAs_quoted h
  | @array items _ ih =>
    cases items with
    | nil => exact readsAs_emptyArray
    | cons v rest =>
      have hitems := itemsReadAs_indented (depth + 1) depth fun w hw => ih w hw (depth + 1)
      have htext := hitems.readsAs
      rw [indented]
      simp only [List.append_assoc] at htext ⊢
      exact htext
  | @object members hnames _ ih =>
    cases members with
    | nil => exact readsAs_emptyObject
    | cons m rest =>
      have hmembers := membersReadAs_indented (depth + 1) depth hnames
        fun n hn => ih n hn (depth + 1)
      have htext := hmembers.readsAs
      obtain ⟨k, v⟩ := m
      rw [indented]
      simp only [List.append_assoc, List.cons_append, List.nil_append] at htext ⊢
      exact htext

end Indented

/-- A text that reads as a value spells it, when nothing follows. -/
theorem ReadsAs.read?_eq {t : List Char} {v : Json} (h : ReadsAs t v) :
    read? (String.ofList t) = some v := by
  have hscan := h.scan (show t.length ≤ 2 * t.length + 2 by omega) breaks_nil
  rw [List.append_nil] at hscan
  unfold read?
  simp only [String.toList_ofList, hscan]
  rfl

/-- **A document is read again from its compact text.** -/
theorem read?_render {j : Json} (h : WellSpelled j) : read? j.render = some j :=
  h.readsAs_compact.read?_eq

/-- **A document is read again from its indented text.** -/
theorem read?_renderIndented {j : Json} (h : WellSpelled j) : read? j.renderIndented = some j :=
  (h.readsAs_indented 0).read?_eq

end LaneChart.Json
