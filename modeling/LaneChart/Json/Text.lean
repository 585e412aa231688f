/-!
# Escaped text

How a string of characters is written between the quotes of a JSON string. Main statement:
`unescape_escape`, what is written reads back, for every text.

Reading accepts more than writing produces: any character may be spelled by its four hexadecimal
digits, and one beyond sixteen bits by a pair of surrogates. A surrogate that stands alone spells
no character, so such a text is well formed and yet has no meaning; `unescape` refuses it.
-/

namespace LaneChart.Json

/-- The value of a hexadecimal digit. -/
def hexValue? (c : Char) : Option Nat :=
  if '0' ≤ c ∧ c ≤ '9' then some (c.toNat - '0'.toNat)
  else if 'a' ≤ c ∧ c ≤ 'f' then some (c.toNat - 'a'.toNat + 10)
  else if 'A' ≤ c ∧ c ≤ 'F' then some (c.toNat - 'A'.toNat + 10)
  else none

/-- The value of four hexadecimal digits. -/
def hex4? (a b c d : Char) : Option Nat := do
  let a ← hexValue? a
  let b ← hexValue? b
  let c ← hexValue? c
  let d ← hexValue? d
  return ((a * 16 + b) * 16 + c) * 16 + d

/-- The character that a one-letter escape stands for. -/
def simpleEscape? : Char → Option Char
  | '"' => some '"'
  | '\\' => some '\\'
  | '/' => some '/'
  | 'b' => some '\x08'
  | 'f' => some '\x0c'
  | 'n' => some '\n'
  | 'r' => some '\r'
  | 't' => some '\t'
  | _ => none

/-- Whether a sixteen-bit unit is the first half of a pair. -/
def isHighSurrogate (u : Nat) : Bool := decide (0xD800 ≤ u ∧ u < 0xDC00)

/-- Whether a sixteen-bit unit is the second half of a pair. -/
def isLowSurrogate (u : Nat) : Bool := decide (0xDC00 ≤ u ∧ u < 0xE000)

/-- The characters that escaped text stands for; refused when an escape is malformed or a
surrogate has no partner. -/
def unescape : List Char → Option (List Char)
  | [] => some []
  | '\\' :: 'u' :: a :: b :: c :: d :: rest =>
    match hex4? a b c d with
    | none => none
    | some u =>
      if isLowSurrogate u then none
      else if isHighSurrogate u then
        match rest with
        | '\\' :: 'u' :: a :: b :: c :: d :: rest =>
          match hex4? a b c d with
          | none => none
          | some l =>
            if isLowSurrogate l then
              (unescape rest).map
                (Char.ofNat (0x10000 + (u - 0xD800) * 0x400 + (l - 0xDC00)) :: ·)
            else none
        | _ => none
      else (unescape rest).map (Char.ofNat u :: ·)
  | '\\' :: e :: rest =>
    match simpleEscape? e with
    | none => none
    | some c => (unescape rest).map (c :: ·)
  | ['\\'] => none
  | c :: rest => (unescape rest).map (c :: ·)

/-- A digit of four-digit hexadecimal, in lower case. -/
def hexDigit (n : Nat) : Char := Nat.digitChar (n % 16)

/-- How one character is written between quotes: the quote and the backslash behind a backslash,
control characters by letter where there is one and by number where there is none, and every
other character as it is. -/
def escapeChar (c : Char) : List Char :=
  if c = '"' then ['\\', '"']
  else if c = '\\' then ['\\', '\\']
  else if c = '\n' then ['\\', 'n']
  else if c = '\r' then ['\\', 'r']
  else if c = '\t' then ['\\', 't']
  else if c = '\x08' then ['\\', 'b']
  else if c = '\x0c' then ['\\', 'f']
  else if c.toNat < 0x20 then ['\\', 'u', '0', '0', hexDigit (c.toNat / 16), hexDigit c.toNat]
  else [c]

/-- Text as it is written between quotes. -/
def escape (s : List Char) : List Char := s.flatMap escapeChar

/-! ## What is written reads back -/

theorem unescape_cons_plain {c : Char} (h : c ≠ '\\') (rest : List Char) :
    unescape (c :: rest) = (unescape rest).map (c :: ·) := by
  conv => lhs; unfold unescape
  split <;> simp_all

/-- The four digits of a control character spell its number. -/
theorem hex4?_hexDigit {n : Nat} (h : n < 0x20) :
    hex4? '0' '0' (hexDigit (n / 16)) (hexDigit n) = some n := by
  have hall : ∀ n : Fin 0x20,
      hex4? '0' '0' (hexDigit (n.val / 16)) (hexDigit n.val) = some n.val := by
    decide
  exact hall ⟨n, h⟩

theorem unescape_control {n : Nat} (h : n < 0x20) (rest : List Char) :
    unescape ('\\' :: 'u' :: '0' :: '0' :: hexDigit (n / 16) :: hexDigit n :: rest)
      = (unescape rest).map (Char.ofNat n :: ·) := by
  have hx := hex4?_hexDigit h
  have hl : isLowSurrogate n = false := by simp [isLowSurrogate]; omega
  have hh : isHighSurrogate n = false := by simp [isHighSurrogate]; omega
  conv => lhs; unfold unescape
  simp [hx, hl, hh]

/-- Reading takes back what was written for one character, whatever follows. -/
theorem unescape_escapeChar (c : Char) (rest : List Char) :
    unescape (escapeChar c ++ rest) = (unescape rest).map (c :: ·) := by
  unfold escapeChar
  split
  · next h => subst h; rfl
  · split
    · next h => subst h; rfl
    · next hq =>
      split
      · next h => subst h; rfl
      · split
        · next h => subst h; rfl
        · split
          · next h => subst h; rfl
          · split
            · next h => subst h; rfl
            · split
              · next h => subst h; rfl
              · split
                · next h =>
                  have := unescape_control h rest
                  rw [Char.ofNat_toNat] at this
                  exact this
                · exact unescape_cons_plain hq rest

/-- What is written reads back. -/
theorem unescape_escape (s : List Char) : unescape (escape s) = some s := by
  induction s with
  | nil => rfl
  | cons c s ih =>
    rw [escape, List.flatMap_cons, unescape_escapeChar]
    show (unescape (escape s)).map (c :: ·) = some (c :: s)
    rw [ih]; rfl

end LaneChart.Json
