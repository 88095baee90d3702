/-
The strings of JSON: literals and the texts they stand for.

`scanString` finds the end of a literal, `unquote` is the text of a literal, and
`quote` the literal an encoder writes for a text.  Every character is written in one
of three ways (`escapeChar_cases`), and each reader has one lemma for each way.
-/
import Mathlib.Data.Nat.Digits.Defs
import Mathlib.Data.List.Basic

namespace Lib

namespace Json

/-- The value of a hexadecimal digit. -/
def hexVal (c : Char) : Option Nat :=
  if '0' ≤ c ∧ c ≤ '9' then some (c.toNat - 48)
  else if 'a' ≤ c ∧ c ≤ 'f' then some (c.toNat - 87)
  else if 'A' ≤ c ∧ c ≤ 'F' then some (c.toNat - 55)
  else none

/-- The number four hexadecimal digits stand for. -/
def hex4Val (a b c d : Char) : Option Nat := do
  let a ← hexVal a
  let b ← hexVal b
  let c ← hexVal c
  let d ← hexVal d
  return 4096 * a + 256 * b + 16 * c + d

/-- What a backslash and one character stand for. -/
def simpleEscape (c : Char) : Option Char :=
  if c = '"' then some '"'
  else if c = '\\' then some '\\'
  else if c = '/' then some '/'
  else if c = 'b' then some (Char.ofNat 8)
  else if c = 'f' then some (Char.ofNat 12)
  else if c = 'n' then some '\n'
  else if c = 'r' then some '\r'
  else if c = 't' then some '\t'
  else none

/-- The literal up to the closing quote, and what follows the quote. -/
def scanString : List Char → Option (List Char × List Char)
  | [] => none
  | '"' :: l => some ([], l)
  | '\\' :: 'u' :: a :: b :: c :: d :: l =>
    if (hex4Val a b c d).isSome then
      (scanString l).map fun r => ('\\' :: 'u' :: a :: b :: c :: d :: r.1, r.2)
    else none
  | '\\' :: c :: l =>
    if (simpleEscape c).isSome then (scanString l).map fun r => ('\\' :: c :: r.1, r.2) else none
  | c :: l =>
    if c.toNat < 32 ∨ c = '\\' then none else (scanString l).map fun r => (c :: r.1, r.2)

/-- The pieces of a literal: characters, and the numbers of `u` escapes. -/
def units : List Char → List (Char ⊕ Nat)
  | [] => []
  | '\\' :: 'u' :: a :: b :: c :: d :: l => .inr ((hex4Val a b c d).getD 0) :: units l
  | '\\' :: c :: l => .inl ((simpleEscape c).getD c) :: units l
  | c :: l => .inl c :: units l

/-- The character of a `u` escape on its own: a lone surrogate reads as the replacement character. -/
def unitChar (n : Nat) : Char :=
  if 0xD800 ≤ n ∧ n < 0xE000 then Char.ofNat 0xFFFD else Char.ofNat n

/-- The text of a literal's pieces: a high and a low surrogate together are one character. -/
def joinUnits : List (Char ⊕ Nat) → List Char
  | [] => []
  | .inl c :: l => c :: joinUnits l
  | .inr n :: .inr m :: l =>
    if 0xD800 ≤ n ∧ n < 0xDC00 ∧ 0xDC00 ≤ m ∧ m < 0xE000 then
      Char.ofNat (0x10000 + 0x400 * (n - 0xD800) + (m - 0xDC00)) :: joinUnits l
    else unitChar n :: joinUnits (.inr m :: l)
  | .inr n :: l => unitChar n :: joinUnits l

/-- The text of a literal. -/
def unquote (l : List Char) : List Char := joinUnits (units l)

/-- A hexadecimal digit, in lower case. -/
def hexDigit (n : Nat) : Char := Nat.digitChar n

/-- A `u` escape. -/
def escapeUnit (n : Nat) : List Char :=
  ['\\', 'u', hexDigit (n / 4096 % 16), hexDigit (n / 256 % 16), hexDigit (n / 16 % 16),
    hexDigit (n % 16)]

/-- How a character is written inside a string: HTML-safe, as encoders for the web write it. -/
def escapeChar (c : Char) : List Char :=
  if c = '"' then ['\\', '"']
  else if c = '\\' then ['\\', '\\']
  else if c = Char.ofNat 8 then ['\\', 'b']
  else if c = Char.ofNat 12 then ['\\', 'f']
  else if c = '\n' then ['\\', 'n']
  else if c = '\r' then ['\\', 'r']
  else if c = '\t' then ['\\', 't']
  else if c.toNat < 32 ∨ c = '<' ∨ c = '>' ∨ c = '&' ∨ c.toNat = 0x2028 ∨ c.toNat = 0x2029 then
    escapeUnit c.toNat
  else [c]

/-- The literal of a text. -/
def quote (s : List Char) : List Char := s.flatMap escapeChar

/-! ### Quoting and unquoting -/

theorem hexVal_hexDigit : ∀ {n : Nat}, n < 16 → hexVal (hexDigit n) = some n := by decide

theorem hex4Val_digits {n : Nat} (h : n < 65536) :
    hex4Val (hexDigit (n / 4096 % 16)) (hexDigit (n / 256 % 16)) (hexDigit (n / 16 % 16))
      (hexDigit (n % 16)) = some n := by
  have hsum : 4096 * (n / 4096 % 16) + 256 * (n / 256 % 16) + 16 * (n / 16 % 16) + n % 16 = n := by
    omega
  unfold hex4Val
  simp only [Option.bind_eq_bind, hexVal_hexDigit (show n / 4096 % 16 < 16 by omega),
    hexVal_hexDigit (show n / 256 % 16 < 16 by omega),
    hexVal_hexDigit (show n / 16 % 16 < 16 by omega),
    hexVal_hexDigit (show n % 16 < 16 by omega), Option.bind_some, hsum]
  rfl

private theorem escaped_small {c : Char} (h : c.toNat < 32 ∨ c = '<' ∨ c = '>' ∨ c = '&' ∨
    c.toNat = 0x2028 ∨ c.toNat = 0x2029) : c.toNat < 0xD800 := by
  rcases h with h | rfl | rfl | rfl | h | h
  · omega
  · decide
  · decide
  · decide
  · omega
  · omega

/-- Every character is written in one of three ways, which both readers know. -/
theorem escapeChar_cases (c : Char) :
    (∃ e, escapeChar c = ['\\', e] ∧ e ≠ 'u' ∧ simpleEscape e = some c) ∨
    (escapeChar c = escapeUnit c.toNat ∧ c.toNat < 0xD800) ∨
    (escapeChar c = [c] ∧ c ≠ '"' ∧ c ≠ '\\' ∧ 32 ≤ c.toNat) := by
  unfold escapeChar
  split_ifs with h1 h2 h3 h4 h5 h6 h7 h8
  · exact Or.inl ⟨'"', rfl, by decide, by rw [h1]; rfl⟩
  · exact Or.inl ⟨'\\', rfl, by decide, by rw [h2]; rfl⟩
  · exact Or.inl ⟨'b', rfl, by decide, by rw [h3]; rfl⟩
  · exact Or.inl ⟨'f', rfl, by decide, by rw [h4]; rfl⟩
  · exact Or.inl ⟨'n', rfl, by decide, by rw [h5]; rfl⟩
  · exact Or.inl ⟨'r', rfl, by decide, by rw [h6]; rfl⟩
  · exact Or.inl ⟨'t', rfl, by decide, by rw [h7]; rfl⟩
  · exact Or.inr (Or.inl ⟨rfl, escaped_small h8⟩)
  · exact Or.inr (Or.inr ⟨rfl, h1, h2, by omega⟩)

theorem scanString_escape {e : Char} (he : e ≠ 'u') (h : (simpleEscape e).isSome = true)
    (l : List Char) :
    scanString ('\\' :: e :: l) = (scanString l).map fun r => ('\\' :: e :: r.1, r.2) := by
  rw [scanString.eq_def]
  split
  · simp_all
  · simp_all
  · simp_all
  · rename_i heq
    simp only [List.cons.injEq, true_and] at heq
    obtain ⟨rfl, rfl⟩ := heq
    rw [if_pos h]
  · rename_i hne heq
    obtain ⟨hc, hl⟩ := List.cons.inj heq
    exact absurd hl.symm (hne e l hc.symm)

theorem scanString_plain {c : Char} (hq : c ≠ '"') (hb : c ≠ '\\') (h : 32 ≤ c.toNat)
    (l : List Char) : scanString (c :: l) = (scanString l).map fun r => (c :: r.1, r.2) := by
  rw [scanString.eq_def]
  split <;> simp_all

theorem scanString_escapeChar (c : Char) (l : List Char) :
    scanString (escapeChar c ++ l) = (scanString l).map fun r => (escapeChar c ++ r.1, r.2) := by
  rcases escapeChar_cases c with ⟨e, he, hu, hs⟩ | ⟨he, hsmall⟩ | ⟨he, hq, hb, h32⟩
  · rw [he]
    exact scanString_escape hu (by rw [hs]; rfl) l
  · rw [he, escapeUnit]
    simp only [List.cons_append, List.nil_append, scanString,
      hex4Val_digits (show c.toNat < 65536 by omega), Option.isSome_some, if_true]
  · rw [he]
    exact scanString_plain hq hb h32 l

theorem scanString_quote (s rest : List Char) :
    scanString (quote s ++ '"' :: rest) = some (quote s, rest) := by
  induction s with
  | nil => rfl
  | cons c s ih =>
    rw [quote, List.flatMap_cons, List.append_assoc, scanString_escapeChar]
    rw [quote] at ih
    rw [ih]
    rfl

theorem units_escape {e : Char} (he : e ≠ 'u') (l : List Char) :
    units ('\\' :: e :: l) = .inl ((simpleEscape e).getD e) :: units l := by
  rw [units.eq_def]
  split
  · simp_all
  · simp_all
  · simp_all
  · rename_i hne heq
    obtain ⟨hc, hl⟩ := List.cons.inj heq
    exact absurd hl.symm (hne e l hc.symm)

theorem units_plain {c : Char} (hb : c ≠ '\\') (l : List Char) :
    units (c :: l) = .inl c :: units l := by
  rw [units.eq_def]
  split <;> simp_all

theorem joinUnits_small {n : Nat} (h : n < 0xD800) (l : List (Char ⊕ Nat)) :
    joinUnits (.inr n :: l) = Char.ofNat n :: joinUnits l := by
  have hchar : unitChar n = Char.ofNat n := if_neg (by omega)
  cases l with
  | nil => simp [joinUnits, hchar]
  | cons u l =>
    cases u with
    | inl c => simp [joinUnits, hchar]
    | inr m => rw [joinUnits, if_neg (by omega), hchar]

/-- **A quoted text unquotes to itself.** -/
theorem unquote_quote (s : List Char) : unquote (quote s) = s := by
  unfold unquote
  induction s with
  | nil => rfl
  | cons c s ih =>
    rw [quote, List.flatMap_cons]
    rw [quote] at ih
    rcases escapeChar_cases c with ⟨e, he, hu, hs⟩ | ⟨he, hsmall⟩ | ⟨he, hq, hb, h32⟩
    · rw [he]
      simp only [List.cons_append, List.nil_append]
      rw [units_escape hu, hs, joinUnits, ih]
      rfl
    · rw [he, escapeUnit]
      simp only [List.cons_append, List.nil_append, units,
        hex4Val_digits (show c.toNat < 65536 by omega), Option.getD_some]
      rw [joinUnits_small hsmall, ih, Char.ofNat_toNat]
    · rw [he]
      simp only [List.cons_append, List.nil_append]
      rw [units_plain hb, joinUnits, ih]

/-- A text of characters that need no escape is its own literal. -/
theorem quote_eq_self {s : List Char} (h : ∀ c ∈ s, escapeChar c = [c]) : quote s = s := by
  induction s with
  | nil => rfl
  | cons c s ih =>
    rw [quote, List.flatMap_cons, h c (by simp)]
    rw [quote] at ih
    rw [ih fun d hd => h d (List.mem_cons_of_mem _ hd)]
    rfl

end Json

end Lib
