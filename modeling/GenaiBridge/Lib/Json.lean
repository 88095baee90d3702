/-
JSON texts: a parser, the encoding of flat objects, and decoding into records.

`parse` accepts the JSON grammar with a bound on the nesting depth.  Numbers and
strings stay literals, because decoders differ in what they do with them: an integer
field wants a literal without fraction, and a text is only unquoted where a text is
wanted.

`encode` writes an object of texts and integers the way an encoder of records does,
and `parse_encode` says what such a text parses to.  `field` is how a decoder of
records finds one field: names are matched up to case, `null` leaves the field alone,
later members win, and a member of the wrong type fails the whole object.
-/
import GenaiBridge.Lib.Decimal
import GenaiBridge.Lib.JsonString

namespace Lib

/-- A JSON value, with the literals of its numbers and strings (without the quotes). -/
inductive Json
  | null
  | bool (b : Bool)
  | num (literal : List Char)
  | str (literal : List Char)
  | arr (items : List Json)
  | obj (members : List (List Char × Json))

namespace Json

/-! ### The grammar -/

def isSpace (c : Char) : Bool := c = ' ' ∨ c = '\t' ∨ c = '\r' ∨ c = '\n'

def skipSpace (l : List Char) : List Char := l.dropWhile isSpace

/-- The integer part of a number: no leading zero. -/
def scanWhole : List Char → Option (List Char × List Char)
  | '0' :: l => some (['0'], l)
  | c :: l =>
    if c.isDigit then some ((c :: l).takeWhile Char.isDigit, (c :: l).dropWhile Char.isDigit)
    else none
  | [] => none

/-- At least one digit. -/
def scanDigits (l : List Char) : Option (List Char × List Char) :=
  if (l.takeWhile Char.isDigit).isEmpty then none
  else some (l.takeWhile Char.isDigit, l.dropWhile Char.isDigit)

/-- The fraction of a number, which may be missing. -/
def scanFraction : List Char → Option (List Char × List Char)
  | '.' :: l => (scanDigits l).map fun r => ('.' :: r.1, r.2)
  | l => some ([], l)

/-- The exponent of a number, which may be missing. -/
def scanExponent : List Char → Option (List Char × List Char)
  | e :: s :: l =>
    if e = 'e' ∨ e = 'E' then
      if s = '+' ∨ s = '-' then (scanDigits l).map fun r => (e :: s :: r.1, r.2)
      else (scanDigits (s :: l)).map fun r => (e :: r.1, r.2)
    else some ([], e :: s :: l)
  | [e] => if e = 'e' ∨ e = 'E' then none else some ([], [e])
  | [] => some ([], [])

def scanUnsigned (l : List Char) : Option (List Char × List Char) := do
  let (whole, l) ← scanWhole l
  let (fraction, l) ← scanFraction l
  let (exponent, l) ← scanExponent l
  return (whole ++ fraction ++ exponent, l)

/-- The literal of a number. -/
def scanNumber : List Char → Option (List Char × List Char)
  | '-' :: l => (scanUnsigned l).map fun r => ('-' :: r.1, r.2)
  | l => scanUnsigned l

/-- The name of a member and its colon, with the spaces around it. -/
def scanName (l : List Char) : Option (List Char × List Char) := do
  let l ← if l.head? = some '"' then some l.tail else none
  let (k, l) ← scanString l
  if (skipSpace l).head? = some ':' then some (k, skipSpace (skipSpace l).tail) else none

mutual

/-- A value at the front of a text, with at most `depth` brackets open inside it. -/
def parseValue : Nat → Nat → List Char → Option (Json × List Char)
  | 0, _, _ => none
  | fuel + 1, depth, l =>
    match l with
    | 'n' :: 'u' :: 'l' :: 'l' :: l => some (.null, l)
    | 't' :: 'r' :: 'u' :: 'e' :: l => some (.bool true, l)
    | 'f' :: 'a' :: 'l' :: 's' :: 'e' :: l => some (.bool false, l)
    | '"' :: l => (scanString l).map fun r => (.str r.1, r.2)
    | '[' :: l =>
      match depth, skipSpace l with
      | 0, _ => none
      | _ + 1, ']' :: l => some (.arr [], l)
      | depth + 1, l => (parseItems fuel depth l).map fun r => (.arr r.1, r.2)
    | '{' :: l =>
      match depth, skipSpace l with
      | 0, _ => none
      | _ + 1, '}' :: l => some (.obj [], l)
      | depth + 1, l => (parseMembers fuel depth l).map fun r => (.obj r.1, r.2)
    | l => (scanNumber l).map fun r => (.num r.1, r.2)

/-- The items of an array that is not empty, up to its closing bracket. -/
def parseItems : Nat → Nat → List Char → Option (List Json × List Char)
  | 0, _, _ => none
  | fuel + 1, depth, l => do
      let (v, l) ← parseValue fuel depth l
      match skipSpace l with
      | ',' :: l => (parseItems fuel depth (skipSpace l)).map fun r => (v :: r.1, r.2)
      | ']' :: l => some ([v], l)
      | _ => none

/-- The members of an object that is not empty, up to its closing brace. -/
def parseMembers : Nat → Nat → List Char → Option (List (List Char × Json) × List Char)
  | 0, _, _ => none
  | fuel + 1, depth, l => do
      let (k, l) ← scanName l
      let (v, l) ← parseValue fuel depth l
      match skipSpace l with
      | ',' :: l => (parseMembers fuel depth (skipSpace l)).map fun r => ((k, v) :: r.1, r.2)
      | '}' :: l => some ([(k, v)], l)
      | _ => none

end

/-- Brackets may be nested this deep. -/
def maxDepth : Nat := 10000

/-- Read a JSON text.  Every call consumes a character first, so its length is enough fuel. -/
def parse (l : List Char) : Option Json :=
  match parseValue (l.length + 1) maxDepth (skipSpace l) with
  | some (v, rest) => if (skipSpace rest).isEmpty then some v else none
  | none => none

/-! ### Writing flat objects -/

/-- A member's value: a text or an integer. -/
inductive Scalar
  | text (s : List Char)
  | int (i : Int)

/-- The value a scalar is read as. -/
def Scalar.value : Scalar → Json
  | .text s => .str (quote s)
  | .int i => .num (decimal i)

def Scalar.encode : Scalar → List Char
  | .text s => '"' :: (quote s ++ ['"'])
  | .int i => decimal i

/-- A member of an object as it is read. -/
def member (m : List Char × Scalar) : List Char × Json := (quote m.1, m.2.value)

def encodeMember (m : List Char × Scalar) : List Char :=
  '"' :: (quote m.1 ++ '"' :: ':' :: m.2.encode)

/-- The members of an object and its closing brace. -/
def encodeMembers : List (List Char × Scalar) → List Char
  | [] => ['}']
  | [m] => encodeMember m ++ ['}']
  | m :: ms => encodeMember m ++ ',' :: encodeMembers ms

/-- An object of texts and integers, without spaces. -/
def encode (ms : List (List Char × Scalar)) : List Char := '{' :: encodeMembers ms

/-! ### Reading what was written -/

theorem skipSpace_cons {c : Char} (h : isSpace c = false) (l : List Char) :
    skipSpace (c :: l) = c :: l := by
  simp [skipSpace, h]

/-- What can follow a member's value: it ends a number. -/
def Ends (rest : List Char) : Prop := ∃ c l, rest = c :: l ∧ (c = ',' ∨ c = '}')

theorem takeWhile_digits {ds rest : List Char} (hd : ∀ c ∈ ds, c.isDigit = true)
    (hrest : Ends rest) :
    (ds ++ rest).takeWhile Char.isDigit = ds ∧ (ds ++ rest).dropWhile Char.isDigit = rest := by
  obtain ⟨c, l, rfl, hc⟩ := hrest
  have hnot : c.isDigit = false := by rcases hc with rfl | rfl <;> rfl
  rw [List.takeWhile_append_of_pos hd, List.dropWhile_append_of_pos hd]
  simp [hnot]

/-- Only zero is written with a leading zero. -/
theorem toDigits_head (n : Nat) :
    Nat.toDigits 10 n = ['0'] ∨ ∃ c l, Nat.toDigits 10 n = c :: l ∧ c ≠ '0' := by
  induction n using Nat.strongRecOn with
  | ind n ih =>
    rcases Nat.lt_or_ge n 10 with h | h
    · rw [Nat.toDigits_of_lt_base h]
      rcases Nat.eq_zero_or_pos n with rfl | hpos
      · exact Or.inl rfl
      · exact Or.inr ⟨n.digitChar, [], rfl, fun hc => by
          rw [Nat.digitChar_eq_zero] at hc; omega⟩
    · rw [Nat.toDigits_of_base_le (by omega) h]
      rcases ih (n / 10) (by omega) with hz | ⟨c, l, hcl, hc⟩
      · -- the quotient is positive, so it is not written `0`
        have := congrArg (fun ds => Nat.ofDigitChars 10 ds 0) hz
        simp only [Nat.ofDigitChars_ten_toDigits] at this
        have hpos : 0 < n / 10 := by omega
        rw [this] at hpos
        exact absurd hpos (by decide)
      · exact Or.inr ⟨c, l ++ [(n % 10).digitChar], by rw [hcl]; rfl, hc⟩

theorem scanWhole_toDigits (n : Nat) {rest : List Char} (hrest : Ends rest) :
    scanWhole (Nat.toDigits 10 n ++ rest) = some (Nat.toDigits 10 n, rest) := by
  obtain ⟨htake, hdrop⟩ := takeWhile_digits
    (fun c hc => isDigit_of_mem_toDigits (n := n) hc) hrest
  rcases toDigits_head n with hz | ⟨c, l, hcl, hc⟩
  · rw [hz]
    rfl
  · have hdigit : c.isDigit = true := isDigit_of_mem_toDigits (n := n) (by simp [hcl])
    rw [hcl] at htake hdrop ⊢
    rw [List.cons_append] at htake hdrop ⊢
    rw [scanWhole.eq_def]
    split
    · rename_i heq
      exact absurd (List.cons.inj heq).1 hc
    · rename_i heq
      obtain ⟨rfl, rfl⟩ := List.cons.inj heq
      rw [if_pos hdigit, htake, hdrop]
    · rename_i heq
      exact absurd heq (by simp)

theorem scanUnsigned_toDigits (n : Nat) {rest : List Char} (hrest : Ends rest) :
    scanUnsigned (Nat.toDigits 10 n ++ rest) = some (Nat.toDigits 10 n, rest) := by
  have hfraction : scanFraction rest = some ([], rest) := by
    obtain ⟨c, l, rfl, rfl | rfl⟩ := hrest <;> rfl
  have hexponent : scanExponent rest = some ([], rest) := by
    obtain ⟨c, l, rfl, rfl | rfl⟩ := hrest <;> cases l <;> rfl
  unfold scanUnsigned
  simp only [Option.bind_eq_bind, scanWhole_toDigits n hrest, Option.bind_some, hfraction,
    hexponent, List.append_nil]
  rfl

theorem scanNumber_decimal (i : Int) {rest : List Char} (hrest : Ends rest) :
    scanNumber (decimal i ++ rest) = some (decimal i, rest) := by
  cases i with
  | ofNat n =>
    show scanNumber (Nat.toDigits 10 n ++ rest) = some (Nat.toDigits 10 n, rest)
    rw [← scanUnsigned_toDigits n hrest, scanNumber.eq_def]
    split
    · rename_i l heq
      cases hd : Nat.toDigits 10 n with
      | nil => exact absurd hd Nat.toDigits_ne_nil
      | cons c ds =>
        have hdigit : c.isDigit = true := isDigit_of_mem_toDigits (n := n) (by simp [hd])
        rw [hd, List.cons_append] at heq
        rw [(List.cons.inj heq).1] at hdigit
        exact absurd hdigit (by decide)
    · rfl
  | negSucc n =>
    show (scanUnsigned (Nat.toDigits 10 (n + 1) ++ rest)).map _ = _
    rw [scanUnsigned_toDigits (n + 1) hrest]
    rfl

/-- A number's first character decides that it is read as one. -/
theorem parseValue_number {fuel depth : Nat} {l : List Char}
    (h : ∃ c l', l = c :: l' ∧ (c.isDigit = true ∨ c = '-')) :
    parseValue (fuel + 1) depth l = (scanNumber l).map fun r => (.num r.1, r.2) := by
  obtain ⟨c, l', rfl, hc⟩ := h
  have hne : c ≠ 'n' ∧ c ≠ 't' ∧ c ≠ 'f' ∧ c ≠ '"' ∧ c ≠ '[' ∧ c ≠ '{' := by
    refine ⟨?_, ?_, ?_, ?_, ?_, ?_⟩ <;> rintro rfl <;> exact absurd hc (by decide)
  rw [parseValue.eq_def]
  split <;> simp_all

theorem decimal_head (i : Int) (rest : List Char) :
    ∃ c l', decimal i ++ rest = c :: l' ∧ (c.isDigit = true ∨ c = '-') := by
  cases i with
  | ofNat n =>
    cases hd : Nat.toDigits 10 n with
    | nil => exact absurd hd Nat.toDigits_ne_nil
    | cons c ds =>
      exact ⟨c, ds ++ rest, by simp [decimal, hd],
        Or.inl (isDigit_of_mem_toDigits (n := n) (by simp [hd]))⟩
  | negSucc n => exact ⟨'-', _, rfl, Or.inr rfl⟩

theorem parseValue_scalar (fuel depth : Nat) (v : Scalar) {rest : List Char} (hrest : Ends rest) :
    parseValue (fuel + 1) depth (v.encode ++ rest) = some (v.value, rest) := by
  cases v with
  | text s =>
    have hquote := scanString_quote s rest
    simp only [Scalar.encode, List.cons_append, List.append_assoc, List.nil_append]
    rw [parseValue.eq_def]
    simp only [hquote]
    rfl
  | int i =>
    rw [Scalar.encode, parseValue_number (decimal_head i rest), scanNumber_decimal i hrest]
    rfl

theorem skipSpace_scalar (v : Scalar) (rest : List Char) :
    skipSpace (v.encode ++ rest) = v.encode ++ rest := by
  cases v with
  | text s => exact skipSpace_cons rfl _
  | int i =>
    obtain ⟨c, l', hcl, hc⟩ := decimal_head i rest
    rw [Scalar.encode, hcl]
    refine skipSpace_cons ?_ _
    rcases hc with hc | rfl
    · by_contra hs
      simp only [isSpace, decide_eq_true_eq, Bool.not_eq_false] at hs
      rcases hs with rfl | rfl | rfl | rfl <;> exact absurd hc (by decide)
    · rfl

theorem scanName_encodeMember (m : List Char × Scalar) (rest : List Char) :
    scanName (encodeMember m ++ rest) = some (quote m.1, m.2.encode ++ rest) := by
  have hquote : scanString (quote m.1 ++ '"' :: ':' :: (m.2.encode ++ rest))
      = some (quote m.1, ':' :: (m.2.encode ++ rest)) := scanString_quote _ _
  unfold scanName encodeMember
  simp only [List.cons_append, List.append_assoc, List.head?_cons, if_true, List.tail_cons,
    Option.bind_eq_bind, Option.bind_some, hquote,
    skipSpace_cons (show isSpace ':' = false from rfl), skipSpace_scalar]

theorem skipSpace_encodeMembers (ms : List (List Char × Scalar)) (rest : List Char) :
    skipSpace (encodeMembers ms ++ rest) = encodeMembers ms ++ rest := by
  cases ms with
  | nil => exact skipSpace_cons rfl _
  | cons m ms =>
    cases ms <;> simp only [encodeMembers, encodeMember, List.cons_append, List.append_assoc] <;>
      exact skipSpace_cons rfl _

/-- One after the other, by induction on the members. -/
theorem parseMembers_encodeMembers (depth : Nat) (rest : List Char) :
    ∀ (ms : List (List Char × Scalar)) (fuel : Nat), ms ≠ [] → ms.length < fuel →
      parseMembers fuel depth (encodeMembers ms ++ rest) = some (ms.map member, rest) := by
  intro ms
  induction ms with
  | nil => intro fuel hne; exact absurd rfl hne
  | cons m ms ih =>
    intro fuel _ hfuel
    obtain ⟨k, rfl⟩ : ∃ k, fuel = k + 2 := ⟨fuel - 2, by simp at hfuel; omega⟩
    rw [parseMembers.eq_def]
    cases ms with
    | nil =>
      have hends : Ends ('}' :: rest) := ⟨_, _, rfl, Or.inr rfl⟩
      have hvalue := parseValue_scalar k depth m.2 hends
      simp only [encodeMembers, List.append_assoc, scanName_encodeMember, Option.bind_eq_bind,
        Option.bind_some, List.cons_append, List.nil_append, hvalue,
        skipSpace_cons (show isSpace '}' = false from rfl)]
      rfl
    | cons m' ms =>
      have hends : Ends (',' :: (encodeMembers (m' :: ms) ++ rest)) := ⟨_, _, rfl, Or.inl rfl⟩
      have hvalue := parseValue_scalar k depth m.2 hends
      have hrest := ih (k + 1) (by simp) (by simp at hfuel ⊢; omega)
      simp only [encodeMembers, List.append_assoc, scanName_encodeMember, Option.bind_eq_bind,
        Option.bind_some, List.cons_append, hvalue, skipSpace_encodeMembers, hrest,
        skipSpace_cons (show isSpace ',' = false from rfl)]
      rfl

theorem length_lt_encodeMembers (ms : List (List Char × Scalar)) :
    ms.length < (encodeMembers ms).length := by
  induction ms with
  | nil => simp [encodeMembers]
  | cons m ms ih =>
    cases ms with
    | nil => simp [encodeMembers, encodeMember]
    | cons m' ms => simp [encodeMembers, encodeMember] at ih ⊢; omega

theorem parseValue_encode {ms : List (List Char × Scalar)} (hne : ms ≠ []) {fuel depth : Nat}
    (hfuel : ms.length < fuel) :
    parseValue (fuel + 1) (depth + 1) (encode ms) = some (.obj (ms.map member), []) := by
  have hmembers := parseMembers_encodeMembers depth [] ms fuel hne hfuel
  have hskip := skipSpace_encodeMembers ms []
  rw [List.append_nil] at hmembers hskip
  obtain ⟨l, hl⟩ : ∃ l, encodeMembers ms = '"' :: l := by
    cases ms with
    | nil => exact absurd rfl hne
    | cons m ms => cases ms <;> exact ⟨_, rfl⟩
  rw [parseValue.eq_def]
  simp only [encode]
  rw [hskip]
  rw [hl] at hmembers ⊢
  show (parseMembers fuel depth ('"' :: l)).map _ = _
  rw [hmembers]
  rfl

/-- **A written object is read as its members.** -/
theorem parse_encode {ms : List (List Char × Scalar)} (hne : ms ≠ []) :
    parse (encode ms) = some (.obj (ms.map member)) := by
  have hfuel : ms.length < (encode ms).length :=
    Nat.lt_succ_of_lt (length_lt_encodeMembers ms)
  unfold parse maxDepth
  rw [show skipSpace (encode ms) = encode ms from skipSpace_cons rfl _,
    parseValue_encode hne hfuel]
  rfl

/-! ### Decoding into records -/

/-- The smallest character that differs from `c` only in case, among the letters of field names. -/
def foldCase (c : Char) : Char :=
  if c.toNat = 0x17F then 's' else if c.toNat = 0x212A then 'k' else c.toLower

/-- Whether a member's name names a field: case does not matter. -/
def sameName (name literal : List Char) : Bool :=
  name.map foldCase = (unquote literal).map foldCase

/-- The members a value offers to the fields of a record. -/
def members : Json → Option (List (List Char × Json))
  | .null => some []
  | .obj ms => some ms
  | _ => none

/-- The value of a field after all members: the last one of its name that is not `null`. -/
def field {α : Type} (read : Json → Option α) (name : List Char) :
    α → List (List Char × Json) → Option α
  | a, [] => some a
  | a, (k, v) :: ms =>
    if sameName name k then
      match v with
      | .null => field read name a ms
      | v => do field read name (← read v) ms
    else field read name a ms

/-- A text field takes strings. -/
def readText : Json → Option (List Char)
  | .str literal => some (unquote literal)
  | _ => none

/-- An integer field takes integer literals in its range. -/
def readInteger (lo hi : Int) : Json → Option Int
  | .num literal => (readInt literal).filter fun i => lo ≤ i ∧ i ≤ hi
  | _ => none

section Field

variable {α : Type} {read : Json → Option α} {name : List Char}

theorem field_append (a : α) (ms ms' : List (List Char × Json)) :
    field read name a (ms ++ ms') = (field read name a ms).bind fun b => field read name b ms' := by
  induction ms generalizing a with
  | nil => rfl
  | cons m ms ih =>
    obtain ⟨k, v⟩ := m
    simp only [List.cons_append, field]
    split
    · split
      · exact ih a
      · simp only [Option.bind_eq_bind, Option.bind_assoc, ih]
    · exact ih a

theorem field_cons_cons (a : α) (m m' : List Char × Json) (ms : List (List Char × Json)) :
    field read name a (m :: m' :: ms)
      = (field read name a [m]).bind fun b => field read name b (m' :: ms) :=
  field_append a [m] (m' :: ms)

/-- A member of another name leaves the field alone. -/
theorem field_member_ne (name k : List Char) (h : name.map foldCase ≠ k.map foldCase) (a : α)
    (v : Scalar) : field read name a [member (k, v)] = some a := by
  have : sameName name (quote k) = false := by
    simpa [sameName, unquote_quote] using h
  simp [member, field, this]

theorem field_member_text (a : List Char) (s : List Char) :
    field readText name a [member (name, .text s)] = some s := by
  have : sameName name (quote name) = true := by simp [sameName, unquote_quote]
  simp [member, field, this, Scalar.value, readText, unquote_quote]

theorem field_member_int (name : List Char) {lo hi i : Int} (hlo : lo ≤ i) (hhi : i ≤ hi)
    (a : Int) :
    field (readInteger lo hi) name a [member (name, .int i)] = some i := by
  have : sameName name (quote name) = true := by simp [sameName, unquote_quote]
  simp [member, field, this, Scalar.value, readInteger, readInt_decimal, hlo, hhi]

end Field

end Json

end Lib
