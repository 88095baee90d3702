/-
The wire format of protobuf.

A message is a sequence of fields, a field is a tag and a value, and what a value looks
like depends on the wire type in its tag.  The format is stated as relations between byte
strings and what they stand for; `readFields` reads it, and reads exactly it.  From the
reader it follows that the format is self-delimiting: what comes after a field does not
change how the field is read.

The largest field number is a parameter, since the decoders in use do not agree on it.
-/
import Mathlib.Data.List.Basic
import Mathlib.Tactic.Ring

namespace Lib.Protobuf

/-! ### Varints -/

/-- A number in bytes of seven bits, lowest first, all but the last with the high bit set.  After
`k` more bytes there is room for one bit only. -/
inductive VarintFrom : Nat → List UInt8 → Nat → Prop
  | last {k : Nat} {b : UInt8} (hlast : b.toNat < 128) (hfits : k = 0 → b.toNat ≤ 1) :
      VarintFrom k [b] b.toNat
  | more {k n : Nat} {b : UInt8} {w : List UInt8} (hmore : 128 ≤ b.toNat)
      (h : VarintFrom k w n) : VarintFrom (k + 1) (b :: w) (b.toNat - 128 + 128 * n)

/-- A varint of 64 bits. -/
def Varint (w : List UInt8) (n : Nat) : Prop := VarintFrom 9 w n

/-- Read a varint; also returns what follows it. -/
def readVarintFrom : Nat → List UInt8 → Option (Nat × List UInt8)
  | _, [] => none
  | 0, b :: rest => if b.toNat ≤ 1 then some (b.toNat, rest) else none
  | k + 1, b :: rest =>
    if b.toNat < 128 then some (b.toNat, rest)
    else (readVarintFrom k rest).map fun r => (b.toNat - 128 + 128 * r.1, r.2)

def readVarint (b : List UInt8) : Option (Nat × List UInt8) := readVarintFrom 9 b

theorem readVarintFrom_append {k n : Nat} {w : List UInt8} (h : VarintFrom k w n)
    (rest : List UInt8) : readVarintFrom k (w ++ rest) = some (n, rest) := by
  induction h with
  | @last k b hlast hfits =>
    rw [List.singleton_append]
    cases k with
    | zero => rw [readVarintFrom, if_pos (hfits rfl)]
    | succ k => rw [readVarintFrom, if_pos hlast]
  | more hmore _ ih =>
    rw [List.cons_append, readVarintFrom, if_neg (by omega), ih]
    rfl

theorem varintFrom_of_read : ∀ {k : Nat} {b : List UInt8} {n : Nat} {rest : List UInt8},
    readVarintFrom k b = some (n, rest) → ∃ w, b = w ++ rest ∧ VarintFrom k w n := by
  intro k
  induction k with
  | zero =>
    intro b n rest h
    cases b with
    | nil => cases h
    | cons b bs =>
      rw [readVarintFrom] at h
      by_cases hfits : b.toNat ≤ 1
      · rw [if_pos hfits] at h
        cases h
        exact ⟨[b], rfl, .last (by omega) fun _ => hfits⟩
      · rw [if_neg hfits] at h
        cases h
  | succ k ih =>
    intro b n rest h
    cases b with
    | nil => cases h
    | cons b bs =>
      rw [readVarintFrom] at h
      by_cases hlast : b.toNat < 128
      · rw [if_pos hlast] at h
        cases h
        exact ⟨[b], rfl, .last hlast fun hk => by cases hk⟩
      · rw [if_neg hlast] at h
        obtain ⟨⟨m, r⟩, hread, heq⟩ := Option.map_eq_some_iff.mp h
        cases heq
        obtain ⟨w, rfl, hw⟩ := ih hread
        exact ⟨b :: w, rfl, .more (by omega) hw⟩

/-! ### Tags, and values of a length that is given first -/

/-- The tag of a field: its number, and its wire type in the lowest three bits. -/
def Tag (top : Nat) (w : List UInt8) (num typ : Nat) : Prop :=
  ∃ n, Varint w n ∧ n / 8 = num ∧ n % 8 = typ ∧ 1 ≤ num ∧ num ≤ top

def readTag (top : Nat) (b : List UInt8) : Option ((Nat × Nat) × List UInt8) :=
  match readVarint b with
  | none => none
  | some (n, rest) => if 1 ≤ n / 8 ∧ n / 8 ≤ top then some ((n / 8, n % 8), rest) else none

/-- A byte string after its length. -/
def Bytes (w v : List UInt8) : Prop := ∃ l, Varint l v.length ∧ w = l ++ v

def readFixed (n : Nat) (b : List UInt8) : Option (List UInt8 × List UInt8) :=
  if n ≤ b.length then some (b.take n, b.drop n) else none

def readBytes (b : List UInt8) : Option (List UInt8 × List UInt8) :=
  match readVarint b with
  | none => none
  | some (n, rest) => readFixed n rest

section

variable {top num typ : Nat} {w v b rest : List UInt8}

theorem readTag_append (h : Tag top w num typ) (rest : List UInt8) :
    readTag top (w ++ rest) = some ((num, typ), rest) := by
  obtain ⟨n, hw, rfl, rfl, hpos, htop⟩ := h
  unfold readTag readVarint
  rw [readVarintFrom_append hw]
  exact if_pos ⟨hpos, htop⟩

theorem tag_of_read (h : readTag top b = some ((num, typ), rest)) :
    ∃ w, b = w ++ rest ∧ Tag top w num typ := by
  unfold readTag at h
  cases hread : readVarint b with
  | none =>
    rw [hread] at h
    cases h
  | some r =>
    obtain ⟨n, r⟩ := r
    rw [hread] at h
    dsimp only at h
    by_cases hnum : 1 ≤ n / 8 ∧ n / 8 ≤ top
    · rw [if_pos hnum] at h
      cases h
      obtain ⟨w, hb, hw⟩ := varintFrom_of_read hread
      exact ⟨w, hb, n, hw, rfl, rfl, hnum.1, hnum.2⟩
    · rw [if_neg hnum] at h
      cases h

theorem readFixed_append {n : Nat} (h : w.length = n) (rest : List UInt8) :
    readFixed n (w ++ rest) = some (w, rest) := by
  unfold readFixed
  rw [if_pos (by rw [List.length_append]; omega), List.take_left' h, List.drop_left' h]

theorem fixed_of_read {n : Nat} (h : readFixed n b = some (v, rest)) :
    b = v ++ rest ∧ v.length = n := by
  unfold readFixed at h
  by_cases hlen : n ≤ b.length
  · rw [if_pos hlen] at h
    cases h
    exact ⟨(List.take_append_drop n b).symm, List.length_take_of_le hlen⟩
  · rw [if_neg hlen] at h
    cases h

theorem readBytes_append (h : Bytes w v) (rest : List UInt8) :
    readBytes (w ++ rest) = some (v, rest) := by
  obtain ⟨l, hl, rfl⟩ := h
  unfold readBytes readVarint
  rw [List.append_assoc, readVarintFrom_append hl]
  exact readFixed_append rfl rest

theorem bytes_of_read (h : readBytes b = some (v, rest)) : ∃ w, b = w ++ rest ∧ Bytes w v := by
  unfold readBytes at h
  cases hread : readVarint b with
  | none =>
    rw [hread] at h
    cases h
  | some r =>
    obtain ⟨n, r⟩ := r
    rw [hread] at h
    obtain ⟨l, rfl, hl⟩ := varintFrom_of_read hread
    obtain ⟨rfl, hlen⟩ := fixed_of_read h
    refine ⟨l ++ v, (List.append_assoc l v rest).symm, l, ?_, rfl⟩
    rw [hlen]
    exact hl

end

/-! ### Values and messages -/

/-- The value of a field.  What is in a group is not kept. -/
inductive Value
  | varint (n : Nat)
  | fixed64 (b : List UInt8)
  | bytes (b : List UInt8)
  | group
  | fixed32 (b : List UInt8)
deriving DecidableEq

/-- The wire type of a value. -/
def Value.type : Value → Nat
  | .varint _ => 0
  | .fixed64 _ => 1
  | .bytes _ => 2
  | .group => 3
  | .fixed32 _ => 5

/-- The wire type of the tag that ends a group. -/
def endGroup : Nat := 4

abbrev Field := Nat × Value

/-- What a byte string may be: the value of a field with a number, or a sequence of fields. -/
inductive Item
  | value (num : Nat) (v : Value)
  | message (fields : List Field)

/-- The byte strings of values and messages. -/
inductive Encodes (top : Nat) : Item → List UInt8 → Prop
  | varint {num n : Nat} {w : List UInt8} (h : Varint w n) : Encodes top (.value num (.varint n)) w
  | fixed64 {num : Nat} {w : List UInt8} (h : w.length = 8) :
      Encodes top (.value num (.fixed64 w)) w
  | bytes {num : Nat} {w v : List UInt8} (h : Bytes w v) : Encodes top (.value num (.bytes v)) w
  | fixed32 {num : Nat} {w : List UInt8} (h : w.length = 4) :
      Encodes top (.value num (.fixed32 w)) w
  | group {num : Nat} {fields : List Field} {w t : List UInt8}
      (hbody : Encodes top (.message fields) w) (hend : Tag top t num endGroup) :
      Encodes top (.value num .group) (w ++ t)
  | nil : Encodes top (.message []) []
  | cons {num : Nat} {v : Value} {fields : List Field} {t w rest : List UInt8}
      (htag : Tag top t num v.type) (hvalue : Encodes top (.value num v) w)
      (hrest : Encodes top (.message fields) rest) :
      Encodes top (.message ((num, v) :: fields)) (t ++ (w ++ rest))

/-- A well-formed message with the given fields. -/
def Message (top : Nat) (fields : List Field) (b : List UInt8) : Prop :=
  Encodes top (.message fields) b

/-- Read a value of a wire type; the first argument reads the fields of a group. -/
def readValue (top : Nat) (fields : List UInt8 → List Field × List UInt8) (num typ : Nat)
    (b : List UInt8) : Option (Value × List UInt8) :=
  match typ with
  | 0 => (readVarint b).map fun r => (.varint r.1, r.2)
  | 1 => (readFixed 8 b).map fun r => (.fixed64 r.1, r.2)
  | 2 => (readBytes b).map fun r => (.bytes r.1, r.2)
  | 3 =>
    match readTag top (fields b).2 with
    | some ((n, t), rest) => if n = num ∧ t = endGroup then some (.group, rest) else none
    | none => none
  | 5 => (readFixed 4 b).map fun r => (.fixed32 r.1, r.2)
  | _ => none

/-- Read fields as long as there are any; also returns what follows them. -/
def readFields (top : Nat) : Nat → List UInt8 → List Field × List UInt8
  | 0, b => ([], b)
  | fuel + 1, b =>
    match readTag top b with
    | none => ([], b)
    | some ((num, typ), rest) =>
      match readValue top (readFields top fuel) num typ rest with
      | none => ([], b)
      | some (v, rest) =>
        let r := readFields top fuel rest
        ((num, v) :: r.1, r.2)

section

variable {top num typ : Nat}

theorem varint_ne_nil {k n : Nat} {w : List UInt8} (h : VarintFrom k w n) : 0 < w.length := by
  cases h with
  | last _ _ => exact Nat.one_pos
  | more _ _ => exact Nat.succ_pos _

theorem Tag.length_pos {w : List UInt8} (h : Tag top w num typ) : 0 < w.length := by
  obtain ⟨n, hw, -⟩ := h
  exact varint_ne_nil hw

/-- No value has the type of a tag that ends a group. -/
theorem readFields_endGroup {t : List UInt8} (h : Tag top t num endGroup) (rest : List UInt8)
    (fuel : Nat) : readFields top fuel (t ++ rest) = ([], t ++ rest) := by
  cases fuel with
  | zero => rfl
  | succ fuel =>
    rw [readFields, readTag_append h]
    rfl

/-- **The reader reads what is well formed.**  A value is read whatever follows it; a message is
read up to its end if no field follows it. -/
theorem read_of_encodes {item : Item} {w : List UInt8} (h : Encodes top item w) :
    match item with
    | .value num v => ∀ fuel, w.length ≤ fuel → ∀ rest,
        readValue top (readFields top fuel) num v.type (w ++ rest) = some (v, rest)
    | .message fields => ∀ fuel, w.length ≤ fuel → ∀ rest,
        (∀ fuel, readFields top fuel rest = ([], rest)) →
        readFields top fuel (w ++ rest) = (fields, rest) := by
  induction h with
  | varint h =>
    intro fuel _ rest
    simp only [Value.type, readValue, readVarint, readVarintFrom_append h, Option.map_some]
  | fixed64 h =>
    intro fuel _ rest
    simp only [Value.type, readValue, readFixed_append h, Option.map_some]
  | bytes h =>
    intro fuel _ rest
    simp only [Value.type, readValue, readBytes_append h, Option.map_some]
  | fixed32 h =>
    intro fuel _ rest
    simp only [Value.type, readValue, readFixed_append h, Option.map_some]
  | @group num fields w t _ hend ih =>
    intro fuel hfuel rest
    rw [List.length_append] at hfuel
    have hbody := ih fuel (by omega) (t ++ rest) (readFields_endGroup hend rest)
    rw [List.append_assoc]
    simp only [Value.type, readValue, hbody, readTag_append hend, and_self, if_true]
  | nil =>
    intro fuel _ rest hstop
    exact hstop fuel
  | @cons num v fields t w rest' htag _ _ ihvalue ihrest =>
    intro fuel hfuel rest hstop
    rw [List.length_append, List.length_append] at hfuel
    have hpos := htag.length_pos
    obtain ⟨fuel, rfl⟩ : ∃ k, fuel = k + 1 := ⟨fuel - 1, by omega⟩
    rw [List.append_assoc, List.append_assoc, readFields, readTag_append htag]
    dsimp only
    rw [ihvalue fuel (by omega)]
    dsimp only
    rw [ihrest fuel (by omega) rest hstop]

theorem readFields_of_message {fields : List Field} {b : List UInt8} (h : Message top fields b) :
    readFields top b.length b = (fields, []) := by
  have hread := read_of_encodes h b.length (le_refl _) [] fun fuel => by
    cases fuel with
    | zero => rfl
    | succ fuel => rfl
  rw [List.append_nil] at hread
  exact hread

theorem value_of_read {fields : List UInt8 → List Field × List UInt8}
    (hfields : ∀ b, ∃ w, b = w ++ (fields b).2 ∧ Message top (fields b).1 w)
    {b rest : List UInt8} {v : Value} (h : readValue top fields num typ b = some (v, rest)) :
    v.type = typ ∧ ∃ w, b = w ++ rest ∧ Encodes top (.value num v) w := by
  unfold readValue at h
  split at h
  · obtain ⟨⟨n, r⟩, hread, heq⟩ := Option.map_eq_some_iff.mp h
    cases heq
    obtain ⟨w, hb, hw⟩ := varintFrom_of_read hread
    exact ⟨rfl, w, hb, .varint hw⟩
  · obtain ⟨⟨v, r⟩, hread, heq⟩ := Option.map_eq_some_iff.mp h
    cases heq
    obtain ⟨hb, hlen⟩ := fixed_of_read hread
    exact ⟨rfl, v, hb, .fixed64 hlen⟩
  · obtain ⟨⟨v, r⟩, hread, heq⟩ := Option.map_eq_some_iff.mp h
    cases heq
    obtain ⟨w, hb, hw⟩ := bytes_of_read hread
    exact ⟨rfl, w, hb, .bytes hw⟩
  · obtain ⟨w, hb, hw⟩ := hfields b
    cases hread : readTag top (fields b).2 with
    | none =>
      rw [hread] at h
      cases h
    | some r =>
      obtain ⟨⟨n, t⟩, r⟩ := r
      rw [hread] at h
      dsimp only at h
      by_cases hend : n = num ∧ t = endGroup
      · rw [if_pos hend] at h
        cases h
        obtain ⟨rfl, rfl⟩ := hend
        obtain ⟨t, ht, htag⟩ := tag_of_read hread
        refine ⟨rfl, w ++ t, ?_, .group hw htag⟩
        rw [List.append_assoc, ← ht]
        exact hb
      · rw [if_neg hend] at h
        cases h
  · obtain ⟨⟨v, r⟩, hread, heq⟩ := Option.map_eq_some_iff.mp h
    cases heq
    obtain ⟨hb, hlen⟩ := fixed_of_read hread
    exact ⟨rfl, v, hb, .fixed32 hlen⟩
  · cases h

/-- **What is read is well formed.** -/
theorem message_of_readFields : ∀ (fuel : Nat) (b : List UInt8), ∃ w,
    b = w ++ (readFields top fuel b).2 ∧ Message top (readFields top fuel b).1 w := by
  intro fuel
  induction fuel with
  | zero =>
    intro b
    exact ⟨[], rfl, .nil⟩
  | succ fuel ih =>
    intro b
    rw [readFields]
    cases htag : readTag top b with
    | none => exact ⟨[], rfl, .nil⟩
    | some r =>
      obtain ⟨⟨num, typ⟩, rest⟩ := r
      dsimp only
      cases hvalue : readValue top (readFields top fuel) num typ rest with
      | none => exact ⟨[], rfl, .nil⟩
      | some r =>
        obtain ⟨v, rest'⟩ := r
        obtain ⟨t, rfl, ht⟩ := tag_of_read htag
        obtain ⟨rfl, w, rfl, hw⟩ := value_of_read ih hvalue
        obtain ⟨u, hu, hmessage⟩ := ih rest'
        refine ⟨t ++ (w ++ u), ?_, .cons ht hw hmessage⟩
        dsimp only
        rw [List.append_assoc, List.append_assoc, ← hu]

end

/-! ### Fields one after the other -/

/-- One field: its tag and its value. -/
def IsField (top : Nat) (f : Field) (w : List UInt8) : Prop :=
  ∃ t x, w = t ++ x ∧ Tag top t f.1 f.2.type ∧ Encodes top (.value f.1 f.2) x

/-- A field begins a byte string. -/
def Begins (top : Nat) (b : List UInt8) : Prop := ∃ f w rest, b = w ++ rest ∧ IsField top f w

/-- The fields a byte string begins with, up to where no more begins. -/
inductive Leading (top : Nat) : List Field → List UInt8 → Prop
  | stop {b : List UInt8} (h : ¬Begins top b) : Leading top [] b
  | field {f : Field} {fields : List Field} {w rest : List UInt8} (hfield : IsField top f w)
      (hrest : Leading top fields rest) : Leading top (f :: fields) (w ++ rest)

section

variable {top : Nat} {f f' : Field} {fields fields' : List Field} {w w' b rest rest' : List UInt8}

theorem IsField.length_pos (h : IsField top f w) : 0 < w.length := by
  obtain ⟨t, x, rfl, ht, -⟩ := h
  have hpos := ht.length_pos
  rw [List.length_append]
  omega

theorem IsField.append_ne_nil (h : IsField top f w) : w ++ rest ≠ [] := by
  intro hnil
  have hpos := h.length_pos
  rw [(List.append_eq_nil_iff.mp hnil).1] at hpos
  exact absurd hpos (lt_irrefl 0)

/-- **A field ends where it ends.** -/
theorem IsField.append_inj (h : IsField top f w) (h' : IsField top f' w')
    (heq : w ++ rest = w' ++ rest') : f = f' ∧ w = w' ∧ rest = rest' := by
  obtain ⟨num, v⟩ := f
  obtain ⟨num', v'⟩ := f'
  obtain ⟨t, x, rfl, ht, hx⟩ := h
  obtain ⟨t', x', rfl, ht', hx'⟩ := h'
  rw [List.append_assoc, List.append_assoc] at heq
  have htag := readTag_append ht (x ++ rest)
  rw [heq, readTag_append ht' (x' ++ rest')] at htag
  obtain ⟨⟨rfl, htype⟩, htail⟩ : (num' = num ∧ v'.type = v.type) ∧ x' ++ rest' = x ++ rest := by
    simpa using htag
  have hvalue := read_of_encodes hx (max x.length x'.length) (le_max_left _ _) rest
  have hvalue' := read_of_encodes hx' (max x.length x'.length) (le_max_right _ _) rest'
  rw [htail, htype, hvalue] at hvalue'
  obtain ⟨rfl, rfl⟩ : v = v' ∧ rest = rest' := by simpa using hvalue'
  refine ⟨rfl, ?_, rfl⟩
  rw [← List.append_assoc, ← List.append_assoc] at heq
  exact List.append_cancel_right heq

/-- A message is one field after the other. -/
theorem message_cons_iff :
    Message top (f :: fields) b ↔
      ∃ w rest, b = w ++ rest ∧ IsField top f w ∧ Message top fields rest := by
  constructor
  · intro h
    cases h with
    | cons htag hvalue hrest =>
      exact ⟨_, _, (List.append_assoc _ _ _).symm, ⟨_, _, rfl, htag, hvalue⟩, hrest⟩
  · rintro ⟨w, rest, rfl, ⟨t, x, rfl, htag, hvalue⟩, hrest⟩
    rw [List.append_assoc]
    exact .cons htag hvalue hrest

theorem message_nil_iff : Message top [] b ↔ b = [] := by
  constructor
  · intro h
    cases h
    rfl
  · rintro rfl
    exact .nil

theorem not_begins_nil : ¬Begins top [] := by
  rintro ⟨f, w, rest, heq, hfield⟩
  exact hfield.append_ne_nil heq.symm

/-- A well-formed message begins with its fields. -/
theorem Leading.of_message : ∀ {fields : List Field} {b : List UInt8}, Message top fields b →
    Leading top fields b := by
  intro fields
  induction fields with
  | nil =>
    intro b h
    rw [message_nil_iff.mp h]
    exact .stop not_begins_nil
  | cons f fields ih =>
    intro b h
    obtain ⟨w, rest, rfl, hfield, hrest⟩ := message_cons_iff.mp h
    exact .field hfield (ih hrest)

/-- **A byte string begins with fields in one way.** -/
theorem Leading.unique (h : Leading top fields b) : ∀ {fields' : List Field},
    Leading top fields' b → fields = fields' := by
  induction h with
  | stop hnot =>
    intro fields' h'
    cases h' with
    | stop _ => rfl
    | field hfield _ => exact absurd ⟨_, _, _, rfl, hfield⟩ hnot
  | @field f fields w rest hfield _ ih =>
    intro fields' h'
    generalize hb : w ++ rest = b at h'
    cases h' with
    | stop hnot => exact absurd ⟨f, w, rest, hb.symm, hfield⟩ hnot
    | field hfield' hrest' =>
      obtain ⟨rfl, -, rfl⟩ := hfield.append_inj hfield' hb
      rw [ih hrest']

theorem exists_leading (top : Nat) (b : List UInt8) : ∃ fields, Leading top fields b := by
  induction hlen : b.length using Nat.strong_induction_on generalizing b with
  | h n ih =>
    by_cases hbegins : Begins top b
    · obtain ⟨f, w, rest, rfl, hfield⟩ := hbegins
      have hpos := hfield.length_pos
      rw [List.length_append] at hlen
      obtain ⟨fields, hrest⟩ := ih rest.length (by omega) rest rfl
      exact ⟨f :: fields, .field hfield hrest⟩
    · exact ⟨[], .stop hbegins⟩

/-- A message has one sequence of fields. -/
theorem Message.unique (h : Message top fields b) (h' : Message top fields' b) :
    fields = fields' :=
  (Leading.of_message h).unique (Leading.of_message h')

end

/-! ### Looking fields up -/

/-- The byte string in a field with a number. -/
def bytesOf (num : Nat) : Field → Option (List UInt8)
  | (n, .bytes b) => if n = num then some b else none
  | _ => none

/-- The varint in a field with a number. -/
def varintOf (num : Nat) : Field → Option Nat
  | (n, .varint v) => if n = num then some v else none
  | _ => none

/-- What is found in the last field in which there is something. -/
def lastOf {α : Type} (get : Field → Option α) (fields : List Field) : Option α :=
  fields.reverse.findSome? get

section

variable {α : Type} {get : Field → Option α}

theorem lastOf_cons (f : Field) (fields : List Field) :
    lastOf get (f :: fields) = (lastOf get fields).or (get f) := by
  unfold lastOf
  rw [List.reverse_cons, List.findSome?_append, List.findSome?_singleton]

theorem mem_of_lastOf {fields : List Field} {a : α} (h : lastOf get fields = some a) :
    ∃ f ∈ fields, get f = some a := by
  obtain ⟨f, hf, ha⟩ := List.exists_of_findSome?_eq_some h
  exact ⟨f, List.mem_reverse.mp hf, ha⟩

/-- A byte string in a field is no longer than what the field is in. -/
theorem Leading.length_bytes_le {top num : Nat} {fields : List Field} {b v : List UInt8}
    (h : Leading top fields b) : ∀ f ∈ fields, bytesOf num f = some v → v.length ≤ b.length := by
  induction h with
  | stop _ =>
    intro f hf
    cases hf
  | @field g fields w rest hfield _ ih =>
    intro f hf hv
    rw [List.length_append]
    rcases List.mem_cons.mp hf with rfl | hf
    · obtain ⟨t, x, rfl, -, hx⟩ := hfield
      obtain ⟨n, value⟩ := f
      cases value with
      | bytes y =>
        obtain ⟨-, rfl⟩ : n = num ∧ y = v := by simpa [bytesOf] using hv
        cases hx with
        | bytes hbytes =>
          obtain ⟨l, -, rfl⟩ := hbytes
          simp only [List.length_append]
          omega
      | varint _ => cases hv
      | fixed64 _ => cases hv
      | group => cases hv
      | fixed32 _ => cases hv
    · have hle := ih f hf hv
      omega

end

/-! ### Readers that count -/

/-- A function reads the words of a code off inputs up to a limit: it returns what the word stands
for and its length, and fails just if no word begins the input. -/
def Reads {α : Type} (limit : Nat) (code : α → List UInt8 → Prop)
    (consume : List UInt8 → Option (α × Nat)) : Prop :=
  ∀ b, b.length ≤ limit → ∀ a n, consume b = some (a, n) ↔
    ∃ w rest, b = w ++ rest ∧ w.length = n ∧ code a w

section

variable {α : Type} {limit : Nat} {code : α → List UInt8 → Prop}
  {consume : List UInt8 → Option (α × Nat)} {a : α} {w rest : List UInt8}

theorem Reads.append (h : Reads limit code consume) (hlen : (w ++ rest).length ≤ limit)
    (hw : code a w) : consume (w ++ rest) = some (a, w.length) :=
  (h (w ++ rest) hlen a w.length).mpr ⟨w, rest, rfl, rfl, hw⟩

/-- A reader that returns the rest of its input, made to return a length. -/
def counting (read : List UInt8 → Option (α × List UInt8)) (b : List UInt8) : Option (α × Nat) :=
  (read b).map fun r => (r.1, b.length - r.2.length)

theorem counting_reads {read : List UInt8 → Option (α × List UInt8)}
    (hsound : ∀ {b a rest}, read b = some (a, rest) → ∃ w, b = w ++ rest ∧ code a w)
    (hcomplete : ∀ {a w}, code a w → ∀ rest, (w ++ rest).length ≤ limit →
      read (w ++ rest) = some (a, rest)) : Reads limit code (counting read) := by
  intro b hlen a n
  unfold counting
  constructor
  · intro h
    obtain ⟨⟨a', rest⟩, hread, heq⟩ := Option.map_eq_some_iff.mp h
    cases heq
    obtain ⟨w, rfl, hw⟩ := hsound hread
    exact ⟨w, rest, rfl, by simp, hw⟩
  · rintro ⟨w, rest, rfl, rfl, hw⟩
    rw [hcomplete hw rest hlen, Option.map_some, List.length_append, Nat.add_sub_cancel]

end

end Lib.Protobuf
