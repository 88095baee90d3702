/-
What is reported of a partial success.

`decodePartialSuccess` goes by the fields its input begins with (`Leading`): the count it
finds is that of the last field 1 among them, whatever follows them.  So a body that goes
on with garbage, or of which more than 4096 bytes were sent, can be reported with a count
the whole body does not have.
-/
import GenaiBridge.Lib.Protobuf
import GenaiBridge.Bridge.PartialSuccess

namespace GenaiBridge

open Lib.Protobuf

namespace Protowire

/-- `protowire` follows the wire format, on inputs of the size that is read of a body. -/
structure Follows (wire : Protowire) (top : Nat) : Prop where
  tag : Reads 4096 (fun (a : Nat × Nat) w => Tag top w a.1 a.2) wire.consumeTag
  varint : Reads 4096 (fun n w => Varint w n) wire.consumeVarint
  bytes : Reads 4096 (fun v w => Bytes w v) wire.consumeBytes
  value : ∀ num typ, Reads 4096 (fun (_ : Unit) w => ∃ v : Value, v.type = typ ∧
    Encodes top (.value num v) w) (wire.consumeFieldValue num typ)

variable {wire : Protowire} {top : Nat}

/-! ### One field -/

theorem slice_append (w rest : List UInt8) : slice (w ++ rest) w.length = some rest := by
  unfold slice
  rw [if_pos (by rw [List.length_append]; omega), List.drop_left]

theorem type_eq_bytes {v : Value} (h : v.type = bytesType) : ∃ b, v = .bytes b := by
  cases v with
  | bytes b => exact ⟨b, rfl⟩
  | varint n => cases h
  | fixed64 b => cases h
  | group => cases h
  | fixed32 b => cases h

theorem type_eq_varint {v : Value} (h : v.type = varintType) : ∃ n, v = .varint n := by
  cases v with
  | varint n => exact ⟨n, rfl⟩
  | bytes b => cases h
  | fixed64 b => cases h
  | group => cases h
  | fixed32 b => cases h

/-- **What is consumed where a field begins**: its tag, and its value by whichever function. -/
theorem consume_field (h : wire.Follows top) {num : Nat} {v : Value} {w rest : List UInt8}
    (hlen : (w ++ rest).length ≤ 4096) (hfield : IsField top (num, v) w) :
    ∃ tl vl b, wire.consumeTag (w ++ rest) = some ((num, v.type), tl) ∧
      slice (w ++ rest) tl = some b ∧ slice b vl = some rest ∧
      wire.consumeFieldValue num v.type b = some ((), vl) ∧
      (∀ y, v = .bytes y → wire.consumeBytes b = some (y, vl)) ∧
      ∀ n, v = .varint n → wire.consumeVarint b = some (n, vl) := by
  obtain ⟨t, x, rfl, ht, hx⟩ := hfield
  rw [List.append_assoc] at hlen ⊢
  have hlen' : (x ++ rest).length ≤ 4096 := by
    rw [List.length_append] at hlen
    omega
  refine ⟨t.length, x.length, x ++ rest, h.tag.append hlen (a := (num, v.type)) ht,
    slice_append t _, slice_append x rest, (h.value num v.type).append hlen' ⟨v, rfl, hx⟩, ?_, ?_⟩
  · rintro y rfl
    cases hx with
    | bytes hy => exact h.bytes.append hlen' hy
  · rintro n rfl
    cases hx with
    | varint hn => exact h.varint.append hlen' hn

/-- **What is consumed where no field begins.** -/
theorem consume_stop (h : wire.Follows top) {b : List UInt8} (hlen : b.length ≤ 4096)
    (hnot : ¬Begins top b) :
    wire.consumeTag b = none ∨ ∃ num typ tl b', wire.consumeTag b = some ((num, typ), tl) ∧
      slice b tl = some b' ∧ wire.consumeFieldValue num typ b' = none ∧
      (typ = bytesType → wire.consumeBytes b' = none) ∧
      (typ = varintType → wire.consumeVarint b' = none) := by
  cases htag : wire.consumeTag b with
  | none => exact Or.inl rfl
  | some r =>
    obtain ⟨⟨num, typ⟩, tl⟩ := r
    obtain ⟨t, rest, rfl, rfl, ht⟩ := (h.tag b hlen (num, typ) tl).mp htag
    have hlen' : rest.length ≤ 4096 := by
      rw [List.length_append] at hlen
      omega
    -- a value of this type would make a field
    have hvalue : ∀ v : Value, v.type = typ → ∀ x r, rest = x ++ r →
        ¬Encodes top (.value num v) x := by
      rintro v rfl x r rfl hx
      exact hnot ⟨(num, v), t ++ x, r, (List.append_assoc t x r).symm, t, x, rfl, ht, hx⟩
    refine Or.inr ⟨num, typ, t.length, rest, rfl, slice_append t rest, ?_, ?_, ?_⟩
    · rw [Option.eq_none_iff_forall_ne_some]
      rintro ⟨u, n⟩ hread
      obtain ⟨x, r, heq, -, v, htype, hx⟩ := (h.value num typ rest hlen' u n).mp hread
      exact hvalue v htype x r heq hx
    · intro htype
      rw [Option.eq_none_iff_forall_ne_some]
      rintro ⟨v, n⟩ hread
      obtain ⟨x, r, heq, -, hx⟩ := (h.bytes rest hlen' v n).mp hread
      exact hvalue (.bytes v) htype.symm x r heq (.bytes hx)
    · intro htype
      rw [Option.eq_none_iff_forall_ne_some]
      rintro ⟨v, n⟩ hread
      obtain ⟨x, r, heq, -, hx⟩ := (h.varint rest hlen' v n).mp hread
      exact hvalue (.varint v) htype.symm x r heq (.varint hx)

/-- The readers of the wire format, as a `protowire`. -/
def wireFormat (top : Nat) : Protowire where
  consumeTag := counting (readTag top)
  consumeVarint := counting readVarint
  consumeBytes := counting readBytes
  consumeFieldValue num typ := counting fun b =>
    (readValue top (readFields top b.length) num typ b).map fun r => ((), r.2)

theorem wireFormat_follows (top : Nat) : (wireFormat top).Follows top where
  tag := counting_reads (fun h => tag_of_read h) fun h rest _ => readTag_append h rest
  varint := counting_reads (fun h => varintFrom_of_read h) fun h rest _ =>
    readVarintFrom_append h rest
  bytes := counting_reads (fun h => bytes_of_read h) fun h rest _ => readBytes_append h rest
  value num typ := by
    refine counting_reads ?_ ?_
    · intro b u rest h
      obtain ⟨⟨v, r⟩, hread, heq⟩ := Option.map_eq_some_iff.mp h
      cases heq
      obtain ⟨htype, w, hb, hw⟩ := value_of_read (message_of_readFields b.length) hread
      exact ⟨w, hb, v, htype, hw⟩
    · rintro u w ⟨v, rfl, hw⟩ rest _
      have hread := read_of_encodes hw (w ++ rest).length (by rw [List.length_append]; omega) rest
      rw [hread, Option.map_some]

/-! ### The loop of `fieldBytes` -/

theorem bytesOf_of_type_ne {num n : Nat} {v : Value} (h : ¬(n = num ∧ v.type = bytesType)) :
    bytesOf num (n, v) = none := by
  cases v with
  | bytes b => exact if_neg fun hn => h ⟨hn, rfl⟩
  | varint _ => rfl
  | fixed64 _ => rfl
  | group => rfl
  | fixed32 _ => rfl

theorem fieldBytesLoop_field (h : wire.Follows top) {num fuel : Nat} {out : Option (List UInt8)}
    {f : Field} {w rest : List UInt8} (hlen : (w ++ rest).length ≤ 4096)
    (hfield : IsField top f w) :
    wire.fieldBytesLoop num (fuel + 1) out (w ++ rest) =
      wire.fieldBytesLoop num fuel ((bytesOf num f).or out) rest := by
  obtain ⟨n, v⟩ := f
  obtain ⟨tl, vl, b, htag, hslice, hrest, hvalue, hbytes, -⟩ := consume_field h hlen hfield
  rw [fieldBytesLoop, if_neg hfield.append_ne_nil, htag]
  simp only [hslice, Option.bind_eq_bind, Option.bind_some]
  by_cases hsame : n = num ∧ v.type = bytesType
  · obtain ⟨y, rfl⟩ := type_eq_bytes hsame.2
    rw [if_pos hsame, hbytes y rfl]
    simp only [hrest, Option.bind_some, bytesOf, hsame.1, if_true, Option.some_or]
  · rw [if_neg hsame, hvalue, bytesOf_of_type_ne hsame]
    simp only [hrest, Option.bind_some, Option.none_or]

theorem fieldBytesLoop_stop (h : wire.Follows top) {num fuel : Nat} {out : Option (List UInt8)}
    {b : List UInt8} (hlen : b.length ≤ 4096) (hnot : ¬Begins top b) :
    wire.fieldBytesLoop num (fuel + 1) out b = some out := by
  rw [fieldBytesLoop]
  by_cases hnil : b = []
  · rw [if_pos hnil]
  · rw [if_neg hnil]
    rcases consume_stop h hlen hnot with hnone | ⟨n, typ, tl, b', htag, hslice, hvalue, hbytes, -⟩
    · rw [hnone]
    · rw [htag]
      simp only [hslice, Option.bind_eq_bind, Option.bind_some]
      by_cases hsame : n = num ∧ typ = bytesType
      · rw [if_pos hsame, hbytes hsame.2]
      · rw [if_neg hsame, hvalue]

/-- **What `fieldBytes` returns**: the byte string of the last such field its input begins with. -/
theorem fieldBytesLoop_eq (h : wire.Follows top) {num : Nat} {fields : List Field}
    {b : List UInt8} (hleading : Leading top fields b) : ∀ {fuel : Nat} {out : Option (List UInt8)},
    b.length ≤ 4096 → b.length < fuel →
    wire.fieldBytesLoop num fuel out b = some ((lastOf (bytesOf num) fields).or out) := by
  induction hleading with
  | stop hnot =>
    intro fuel out hlen hfuel
    obtain ⟨fuel, rfl⟩ : ∃ k, fuel = k + 1 := ⟨fuel - 1, by omega⟩
    rw [fieldBytesLoop_stop h hlen hnot]
    rfl
  | @field f fields w rest hfield _ ih =>
    intro fuel out hlen hfuel
    obtain ⟨fuel, rfl⟩ : ∃ k, fuel = k + 1 := ⟨fuel - 1, by omega⟩
    have hpos := hfield.length_pos
    rw [fieldBytesLoop_field h hlen hfield]
    rw [List.length_append] at hlen hfuel
    rw [ih (by omega) (by omega), lastOf_cons, Option.or_assoc]

/-! ### The loop of `decodePartialSuccess` -/

/-- What the loop has after a field. -/
def keep (acc : Int × List UInt8) (f : Field) : Int × List UInt8 :=
  (((varintOf 1 f).map fun n : Nat => wrap64 n).getD acc.1, (bytesOf 2 f).getD acc.2)

theorem varintOf_of_type_ne {num n : Nat} {v : Value} (h : ¬(n = num ∧ v.type = varintType)) :
    varintOf num (n, v) = none := by
  cases v with
  | varint m => exact if_neg fun hn => h ⟨hn, rfl⟩
  | bytes _ => rfl
  | fixed64 _ => rfl
  | group => rfl
  | fixed32 _ => rfl

theorem partialSuccessLoop_field (h : wire.Follows top) {fuel : Nat} {acc : Int × List UInt8}
    {f : Field} {w rest : List UInt8} (hlen : (w ++ rest).length ≤ 4096)
    (hfield : IsField top f w) :
    wire.partialSuccessLoop (fuel + 1) acc (w ++ rest) =
      wire.partialSuccessLoop fuel (keep acc f) rest := by
  obtain ⟨n, v⟩ := f
  obtain ⟨rejected, msg⟩ := acc
  obtain ⟨tl, vl, b, htag, hslice, hrest, hvalue, hbytes, hvarint⟩ :=
    consume_field h hlen hfield
  rw [partialSuccessLoop, if_neg hfield.append_ne_nil, htag]
  simp only [hslice, Option.bind_eq_bind, Option.bind_some]
  unfold keep
  by_cases hcount : n = 1 ∧ v.type = varintType
  · obtain ⟨m, rfl⟩ := type_eq_varint hcount.2
    have hm : varintOf 1 (n, .varint m) = some m := if_pos hcount.1
    have hnone : bytesOf 2 (n, .varint m) = none := rfl
    rw [if_pos hcount, hvarint m rfl, hm, hnone, Option.map_some, Option.getD_some,
      Option.getD_none]
    simp only [hrest, Option.bind_some]
  · rw [if_neg hcount, varintOf_of_type_ne hcount, Option.map_none, Option.getD_none]
    by_cases hmsg : n = 2 ∧ v.type = bytesType
    · obtain ⟨y, rfl⟩ := type_eq_bytes hmsg.2
      have hy : bytesOf 2 (n, .bytes y) = some y := if_pos hmsg.1
      rw [if_pos hmsg, hbytes y rfl, hy, Option.getD_some]
      simp only [hrest, Option.bind_some]
    · rw [if_neg hmsg, hvalue, bytesOf_of_type_ne hmsg, Option.getD_none]
      simp only [hrest, Option.bind_some]

theorem partialSuccessLoop_stop (h : wire.Follows top) {fuel : Nat} {acc : Int × List UInt8}
    {b : List UInt8} (hlen : b.length ≤ 4096) (hne : b ≠ []) (hnot : ¬Begins top b) :
    wire.partialSuccessLoop (fuel + 1) acc b = some (0, []) := by
  obtain ⟨rejected, msg⟩ := acc
  rw [partialSuccessLoop, if_neg hne]
  rcases consume_stop h hlen hnot with
    hnone | ⟨n, typ, tl, b', htag, hslice, hvalue, hbytes, hvarint⟩
  · rw [hnone]
  · rw [htag]
    simp only [hslice, Option.bind_eq_bind, Option.bind_some]
    by_cases hcount : n = 1 ∧ typ = varintType
    · rw [if_pos hcount, hvarint hcount.2]
    · rw [if_neg hcount]
      by_cases hmsg : n = 2 ∧ typ = bytesType
      · rw [if_pos hmsg, hbytes hmsg.2]
      · rw [if_neg hmsg, hvalue]

/-- **What the loop returns**: what the fields leave of a message that is well formed, and nothing
of one that is not. -/
theorem partialSuccessLoop_eq (h : wire.Follows top) {fields : List Field} {b : List UInt8}
    (hleading : Leading top fields b) : ∀ {fuel : Nat} {acc : Int × List UInt8},
    b.length ≤ 4096 → b.length < fuel →
    (Message top fields b ∧ wire.partialSuccessLoop fuel acc b = some (fields.foldl keep acc)) ∨
    ((¬∃ fields', Message top fields' b) ∧
      wire.partialSuccessLoop fuel acc b = some (0, [])) := by
  induction hleading with
  | @stop b hnot =>
    intro fuel acc hlen hfuel
    obtain ⟨fuel, rfl⟩ : ∃ k, fuel = k + 1 := ⟨fuel - 1, by omega⟩
    by_cases hnil : b = []
    · subst hnil
      exact Or.inl ⟨.nil, rfl⟩
    · refine Or.inr ⟨?_, partialSuccessLoop_stop h hlen hnil hnot⟩
      rintro ⟨fields', hmessage⟩
      cases fields' with
      | nil => exact hnil (message_nil_iff.mp hmessage)
      | cons f fields' =>
        obtain ⟨w, rest, heq, hfield, -⟩ := message_cons_iff.mp hmessage
        exact hnot ⟨f, w, rest, heq, hfield⟩
  | @field f fields w rest hfield _ ih =>
    intro fuel acc hlen hfuel
    obtain ⟨fuel, rfl⟩ : ∃ k, fuel = k + 1 := ⟨fuel - 1, by omega⟩
    have hpos := hfield.length_pos
    rw [partialSuccessLoop_field h hlen hfield]
    rw [List.length_append] at hlen hfuel
    rcases @ih fuel (keep acc f) (by omega) (by omega) with
      ⟨hmessage, heq⟩ | ⟨hmalformed, heq⟩
    · exact Or.inl ⟨message_cons_iff.mpr ⟨w, rest, rfl, hfield, hmessage⟩, heq⟩
    · refine Or.inr ⟨?_, heq⟩
      rintro ⟨fields', hmessage⟩
      cases fields' with
      | nil =>
        exact hfield.append_ne_nil (message_nil_iff.mp hmessage)
      | cons g fields' =>
        obtain ⟨w', rest', heq', hfield', hrest'⟩ := message_cons_iff.mp hmessage
        obtain ⟨-, -, rfl⟩ := hfield.append_inj hfield' heq'
        exact hmalformed ⟨fields', hrest'⟩

theorem foldl_keep_fst : ∀ (fields : List Field) (acc : Int × List UInt8),
    (fields.foldl keep acc).1 =
      ((lastOf (varintOf 1) fields).map fun n : Nat => wrap64 n).getD acc.1 := by
  intro fields
  induction fields with
  | nil =>
    intro acc
    rfl
  | cons f fields ih =>
    intro acc
    rw [List.foldl_cons, ih, lastOf_cons]
    cases lastOf (varintOf 1) fields with
    | none => rw [Option.none_or, Option.map_none, Option.getD_none, keep]
    | some n => rw [Option.some_or, Option.map_some, Option.getD_some, Option.getD_some]

end Protowire

/-! ### What is reported -/

/-- The fields of a response have a count: the last field 1 that is a byte string is a well-formed
message, and its last field 1 that is a varint is the count, a positive `int64`. -/
def Counts (top : Nat) (fields : List Field) (n : Int) : Prop :=
  ∃ sub inner v, lastOf (bytesOf 1) fields = some sub ∧ Message top inner sub ∧
    lastOf (varintOf 1) inner = some v ∧ wrap64 v = n ∧ 0 < n

/-- A body reports a count: the whole of it is a well-formed message, whose fields have the count. -/
def Reports (top : Nat) (body : List UInt8) (n : Int) : Prop :=
  ∃ fields, Message top fields body ∧ Counts top fields n

namespace Protowire

variable {wire : Protowire} {top : Nat}

/-- **What `decodePartialSuccess` finds**: the count of the fields its input begins with. -/
theorem decodePartialSuccess_spec (h : wire.Follows top) {fields : List Field}
    {b : List UInt8} (hleading : Leading top fields b) (hlen : b.length ≤ 4096) {fuel : Nat}
    (hfuel : b.length < fuel) :
    ∃ r, wire.decodePartialSuccess fuel b = some r ∧
      ∀ n, (r.1 = n ∧ 0 < n) ↔ Counts top fields n := by
  have hfield : wire.fieldBytes fuel b 1 = some (lastOf (bytesOf 1) fields) := by
    rw [fieldBytes, fieldBytesLoop_eq h hleading hlen hfuel, Option.or_none]
  unfold decodePartialSuccess Counts
  rw [hfield]
  simp only [Option.bind_eq_bind, Option.bind_some]
  cases hlast : lastOf (bytesOf 1) fields with
  | none =>
    refine ⟨_, rfl, fun n => ⟨?_, ?_⟩⟩
    · rintro ⟨rfl, hpos⟩
      exact absurd hpos (lt_irrefl 0)
    · rintro ⟨sub, inner, v, hsub, -⟩
      cases hsub
  | some sub =>
    obtain ⟨f, hf, hsub⟩ := mem_of_lastOf hlast
    have hle := hleading.length_bytes_le f hf hsub
    obtain ⟨inner, hinner⟩ := exists_leading top sub
    rcases @partialSuccessLoop_eq wire top h inner sub hinner fuel (0, []) (by omega) (by omega)
      with ⟨hmessage, heq⟩ | ⟨hmalformed, heq⟩
    · refine ⟨_, heq, fun n => ?_⟩
      rw [foldl_keep_fst]
      constructor
      · rintro ⟨hcount, hpos⟩
        cases hv : lastOf (varintOf 1) inner with
        | none =>
          rw [hv, Option.map_none, Option.getD_none] at hcount
          exact absurd hpos (by rw [← hcount]; exact lt_irrefl 0)
        | some v =>
          rw [hv, Option.map_some, Option.getD_some] at hcount
          exact ⟨sub, inner, v, rfl, hmessage, hv, hcount, hpos⟩
      · rintro ⟨sub', inner', v, hsub', hmessage', hv, hcount, hpos⟩
        obtain rfl := Option.some.inj hsub'
        obtain rfl := hmessage.unique hmessage'
        rw [hv, Option.map_some, Option.getD_some]
        exact ⟨hcount, hpos⟩
    · refine ⟨_, heq, fun n => ⟨?_, ?_⟩⟩
      · rintro ⟨rfl, hpos⟩
        exact absurd hpos (lt_irrefl 0)
      · rintro ⟨sub', inner', v, hsub', hmessage', -⟩
        obtain rfl := Option.some.inj hsub'
        exact absurd ⟨inner', hmessage'⟩ hmalformed

end Protowire

/-- **What is handed to `OnPartialReject`**: the count of the fields the first 4096 bytes begin
with. -/
theorem reportPartialReject_spec {wire : Protowire} {top : Nat} (h : wire.Follows top)
    (redact : List UInt8 → List UInt8) (logs : Bool) {status : Int} (h200 : 200 ≤ status)
    (h300 : status < 300) {body : List UInt8} {fields : List Field}
    (hleading : Leading top fields (readBody body)) {fuel : Nat} (hfuel : 4096 < fuel) :
    ∃ r, reportPartialReject wire redact true logs fuel status body = some r ∧
      ∀ n, r.map PartialReject.count = some n ↔ Counts top fields n := by
  have hlen : (readBody body).length ≤ 4096 := List.length_take_le 4096 body
  obtain ⟨⟨n, msg⟩, hdecode, hcounts⟩ :=
    @Protowire.decodePartialSuccess_spec wire top h fields _ hleading hlen fuel (by omega)
  unfold reportPartialReject
  rw [if_pos ⟨h200, h300, rfl⟩, hdecode]
  simp only [Option.bind_eq_bind, Option.bind_some]
  by_cases hpos : 0 < n
  · rw [if_pos hpos]
    refine ⟨_, rfl, fun m => ?_⟩
    rw [← hcounts m]
    simp only [Option.map_some, Option.some.injEq]
    constructor
    · rintro rfl
      exact ⟨rfl, hpos⟩
    · intro hm
      exact hm.1
  · rw [if_neg hpos]
    refine ⟨_, rfl, fun m => ?_⟩
    rw [← hcounts m]
    constructor
    · intro hnone
      cases hnone
    · rintro ⟨rfl, hm⟩
      exact absurd hm hpos

/-- **When the reports are exact.**  `post` returns on every body, and what it reports is what the
whole body says just if the body is well formed with the count that its first 4096 bytes begin with,
or it is not well formed and they begin with no count. -/
theorem partial_reject_exact_iff (wire : Protowire) (top : Nat) (h : wire.Follows top)
    (redact : List UInt8 → List UInt8) (logs : Bool) (status : Int)
    (h2xx : 200 ≤ status ∧ status < 300) (body : List UInt8) (fuel : Nat) (hfuel : 4096 < fuel) :
    ∃ r, reportPartialReject wire redact true logs fuel status body = some r ∧
      ((∀ n, r.map PartialReject.count = some n ↔ Reports top body n) ↔
        ∀ fields, Leading top fields (readBody body) →
          (∃ whole, Message top whole body ∧ ∀ n, Counts top fields n ↔ Counts top whole n) ∨
          ((¬∃ whole, Message top whole body) ∧ ∀ n, ¬Counts top fields n)) := by
  obtain ⟨fields, hleading⟩ := exists_leading top (readBody body)
  obtain ⟨r, hreport, hcounts⟩ :=
    reportPartialReject_spec h redact logs h2xx.1 h2xx.2 hleading hfuel
  refine ⟨r, hreport, ?_⟩
  have hunique : ∀ {P : List Field → Prop},
      (∀ fields, Leading top fields (readBody body) → P fields) ↔ P fields := by
    intro P
    constructor
    · intro hall
      exact hall fields hleading
    · intro hP fields' hleading'
      rw [← hleading.unique hleading']
      exact hP
  rw [hunique]
  simp only [hcounts]
  by_cases hwell : ∃ whole, Message top whole body
  · obtain ⟨whole, hwhole⟩ := hwell
    have hreports : ∀ n, Reports top body n ↔ Counts top whole n := by
      intro n
      constructor
      · rintro ⟨whole', hwhole', hcount⟩
        rw [hwhole.unique hwhole']
        exact hcount
      · intro hcount
        exact ⟨whole, hwhole, hcount⟩
    simp only [hreports]
    constructor
    · intro hsame
      exact Or.inl ⟨whole, hwhole, hsame⟩
    · rintro (⟨whole', hwhole', hsame⟩ | ⟨hmalformed, -⟩)
      · rw [hwhole.unique hwhole']
        exact hsame
      · exact absurd ⟨whole, hwhole⟩ hmalformed
  · have hreports : ∀ n, ¬Reports top body n := by
      rintro n ⟨whole, hwhole, -⟩
      exact hwell ⟨whole, hwhole⟩
    constructor
    · intro hsame
      exact Or.inr ⟨hwell, fun n hcount => hreports n ((hsame n).mp hcount)⟩
    · rintro (⟨whole, hwhole, -⟩ | ⟨-, hnone⟩)
      · exact absurd ⟨whole, hwhole⟩ hwell
      · intro n
        exact ⟨fun hcount => absurd hcount (hnone n), fun hreport => absurd hreport (hreports n)⟩

/-- A response with a count of five, and nothing else. -/
theorem partial_reject_exact_five :
    ∃ r, reportPartialReject (Protowire.wireFormat 536870911) id true false 4097 200
        [0x0a, 0x02, 0x08, 0x05] = some r ∧
      ∀ n, r.map PartialReject.count = some n ↔
        Reports 536870911 [0x0a, 0x02, 0x08, 0x05] n := by
  obtain ⟨r, hreport, hiff⟩ := partial_reject_exact_iff _ 536870911
    (Protowire.wireFormat_follows _) id false 200 ⟨by decide, by decide⟩
    [0x0a, 0x02, 0x08, 0x05] 4097 (by decide)
  refine ⟨r, hreport, hiff.mpr fun fields hleading => Or.inl ?_⟩
  obtain ⟨w, hw, hmessage⟩ := @message_of_readFields 536870911 4 [0x0a, 0x02, 0x08, 0x05]
  have hrest : (readFields 536870911 4 [0x0a, 0x02, 0x08, 0x05]).2 = [] := by decide
  rw [hrest, List.append_nil] at hw
  rw [← hw] at hmessage
  obtain rfl := hleading.unique (Leading.of_message hmessage)
  exact ⟨_, hmessage, fun n => Iff.rfl⟩

/-- **Trailing garbage is reported**: the same response and one more byte is no message, and the
count of five is handed on all the same. -/
theorem partial_reject_of_garbage :
    (Protowire.wireFormat 536870911).Follows 536870911 ∧
    reportPartialReject (Protowire.wireFormat 536870911) id true false 4097 200
        [0x0a, 0x02, 0x08, 0x05, 0xff] = some (some ⟨"metrics", 5, []⟩) ∧
    (¬∃ whole, Message 536870911 whole [0x0a, 0x02, 0x08, 0x05, 0xff]) ∧
    ∀ n, ¬Reports 536870911 [0x0a, 0x02, 0x08, 0x05, 0xff] n := by
  have hmalformed : ¬∃ whole, Message 536870911 whole [0x0a, 0x02, 0x08, 0x05, 0xff] := by
    rintro ⟨whole, hwhole⟩
    have hread : (readFields 536870911 5 [0x0a, 0x02, 0x08, 0x05, 0xff]).2 = [] :=
      congrArg Prod.snd (readFields_of_message hwhole)
    exact absurd hread (by decide)
  refine ⟨Protowire.wireFormat_follows _, by decide, hmalformed, ?_⟩
  rintro n ⟨whole, hwhole, -⟩
  exact hmalformed ⟨whole, hwhole⟩

end GenaiBridge
