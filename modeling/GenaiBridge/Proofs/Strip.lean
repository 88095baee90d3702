/-
What the two field policies keep of a raw record, key by key.

The loop of a `strip` walks a record once and fills three parts of the log record
independently: the indexed attributes, the record attributes and, for an export, the
trace id.  Each part is a lookup in the record, so what a log record holds under a key
depends on the record at that key alone.
-/
import GenaiBridge.Bridge.LogsStrip
import GenaiBridge.Bridge.RunsStrip

namespace GenaiBridge

open Lib (Json SortedMap)

/-- What a tier of a policy makes of a field. -/
def tierValue (render : Json → Option String) (keep : String → Bool) (k : String) (v : Json) :
    Option String :=
  if keep k then render v else none

/-- The fields of the record tier: those that are not indexed. -/
def recordTier (indexed record : List String) (k : String) : Bool := k ∉ indexed ∧ k ∈ record

/-! ### The log export -/

namespace FieldPolicy

/-- The record that `strip` starts from. -/
def blank (fallbackTS : Int) : LogRecord :=
  { timestamp := fallbackTS, body := "", severity := "", indexedAttributes := .empty
    recordAttributes := .empty, traceID := [] }

/-- The record after the loop of `strip`. -/
def fields (p : FieldPolicy) (raw : RawRecord) (fallbackTS : Int) : LogRecord :=
  raw.entries.foldl (fun lr e => p.stripField lr e.1 e.2) (blank fallbackTS)

/-- The trace id that a field gives. -/
def traceValue (p : FieldPolicy) (k : String) (v : Json) : Option (List UInt8) :=
  if (k ∈ p.indexed ∨ k ∈ p.record) ∧ p.traceIDField ≠ "" ∧ k = p.traceIDField then
    (scalarValue v).bind parseTraceID
  else none

private theorem stripField_eq (p : FieldPolicy) (lr : LogRecord) (k : String) (v : Json) :
    p.stripField lr k v = { lr with
      indexedAttributes := SortedMap.collectStep (tierValue scalarValue (· ∈ p.indexed))
        lr.indexedAttributes (k, v)
      recordAttributes := SortedMap.collectStep
        (tierValue scalarValue (recordTier p.indexed p.record)) lr.recordAttributes (k, v)
      traceID := (p.traceValue k v).getD lr.traceID } := by
  unfold stripField SortedMap.collectStep tierValue recordTier traceIDOf
  by_cases hkeep : k ∈ p.indexed ∨ k ∈ p.record
  · cases hv : scalarValue v with
    | none => simp [traceValue, hkeep, hv]
    | some s =>
      have htrace : p.traceValue k v =
          if p.traceIDField ≠ "" ∧ k = p.traceIDField then parseTraceID s else none := by
        simp [traceValue, hkeep, hv]
      rw [if_pos hkeep, htrace]
      by_cases ht : p.traceIDField ≠ "" ∧ k = p.traceIDField
      · simp only [if_pos ht]
        by_cases hi : k ∈ p.indexed
        · simp [hi]
        · simp [hi, hkeep.resolve_left hi]
      · simp only [if_neg ht]
        by_cases hi : k ∈ p.indexed
        · simp [hi]
        · simp [hi, hkeep.resolve_left hi]
  · obtain ⟨hi, hr⟩ := not_or.mp hkeep
    rw [if_neg hkeep]
    simp [traceValue, hi, hr]

variable (p : FieldPolicy) (raw : RawRecord) (fallbackTS : Int)

@[simp] theorem get?_indexedAttributes_fields (k : String) :
    (p.fields raw fallbackTS).indexedAttributes.get? k =
      (raw.get? k).bind (tierValue scalarValue (· ∈ p.indexed) k) := by
  unfold fields
  rw [← List.foldl_hom LogRecord.indexedAttributes fun lr e => by rw [stripField_eq]]
  exact SortedMap.get?_collect _ raw k

@[simp] theorem get?_recordAttributes_fields (k : String) :
    (p.fields raw fallbackTS).recordAttributes.get? k =
      (raw.get? k).bind (tierValue scalarValue (recordTier p.indexed p.record) k) := by
  unfold fields
  rw [← List.foldl_hom LogRecord.recordAttributes fun lr e => by rw [stripField_eq]]
  exact SortedMap.get?_collect _ raw k

theorem traceID_fields :
    (p.fields raw fallbackTS).traceID =
      (raw.get? p.traceIDField).elim [] fun v => (p.traceValue p.traceIDField v).getD [] := by
  unfold fields
  refine @SortedMap.foldl_at_key _ _ _ _ _ _ LogRecord.traceID p.traceIDField
    (fun v id => (p.traceValue p.traceIDField v).getD id) (fun lr v => by rw [stripField_eq])
    (fun lr k v hk => ?_) raw (blank fallbackTS)
  rw [stripField_eq]
  simp [traceValue, hk]

theorem rest_fields :
    (p.fields raw fallbackTS).timestamp = fallbackTS ∧ (p.fields raw fallbackTS).body = "" ∧
      (p.fields raw fallbackTS).severity = "" := by
  unfold fields
  suffices h : ∀ (l : List (String × Json)) (lr : LogRecord),
      let lr' := l.foldl (fun lr e => p.stripField lr e.1 e.2) lr
      lr'.timestamp = lr.timestamp ∧ lr'.body = lr.body ∧ lr'.severity = lr.severity from
    h raw.entries (blank fallbackTS)
  intro l
  induction l with
  | nil => exact fun lr => ⟨rfl, rfl, rfl⟩
  | cons e l ih =>
    intro lr
    have hrest := ih (p.stripField lr e.1 e.2)
    rw [List.foldl_cons]
    rwa [stripField_eq] at hrest ⊢

/-! ### The members of the metadata -/

/-- A member of the metadata object of a record. -/
def metadataField (raw : RawRecord) (k : String) : Option Json :=
  ((raw.get? "metadata").bind unmarshalRaw).bind fun data => data.get? k

/-- One turn of the loop of `liftMetadata`, for the member it reads. -/
def liftValue (p : FieldPolicy) (member : String → Option Json) (lr : LogRecord) (k : String) :
    LogRecord :=
  if k ∈ hardDeniedLogFields then lr
  else match (member k).bind scalarValue with
    | none => lr
    | some s =>
      let lr :=
        if (lr.recordAttributes.get? k).isSome then lr
        else { lr with recordAttributes := lr.recordAttributes.insert k s }
      if k = p.metadataTraceID then traceIDOf s lr else lr

theorem liftMetadata_eq (lr : LogRecord) :
    p.liftMetadata (raw.get? "metadata") lr =
      p.metadataRecord.foldl (p.liftValue (metadataField raw)) lr := by
  unfold liftMetadata
  cases hdata : (raw.get? "metadata").bind unmarshalRaw with
  | none =>
    have hnone : p.liftValue (metadataField raw) = fun lr _ => lr := by
      funext lr k
      simp [liftValue, metadataField, hdata]
    rw [hnone]
    exact (List.foldl_fixed' (fun _ => rfl) _).symm
  | some data =>
    have hsome : p.liftValue (metadataField raw) = p.liftField data := by
      funext lr k
      have hmember : metadataField raw k = data.get? k := by simp [metadataField, hdata]
      unfold liftValue
      rw [hmember]
      rfl
    rw [hsome]

/-- What the metadata may add under a key. -/
def memberValue (member : String → Option Json) (named : List String) (k : String) :
    Option String :=
  if k ∈ named ∧ k ∉ hardDeniedLogFields then (member k).bind scalarValue else none

private theorem recordAttributes_liftValue (member : String → Option Json) (lr : LogRecord)
    (j k : String) :
    (p.liftValue member lr j).recordAttributes.get? k =
      (lr.recordAttributes.get? k).or (memberValue member [j] k) := by
  unfold liftValue memberValue traceIDOf
  by_cases hden : j ∈ hardDeniedLogFields
  · rw [if_pos hden, if_neg, Option.or_none]
    rintro ⟨hk, hnot⟩
    exact hnot (List.mem_singleton.mp hk ▸ hden)
  · rw [if_neg hden]
    cases hv : (member j).bind scalarValue with
    | none =>
      by_cases hk : k = j
      · simp [hk, hv]
      · simp [hk]
    | some s =>
      have hattrs : ∀ lr' : LogRecord,
          (if j = p.metadataTraceID then
            { lr' with traceID := (parseTraceID s).getD lr'.traceID } else lr').recordAttributes =
            lr'.recordAttributes := fun lr' => by split_ifs <;> rfl
      dsimp only
      rw [hattrs]
      cases hold : lr.recordAttributes.get? j with
      | some old => by_cases hk : k = j <;> simp [hk, hold]
      | none => by_cases hk : k = j <;> simp [hk, hold, hv, hden, SortedMap.get?_insert]

private theorem rest_liftValue (member : String → Option Json) (lr : LogRecord) (k : String) :
    (p.liftValue member lr k).indexedAttributes = lr.indexedAttributes ∧
      (p.liftValue member lr k).body = lr.body := by
  unfold liftValue traceIDOf
  split
  · exact ⟨rfl, rfl⟩
  · split
    · exact ⟨rfl, rfl⟩
    · dsimp only
      split_ifs <;> exact ⟨rfl, rfl⟩

theorem get?_recordAttributes_lift (member : String → Option Json) (named : List String)
    (lr : LogRecord) (k : String) :
    (named.foldl (p.liftValue member) lr).recordAttributes.get? k =
      (lr.recordAttributes.get? k).or (memberValue member named k) := by
  induction named generalizing lr with
  | nil => simp [memberValue]
  | cons j named ih =>
    rw [List.foldl_cons, ih, recordAttributes_liftValue, Option.or_assoc]
    congr 1
    unfold memberValue
    by_cases hj : k = j
    · subst hj
      by_cases hden : k ∈ hardDeniedLogFields <;> cases (member k).bind scalarValue <;>
        simp [hden]
    · simp [hj]

theorem rest_lift (member : String → Option Json) (named : List String) (lr : LogRecord) :
    (named.foldl (p.liftValue member) lr).indexedAttributes = lr.indexedAttributes ∧
      (named.foldl (p.liftValue member) lr).body = lr.body := by
  induction named generalizing lr with
  | nil => exact ⟨rfl, rfl⟩
  | cons j named ih =>
    obtain ⟨hindexed, hbody⟩ := ih (p.liftValue member lr j)
    obtain ⟨hindexed', hbody'⟩ := p.rest_liftValue member lr j
    exact ⟨hindexed.trans hindexed', hbody.trans hbody'⟩

/-! ### The stripped record -/

theorem get?_indexedAttributes_strip (k : String) :
    (p.strip raw fallbackTS).indexedAttributes.get? k =
      (raw.get? k).bind (tierValue scalarValue (· ∈ p.indexed) k) := by
  have hstamp : (p.strip raw fallbackTS).indexedAttributes =
      (p.liftMetadata (raw.get? "metadata") (p.fields raw fallbackTS)).indexedAttributes := by
    unfold strip stampUseCaseRecord stampSource
    split_ifs <;> rfl
  rw [hstamp, liftMetadata_eq, (p.rest_lift _ _ _).1, get?_indexedAttributes_fields]

theorem body_strip : (p.strip raw fallbackTS).body = "" := by
  have hstamp : (p.strip raw fallbackTS).body =
      (p.liftMetadata (raw.get? "metadata") (p.fields raw fallbackTS)).body := by
    unfold strip stampUseCaseRecord stampSource
    split_ifs <;> rfl
  rw [hstamp, liftMetadata_eq, (p.rest_lift _ _ _).2, (p.rest_fields raw fallbackTS).2.1]

/-- **The record attributes of a stripped record**, the two stamps apart: a field of the record
tier, or a named member of the metadata. -/
theorem get?_recordAttributes_strip (k : String) :
    (p.strip raw fallbackTS).recordAttributes.get? k =
      if p.useCase ≠ "" ∧ k = useCaseLabelKey then some p.useCase
      else if k = sourceAttrKey then some "portkey"
      else ((raw.get? k).bind (tierValue scalarValue (recordTier p.indexed p.record) k)).or
        (memberValue (metadataField raw) p.metadataRecord k) := by
  have hstamp : (p.strip raw fallbackTS).recordAttributes =
      let m := (p.liftMetadata (raw.get? "metadata")
        (p.fields raw fallbackTS)).recordAttributes.insert sourceAttrKey "portkey"
      if p.useCase = "" then m else m.insert useCaseLabelKey p.useCase := by
    unfold strip stampUseCaseRecord stampSource
    split_ifs <;> rfl
  rw [hstamp, liftMetadata_eq]
  by_cases huse : p.useCase = ""
  · simp only [huse, if_true, ne_eq, not_true, false_and, if_false, SortedMap.get?_insert,
      get?_recordAttributes_lift, get?_recordAttributes_fields]
  · simp only [huse, if_false, ne_eq, not_false_iff, true_and, SortedMap.get?_insert,
      get?_recordAttributes_lift, get?_recordAttributes_fields]

end FieldPolicy

/-! ### The runs -/

namespace RunsFieldPolicy

/-- The record after the loop of `strip`. -/
def fields (p : RunsFieldPolicy) (raw : RawRecord) (fallbackTS : Int) : LogRecord :=
  raw.entries.foldl (fun lr e => p.stripField lr e.1 e.2) (FieldPolicy.blank fallbackTS)

private theorem stripField_eq (p : RunsFieldPolicy) (lr : LogRecord) (k : String) (v : Json) :
    p.stripField lr k v = { lr with
      indexedAttributes := SortedMap.collectStep (tierValue scalarToString (· ∈ p.indexed))
        lr.indexedAttributes (k, v)
      recordAttributes := SortedMap.collectStep
        (tierValue scalarToString (recordTier p.indexed p.record)) lr.recordAttributes (k, v) } := by
  unfold stripField SortedMap.collectStep tierValue recordTier
  by_cases hkeep : k ∈ p.indexed ∨ k ∈ p.record
  · rw [if_pos hkeep]
    by_cases hi : k ∈ p.indexed
    · cases scalarToString v <;> simp [hi]
    · cases scalarToString v <;> simp [hi, hkeep.resolve_left hi]
  · obtain ⟨hi, hr⟩ := not_or.mp hkeep
    rw [if_neg hkeep]
    simp [hi, hr]

variable (p : RunsFieldPolicy) (raw : RawRecord) (fallbackTS : Int)

theorem get?_indexedAttributes_fields (k : String) :
    (p.fields raw fallbackTS).indexedAttributes.get? k =
      (raw.get? k).bind (tierValue scalarToString (· ∈ p.indexed) k) := by
  unfold fields
  rw [← List.foldl_hom LogRecord.indexedAttributes fun lr e => by rw [stripField_eq]]
  exact SortedMap.get?_collect _ raw k

theorem get?_recordAttributes_fields (k : String) :
    (p.fields raw fallbackTS).recordAttributes.get? k =
      (raw.get? k).bind (tierValue scalarToString (recordTier p.indexed p.record) k) := by
  unfold fields
  rw [← List.foldl_hom LogRecord.recordAttributes fun lr e => by rw [stripField_eq]]
  exact SortedMap.get?_collect _ raw k

theorem rest_fields :
    (p.fields raw fallbackTS).timestamp = fallbackTS ∧ (p.fields raw fallbackTS).body = "" ∧
      (p.fields raw fallbackTS).severity = "" ∧ (p.fields raw fallbackTS).traceID = [] := by
  unfold fields
  suffices h : ∀ (l : List (String × Json)) (lr : LogRecord),
      let lr' := l.foldl (fun lr e => p.stripField lr e.1 e.2) lr
      lr'.timestamp = lr.timestamp ∧ lr'.body = lr.body ∧ lr'.severity = lr.severity ∧
        lr'.traceID = lr.traceID from
    h raw.entries (FieldPolicy.blank fallbackTS)
  intro l
  induction l with
  | nil => exact fun lr => ⟨rfl, rfl, rfl, rfl⟩
  | cons e l ih =>
    intro lr
    have hrest := ih (p.stripField lr e.1 e.2)
    rw [List.foldl_cons]
    rwa [stripField_eq] at hrest ⊢

theorem get?_indexedAttributes_strip (k : String) :
    (p.strip raw fallbackTS).indexedAttributes.get? k =
      (raw.get? k).bind (tierValue scalarToString (· ∈ p.indexed) k) :=
  p.get?_indexedAttributes_fields raw fallbackTS k

theorem get?_recordAttributes_strip (k : String) :
    (p.strip raw fallbackTS).recordAttributes.get? k =
      if k = sourceAttrKey then some "langsmith"
      else (raw.get? k).bind (tierValue scalarToString (recordTier p.indexed p.record) k) := by
  have hstamp : (p.strip raw fallbackTS).recordAttributes =
      (p.fields raw fallbackTS).recordAttributes.insert sourceAttrKey "langsmith" := rfl
  rw [hstamp, SortedMap.get?_insert, get?_recordAttributes_fields]

end RunsFieldPolicy

end GenaiBridge
