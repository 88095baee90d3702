/-
The field policy of the Portkey log export.

A record of an export is stripped to what the policy allows: named top-level fields,
and named members of the otherwise dropped `metadata` object.  Nothing else of the
record reaches the log record.
-/
import GenaiBridge.Bridge.LogsSettings
import GenaiBridge.Bridge.RawRecord
import GenaiBridge.Lib.Layouts

namespace GenaiBridge

open Lib (Json)

/-- `fieldPolicy`; the sets are lists. -/
structure FieldPolicy where
  indexed : List String
  record : List String
  useCase : String := ""
  metadataRecord : List String := []
  metadataTraceID : String := ""
  traceIDField : String := ""

/-- `defaultLogFieldPolicy`. -/
def defaultLogFieldPolicy : FieldPolicy :=
  { indexed := defaultIndexedFields, record := defaultRecordFields }

/-- `hex.DecodeString`, of an even number of digits. -/
def decodeHex : List Char → Option (List UInt8)
  | hi :: lo :: l => do
      let b := UInt8.ofNat (16 * (← Json.hexVal hi) + (← Json.hexVal lo))
      return b :: (← decodeHex l)
  | _ => some []

/-- `parseTraceID`. -/
def parseTraceID (s : String) : Option (List UInt8) :=
  let h := s.toList.filter (· ≠ '-')
  if h.length ≠ 32 then none
  -- an id of zeros is not valid
  else (decodeHex h).filter fun b => b ≠ List.replicate 16 0

/-- The text before the first ` (`. -/
def cutParenthesis : List Char → List Char
  | ' ' :: '(' :: _ => []
  | c :: l => c :: cutParenthesis l
  | [] => []

/-- `parseExportTime`. -/
def parseExportTime (v : Json) : Option Int := do
  let s ← unmarshalText v
  (Lib.Rfc3339.parse s.toList).or (Lib.Rfc3339.parseDateText (cutParenthesis s.toList))

/-- `useCaseLabelKey`. -/
def useCaseLabelKey : String := "api_key_use_case"

/-- `stampUseCaseRecord`. -/
def stampUseCaseRecord (slug : String) (lr : LogRecord) : LogRecord :=
  if slug = "" then lr
  else { lr with recordAttributes := lr.recordAttributes.insert useCaseLabelKey slug }

namespace FieldPolicy

/-! ### Building a policy -/

/-- `withExtraRecordFields`. -/
def withExtraRecordFields (p : FieldPolicy) (extra : List String) : FieldPolicy :=
  if extra = [] then p else { indexed := p.indexed, record := p.record ++ extra }

/-- `withExtraIndexedFields`. -/
def withExtraIndexedFields (p : FieldPolicy) (extra : List String) : FieldPolicy :=
  if extra = [] then p else { indexed := p.indexed ++ extra, record := p.record }

/-- `withMetadataFields`. -/
def withMetadataFields (p : FieldPolicy) (record : List String) (traceID : String) : FieldPolicy :=
  if record = [] ∧ traceID = "" then p
  else
    { indexed := p.indexed, record := p.record
      metadataRecord := if traceID ≠ "" then record ++ [traceID] else record
      metadataTraceID := traceID }

/-- `withTraceIDField`. -/
def withTraceIDField (p : FieldPolicy) (field : String) : FieldPolicy :=
  if field = "" then p
  else
    { indexed := p.indexed, record := p.record ++ [field]
      metadataRecord := p.metadataRecord, metadataTraceID := p.metadataTraceID
      traceIDField := field }

/-- `traceIDAttrKey`. -/
def traceIDAttrKey (p : FieldPolicy) : String :=
  if p.metadataTraceID ≠ "" then p.metadataTraceID else p.traceIDField

/-! ### Stripping a record -/

/-- The trace id that a value gives to a record, if it is one. -/
def traceIDOf (s : String) (lr : LogRecord) : LogRecord :=
  { lr with traceID := (parseTraceID s).getD lr.traceID }

/-- One turn of the loop of `strip`. -/
def stripField (p : FieldPolicy) (lr : LogRecord) (k : String) (v : Json) : LogRecord :=
  if k ∈ p.indexed ∨ k ∈ p.record then
    match scalarValue v with
    | none => lr
    | some s =>
      let lr :=
        if k ∈ p.indexed then { lr with indexedAttributes := lr.indexedAttributes.insert k s }
        else { lr with recordAttributes := lr.recordAttributes.insert k s }
      if p.traceIDField ≠ "" ∧ k = p.traceIDField then traceIDOf s lr else lr
  else lr

/-- One turn of the loop of `liftMetadata`. -/
def liftField (p : FieldPolicy) (data : RawRecord) (lr : LogRecord) (k : String) : LogRecord :=
  if k ∈ hardDeniedLogFields then lr
  else match (data.get? k).bind scalarValue with
    | none => lr
    | some s =>
      let lr :=
        if (lr.recordAttributes.get? k).isSome then lr
        else { lr with recordAttributes := lr.recordAttributes.insert k s }
      if k = p.metadataTraceID then traceIDOf s lr else lr

/-- `liftMetadata`. -/
def liftMetadata (p : FieldPolicy) (metadata : Option Json) (lr : LogRecord) : LogRecord :=
  match metadata.bind unmarshalRaw with
  | none => lr
  | some data => p.metadataRecord.foldl (p.liftField data) lr

/-- `strip`. -/
def strip (p : FieldPolicy) (raw : RawRecord) (fallbackTS : Int) : LogRecord :=
  let lr : LogRecord :=
    { timestamp := fallbackTS, body := "", severity := "", indexedAttributes := .empty
      recordAttributes := .empty, traceID := [] }
  let lr := raw.entries.foldl (fun lr e => p.stripField lr e.1 e.2) lr
  let lr := p.liftMetadata (raw.get? "metadata") lr
  let lr := { lr with timestamp := ((raw.get? "created_at").bind parseExportTime).getD lr.timestamp }
  stampUseCaseRecord p.useCase (stampSource "portkey" lr)

end FieldPolicy

/-- The policy `newLogsExportLoop` builds. -/
def logFieldPolicy (ls : LogsSettings) (uc : ResolvedUseCase) : FieldPolicy :=
  { (((defaultLogFieldPolicy.withExtraRecordFields ls.extraRecordFields).withExtraIndexedFields
      ls.extraIndexedFields).withMetadataFields ls.metadataRecordFields
      ls.metadataTraceIDField).withTraceIDField ls.traceIDField with useCase := uc.slug }

/-- The policy as a download uses it, for a way to read the lines of an export. -/
def FieldPolicy.linePolicy (unmarshal : List UInt8 → Option RawRecord) (p : FieldPolicy) :
    LinePolicy RawRecord :=
  { unmarshal, strip := p.strip, traceIDAttrKey := p.traceIDAttrKey }

end GenaiBridge
