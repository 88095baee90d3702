/-
The field policy of the LangSmith runs, and the settings that shape it.

A run is stripped to the top-level fields that the policy names.  The settings add
fields to it; what they may add is bounded by two tables, the fields that are never let
through and the fields the server accepts in a projection.
-/
import GenaiBridge.Bridge.Guard
import GenaiBridge.Bridge.LogsSettings
import GenaiBridge.Bridge.RawRecord
import GenaiBridge.Lib.Layouts

namespace GenaiBridge

open Lib (Json)

/-! ### Stripping a run -/

/-- `runsFieldPolicy`; the sets are lists. -/
structure RunsFieldPolicy where
  indexed : List String
  record : List String
deriving DecidableEq

/-- `defaultRunsFieldPolicy`. -/
def defaultRunsFieldPolicy : RunsFieldPolicy :=
  { indexed := ["run_type", "status"]
    record := ["id", "trace_id", "session_id", "parent_run_id", "start_time", "end_time",
      "first_token_time", "total_tokens", "prompt_tokens", "completion_tokens",
      "total_cost", "prompt_cost", "completion_cost", "dotted_order", "thread_id"] }

/-- `scalarToString`: a scalar, or an array of scalars joined by commas. -/
def scalarToString : Json → Option String
  | .arr [] => none
  | .arr items => (items.mapM scalarValue).map (String.intercalate ",")
  | v => scalarValue v

/-- `parseRunTime`: a time without a zone is in UTC. -/
def parseRunTime (v : Json) : Option Int := do
  let s ← unmarshalText v
  (Lib.Rfc3339.parseLocal s.toList).or (Lib.Rfc3339.parse s.toList)

/-- `severityFor`. -/
def severityFor (status : String) : String :=
  if status = "error" ∨ status = "timeout" ∨ status = "interrupted" then "ERROR" else "INFO"

namespace RunsFieldPolicy

/-- `withExtraRecordFields`. -/
def withExtraRecordFields (p : RunsFieldPolicy) (extra : List String) : RunsFieldPolicy :=
  if extra = [] then p else { indexed := p.indexed, record := p.record ++ extra }

/-- `withExtraIndexedFields`. -/
def withExtraIndexedFields (p : RunsFieldPolicy) (extra : List String) : RunsFieldPolicy :=
  if extra = [] then p else { indexed := p.indexed ++ extra, record := p.record }

/-- `selectKeys`: a field of both tiers is named twice. -/
def selectKeys (p : RunsFieldPolicy) : List String :=
  (p.indexed.dedup ++ p.record.dedup).insertionSort (· ≤ ·)

/-- One turn of the loop of `strip`. -/
def stripField (p : RunsFieldPolicy) (lr : LogRecord) (k : String) (v : Json) : LogRecord :=
  if k ∈ p.indexed ∨ k ∈ p.record then
    match scalarToString v with
    | none => lr
    | some s =>
      if k ∈ p.indexed then { lr with indexedAttributes := lr.indexedAttributes.insert k s }
      else { lr with recordAttributes := lr.recordAttributes.insert k s }
  else lr

/-- `strip`. -/
def strip (p : RunsFieldPolicy) (raw : RawRecord) (fallbackTS : Int) : LogRecord :=
  let lr : LogRecord :=
    { timestamp := fallbackTS, body := "", severity := "", indexedAttributes := .empty
      recordAttributes := .empty, traceID := [] }
  let lr := raw.entries.foldl (fun lr e => p.stripField lr e.1 e.2) lr
  let lr := { lr with
    timestamp := ((raw.get? "start_time").bind parseRunTime).getD lr.timestamp
    severity := severityFor ((lr.indexedAttributes.get? "status").getD "") }
  stampSource "langsmith" lr

end RunsFieldPolicy

/-! ### The settings -/

/-- `runsPageSizeMax`. -/
def runsPageSizeMax : Int := 100

/-- `defaultRunsResponseBytes`. -/
def defaultRunsResponseBytes : Int := 32 * 2 ^ 20

/-- `runsSettings`. -/
structure RunsSettings where
  sessionIDs : List String := []
  sessionFilter : String := ""
  maxSessions : Int
  window : Int
  settle : Int
  maxBackfill : Int
  pageSize : Int
  maxPagesPerWindow : Int
  maxResponseBytes : Int
  sessionRefresh : Int
  rootOnly : Bool := false
  runType : String := ""
  extraRecordFields : List String
  extraIndexedFields : List String := []
deriving DecidableEq

/-- `defaultRunsSettings`. -/
def defaultRunsSettings : RunsSettings :=
  { maxSessions := 1000
    window := hour
    settle := 10 * minute
    maxBackfill := 24 * hour
    pageSize := runsPageSizeMax
    maxPagesPerWindow := 100
    maxResponseBytes := defaultRunsResponseBytes
    sessionRefresh := 5 * minute
    extraRecordFields := ["tags", "child_run_ids", "app_path"] }

/-- `hardDeniedRunsFields`. -/
def hardDeniedRunsFields : List String :=
  absoluteNeverDenyKeys ++ ["inputs_s3_urls", "outputs_s3_urls"]

/-- `validLangsmithSelectEnum`. -/
def validLangsmithSelectEnum : List String :=
  ["id", "name", "run_type", "start_time", "end_time", "status", "error", "extra", "events",
    "inputs", "inputs_preview", "inputs_s3_urls", "inputs_or_signed_url", "outputs",
    "outputs_preview", "outputs_s3_urls", "outputs_or_signed_url", "s3_urls",
    "error_or_signed_url", "events_or_signed_url", "extra_or_signed_url",
    "serialized_or_signed_url", "parent_run_id", "manifest_id", "manifest_s3_id", "manifest",
    "session_id", "serialized", "reference_example_id", "reference_dataset_id", "total_tokens",
    "prompt_tokens", "prompt_token_details", "completion_tokens", "completion_token_details",
    "total_cost", "prompt_cost", "prompt_cost_details", "completion_cost",
    "completion_cost_details", "price_model_id", "first_token_time", "trace_id", "dotted_order",
    "last_queued_at", "feedback_stats", "child_run_ids", "parent_run_ids", "tags", "in_dataset",
    "app_path", "share_token", "trace_tier", "trace_first_received_at", "ttl_seconds",
    "trace_upgrade", "thread_id", "trace_min_max_start_time", "messages", "inserted_at"]

/-- Why a value is refused. -/
inductive RunsValueError
  | unparsable
  /-- `must be positive, got %s`. -/
  | notPositive (value : Int)
  /-- `must be >= 0, got %s`. -/
  | negative (value : Int)
deriving DecidableEq

/-- An error of the settings. -/
inductive RunsSettingsError
  /-- `setting %q=%q: %w`. -/
  | setting (key value : String) (err : RunsValueError)
  /-- `session_ids or session_filter is required`. -/
  | noScope
  /-- `window must be positive`. -/
  | window
  /-- `page_size %d exceeds server max %d`. -/
  | pageSize (value limit : Int)
  /-- `settle (%s) must be < window (%s)`. -/
  | settle (settle window : Int)
  /-- `%s cannot include %q`. -/
  | hardDenied (setting field : String)
  /-- `%s value %q is not a known LangSmith 0.13.5 select field`. -/
  | notSelectable (setting field : String)
  /-- `loops.runs.window must be unset/0`. -/
  | loopWindow (window : Int)
deriving DecidableEq

/-- `parseRunsPositiveDuration`. -/
def parseRunsPositiveDuration (parseDuration : String → Option Int) (v : String) :
    Except RunsValueError Int :=
  match parseDuration v with
  | none => .error .unparsable
  | some d => if d ≤ 0 then .error (.notPositive d) else .ok d

/-- `parseRunsNonNegDuration`. -/
def parseRunsNonNegDuration (parseDuration : String → Option Int) (v : String) :
    Except RunsValueError Int :=
  match parseDuration v with
  | none => .error .unparsable
  | some d => if d < 0 then .error (.negative d) else .ok d

/-- `parseRunsPositiveInt`. -/
def parseRunsPositiveInt (v : String) : Except RunsValueError Int :=
  match atoi v with
  | none => .error .unparsable
  | some n => if n ≤ 0 then .error (.notPositive n) else .ok n

/-- `strconv.ParseBool`. -/
def parseBool (v : String) : Except RunsValueError Bool :=
  if v ∈ ["1", "t", "T", "TRUE", "true", "True"] then .ok true
  else if v ∈ ["0", "f", "F", "FALSE", "false", "False"] then .ok false
  else .error .unparsable

/-- The switch of `applyRunsSettings`. -/
def applyRunsValue (parseDuration : String → Option Int) (rs : RunsSettings) (k v : String) :
    Except RunsValueError RunsSettings :=
  match k with
  | "session_ids" => .ok { rs with sessionIDs := splitCSV v }
  | "session_filter" => .ok { rs with sessionFilter := v }
  | "max_sessions" => return { rs with maxSessions := ← parseRunsPositiveInt v }
  | "window" => return { rs with window := ← parseRunsPositiveDuration parseDuration v }
  | "settle" => return { rs with settle := ← parseRunsNonNegDuration parseDuration v }
  | "max_backfill" => return { rs with maxBackfill := ← parseRunsPositiveDuration parseDuration v }
  | "session_refresh" =>
    return { rs with sessionRefresh := ← parseRunsNonNegDuration parseDuration v }
  | "page_size" => return { rs with pageSize := ← parseRunsPositiveInt v }
  | "max_pages_per_window" => return { rs with maxPagesPerWindow := ← parseRunsPositiveInt v }
  | "max_response_bytes" => return { rs with maxResponseBytes := ← parseRunsPositiveInt v }
  | "root_only" => return { rs with rootOnly := ← parseBool v }
  | "run_type" => .ok { rs with runType := v }
  | "extra_record_fields" => .ok { rs with extraRecordFields := splitCSV v }
  | "extra_indexed_fields" => .ok { rs with extraIndexedFields := splitCSV v }
  | _ => .ok rs

/-- The first of some fields that fails a check. -/
def refuseRunsFields (refused : String → Bool) (err : String → RunsSettingsError)
    (fields : List String) : Except RunsSettingsError Unit :=
  match fields.find? refused with
  | some f => .error (err f)
  | none => .ok ()

/-- `validateRunsSettings`. -/
def validateRunsSettings (rs : RunsSettings) : Except RunsSettingsError Unit := do
  if rs.sessionIDs = [] ∧ rs.sessionFilter = "" then throw .noScope
  if rs.window ≤ 0 then throw .window
  if runsPageSizeMax < rs.pageSize then throw (.pageSize rs.pageSize runsPageSizeMax)
  if rs.window ≤ rs.settle then throw (.settle rs.settle rs.window)
  refuseRunsFields (· ∈ hardDeniedRunsFields) (.hardDenied "extra_record_fields")
    rs.extraRecordFields
  refuseRunsFields (· ∈ hardDeniedRunsFields) (.hardDenied "extra_indexed_fields")
    rs.extraIndexedFields
  refuseRunsFields (· ∉ validLangsmithSelectEnum) (.notSelectable "extra_record_fields")
    rs.extraRecordFields
  refuseRunsFields (· ∉ validLangsmithSelectEnum) (.notSelectable "extra_indexed_fields")
    rs.extraIndexedFields

/-- `applyRunsSettings`. -/
def applyRunsSettings (parseDuration : String → Option Int) (rs : RunsSettings)
    (s : Lib.SortedMap String String) : Except RunsSettingsError RunsSettings := do
  let rs ← s.entries.foldlM (fun rs e =>
    (applyRunsValue parseDuration rs e.1 e.2).mapError (.setting e.1 e.2)) rs
  validateRunsSettings rs
  return rs

/-- The policy `newRunsLoop` builds. -/
def runsFieldPolicy (rs : RunsSettings) : RunsFieldPolicy :=
  (defaultRunsFieldPolicy.withExtraRecordFields rs.extraRecordFields).withExtraIndexedFields
    rs.extraIndexedFields

end GenaiBridge
