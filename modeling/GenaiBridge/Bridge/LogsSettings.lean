/-
The settings of the Portkey log export, and the loop they build.

The settings are a map of texts over the defaults.  Its entries are applied one by one
and the result is validated as a whole.  `time.ParseDuration` is a parameter; which of
several bad entries is reported depends on the order of the map, so the error is one
that some order gives.  What the field policy makes of a line is given to the loop as a
`LinePolicy`.
-/
import GenaiBridge.Bridge.Analytics
import GenaiBridge.Bridge.Download
import GenaiBridge.Bridge.Guard

namespace GenaiBridge

/-- `portkeyPageSizeMax`. -/
def portkeyPageSizeMax : Int := 50000

/-- `splitCSV`. -/
def splitCSV (s : String) : List String :=
  ((s.toList.splitOn ',').map fun p => trimSpace (String.ofList p)).filter (· ≠ "")

/-- `logsSettings`. -/
structure LogsSettings where
  window : Int
  settle : Int
  maxBackfill : Int
  pageSize : Int
  maxPagesPerWindow : Int
  chunkMaxRecords : Int
  jobPollTimeout : Int
  downloadTimeout : Int
  requestedData : List String
  extraRecordFields : List String
  extraIndexedFields : List String := []
  signedURLAllowHosts : List String := []
  workspaceID : String := ""
  metadataRecordFields : List String := []
  metadataTraceIDField : String := ""
  traceIDField : String := ""
deriving DecidableEq

/-- The indexed fields of `defaultLogFieldPolicy`. -/
def defaultIndexedFields : List String := ["ai_org", "ai_model", "response_status_code"]

/-- The record fields of `defaultLogFieldPolicy`. -/
def defaultRecordFields : List String :=
  ["id", "trace_id", "created_at", "response_time", "total_units", "req_units", "res_units", "cost",
    "prompt_slug", "prompt_version_id", "prompt_id"]

/-- `defaultLogsSettings`. -/
def defaultLogsSettings : LogsSettings :=
  { window := hour
    settle := 10 * minute
    maxBackfill := 24 * hour
    pageSize := portkeyPageSizeMax
    maxPagesPerWindow := 50
    chunkMaxRecords := 5000
    jobPollTimeout := 30 * minute
    downloadTimeout := 5 * minute
    requestedData := (defaultIndexedFields ++ defaultRecordFields).insertionSort (· ≤ ·)
    extraRecordFields := ["cache_status"] }

/-- `contentRequestKeys`. -/
def contentRequestKeys : List String :=
  ["prompt", "request", "response", "messages", "inputs", "outputs", "metadata", "portkeyHeaders"]

/-- `hardDeniedLogFields`. -/
def hardDeniedLogFields : List String := absoluteNeverDenyKeys ++ contentRequestKeys

/-- An error of the settings: the setting it names, and the value refused. -/
inductive LogsSettingsError
  | unparsable (setting value : String)
  /-- `%s must be positive`. -/
  | notPositive (setting : String) (value : Int)
  /-- `%s must be >= 0`. -/
  | negative (setting : String) (value : Int)
  /-- `page_size %d exceeds Portkey max %d`. -/
  | pageSize (value limit : Int)
  /-- `%s is required`. -/
  | required (setting : String)
  /-- `requested_data must not name content/PII field`. -/
  | contentRequested (field : String)
  /-- `%s cannot include %q`. -/
  | hardDenied (setting field : String)
  /-- `%s must name a SINGLE …`. -/
  | notSingle (setting field : String)
  /-- `trace_id_field and metadata_trace_id_field are mutually exclusive`. -/
  | twoTraceIDFields
  /-- `loops.logs_export.window must be unset/0`. -/
  | loopWindow (window : Int)
deriving DecidableEq

/-! ### Applying the settings -/

/-- `parsePositiveDuration`. -/
def parsePositiveDuration (parseDuration : String → Option Int) (setting value : String) :
    Except LogsSettingsError Int :=
  match parseDuration value with
  | none => .error (.unparsable setting value)
  | some d => if d ≤ 0 then .error (.notPositive setting d) else .ok d

/-- `parseNonNegDuration`. -/
def parseNonNegDuration (parseDuration : String → Option Int) (setting value : String) :
    Except LogsSettingsError Int :=
  match parseDuration value with
  | none => .error (.unparsable setting value)
  | some d => if d < 0 then .error (.negative setting d) else .ok d

/-- `strconv.Atoi`. -/
def atoi (value : String) : Option Int :=
  (Lib.readInt value.toList).filter fun n => minInt64 ≤ n ∧ n ≤ maxInt64

/-- `parsePositiveInt`. -/
def parsePositiveInt (setting value : String) : Except LogsSettingsError Int :=
  match atoi value with
  | none => .error (.unparsable setting value)
  | some n => if n ≤ 0 then .error (.notPositive setting n) else .ok n

/-- One turn of the loop of `applyLogsSettings`. -/
def applyLogsSetting (parseDuration : String → Option Int) (ls : LogsSettings)
    (k v : String) : Except LogsSettingsError LogsSettings :=
  match k with
  | "window" => return { ls with window := ← parsePositiveDuration parseDuration "window" v }
  | "settle" => return { ls with settle := ← parseNonNegDuration parseDuration "settle" v }
  | "max_backfill" =>
    return { ls with maxBackfill := ← parsePositiveDuration parseDuration "max_backfill" v }
  | "job_poll_timeout" =>
    return { ls with jobPollTimeout := ← parsePositiveDuration parseDuration "job_poll_timeout" v }
  | "download_timeout" =>
    return { ls with
      downloadTimeout := ← parsePositiveDuration parseDuration "download_timeout" v }
  | "page_size" => return { ls with pageSize := ← parsePositiveInt "page_size" v }
  | "max_pages_per_window" =>
    return { ls with maxPagesPerWindow := ← parsePositiveInt "max_pages_per_window" v }
  | "chunk_max_records" =>
    return { ls with chunkMaxRecords := ← parsePositiveInt "chunk_max_records" v }
  | "requested_data" => .ok { ls with requestedData := splitCSV v }
  | "extra_record_fields" => .ok { ls with extraRecordFields := splitCSV v }
  | "extra_indexed_fields" => .ok { ls with extraIndexedFields := splitCSV v }
  | "metadata_record_fields" => .ok { ls with metadataRecordFields := splitCSV v }
  | "metadata_trace_id_field" => .ok { ls with metadataTraceIDField := v }
  | "trace_id_field" => .ok { ls with traceIDField := v }
  | "signed_url_allow_hosts" => .ok { ls with signedURLAllowHosts := splitCSV v }
  | "workspace_id" => .ok { ls with workspaceID := v }
  | _ => .ok ls

/-- The first of some fields that must not be named. -/
def refuseFields (denied : List String) (err : String → LogsSettingsError) (fields : List String) :
    Except LogsSettingsError Unit :=
  match fields.find? (· ∈ denied) with
  | some f => .error (err f)
  | none => .ok ()

/-- A field that may be left out, but must be a single one that is not content. -/
def checkTraceField (setting field : String) : Except LogsSettingsError Unit :=
  if field = "" then .ok ()
  else if field ∈ hardDeniedLogFields then .error (.hardDenied setting field)
  else if ',' ∈ field.toList then .error (.notSingle setting field)
  else .ok ()

/-- `validateLogsSettings`. -/
def validateLogsSettings (ls : LogsSettings) : Except LogsSettingsError Unit := do
  if ls.window ≤ 0 then throw (.notPositive "window" ls.window)
  if portkeyPageSizeMax < ls.pageSize then throw (.pageSize ls.pageSize portkeyPageSizeMax)
  if ls.chunkMaxRecords ≤ 0 then throw (.notPositive "chunk_max_records" ls.chunkMaxRecords)
  if ls.workspaceID = "" then throw (.required "workspace_id")
  if ls.signedURLAllowHosts = [] then throw (.required "signed_url_allow_hosts")
  refuseFields contentRequestKeys .contentRequested ls.requestedData
  refuseFields hardDeniedLogFields (.hardDenied "extra_record_fields") ls.extraRecordFields
  refuseFields hardDeniedLogFields (.hardDenied "extra_indexed_fields") ls.extraIndexedFields
  refuseFields hardDeniedLogFields (.hardDenied "metadata_record_fields") ls.metadataRecordFields
  checkTraceField "metadata_trace_id_field" ls.metadataTraceIDField
  checkTraceField "trace_id_field" ls.traceIDField
  if ls.traceIDField ≠ "" ∧ ls.metadataTraceIDField ≠ "" then throw .twoTraceIDFields

/-- `applyLogsSettings`. -/
def applyLogsSettings (parseDuration : String → Option Int) (ls : LogsSettings)
    (s : Lib.SortedMap String String) : Except LogsSettingsError LogsSettings := do
  let ls ← s.entries.foldlM (fun ls e => applyLogsSetting parseDuration ls e.1 e.2) ls
  validateLogsSettings ls
  return ls

/-! ### The loop -/

/-- `logsExportLoop`, with what of it the modelled functions read. -/
structure LogsExportLoop (R : Type) where
  sourceInstance : String
  workspaceID : String
  window : Int
  settle : Int
  maxBackfill : Int
  pageSize : Int
  maxPagesPerWindow : Int
  chunkMaxRecords : Int
  downloader : Downloader R
  allowPrivate : Bool
  jobPollTimeout : Int
  requestedData : List String
  signedURLAllowHosts : List String
  /-- The keys of `policy.indexed`. -/
  indexed : List String
  useCase : String
  apiKeyIDs : String

/-- `mergeSortedUnique`. -/
def mergeSortedUnique (lists : List (List String)) : List String :=
  (lists.flatten.filter (· ≠ "")).dedup.insertionSort (· ≤ ·)

/-- `newLogsExportLoop`. -/
def newLogsExportLoop {R : Type} (parseDuration : String → Option Int) (sourceInstance : String)
    (allowPrivate : Bool) (lp : LoopConfig) (uc : ResolvedUseCase)
    (policy : LogsSettings → LinePolicy R) : Except LogsSettingsError (LogsExportLoop R) :=
  if lp.window ≠ 0 then .error (.loopWindow lp.window)
  else do
    let ls ← applyLogsSettings parseDuration defaultLogsSettings lp.settings
    return {
      sourceInstance
      workspaceID := ls.workspaceID
      window := ls.window
      settle := ls.settle
      maxBackfill := ls.maxBackfill
      pageSize := ls.pageSize
      maxPagesPerWindow := ls.maxPagesPerWindow
      chunkMaxRecords := ls.chunkMaxRecords
      downloader := { downloadMaxBytes := 0, maxLineBytes := 0, policy := policy ls }
      allowPrivate
      jobPollTimeout := ls.jobPollTimeout
      requestedData := mergeSortedUnique
        [ls.requestedData, ls.extraRecordFields, ls.extraIndexedFields, [ls.traceIDField]]
      signedURLAllowHosts := ls.signedURLAllowHosts
      indexed := (defaultIndexedFields ++ ls.extraIndexedFields).dedup
      useCase := uc.slug
      apiKeyIDs := uc.apiKeyIDsCSV }

namespace LogsExportLoop

variable {R : Type}

/-- `IndexedKeys`. -/
def indexedKeys (l : LogsExportLoop R) : List String := l.indexed.insertionSort (· ≤ ·)

/-- `Key`. -/
def key (sha256 : String → String) (l : LogsExportLoop R) : CheckpointKey :=
  let naming := if l.useCase = "" then "logs_export"
    else "logs_export" ++ ",api_key_use_case=" ++ l.useCase
  { sourceInstance := l.sourceInstance, loop := "logs_export"
    outputFingerprint := fingerprint sha256 l.indexedKeys naming }

end LogsExportLoop

end GenaiBridge
