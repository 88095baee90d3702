/-
The Portkey log export: a job per page of a window, one step of its life per `Collect`.

The state of the job in flight is a cursor, which is stored as a JSON text in the
watermark.  A call of `Collect` reads it, makes the API calls of one step, and returns
the watermark to go on from.  The API, the object store and the clock are what a call
is given (`ExportEnv`); the calls it makes are recorded with their answers.  Log lines
and the timing of spans are left out; the identity of the first span is a part of the
cursor.
-/
import GenaiBridge.Bridge.LogsSettings
import GenaiBridge.Bridge.Texts
import GenaiBridge.Lib.JsonRecord
import GenaiBridge.Lib.Rfc3339

namespace GenaiBridge

open Lib (Json)

/-! ### The cursor -/

/-- The phase of a job. -/
inductive Phase
  | idle
  | created
  | polling
  | downloading
  | blocked
  /-- A text that is none of the others. -/
  | other (name : String)
deriving DecidableEq, Repr

def Phase.name : Phase → String
  | .idle => "idle"
  | .created => "created"
  | .polling => "polling"
  | .downloading => "downloading"
  | .blocked => "blocked"
  | .other name => name

def Phase.ofName (name : String) : Phase :=
  if name = "idle" then .idle
  else if name = "created" then .created
  else if name = "polling" then .polling
  else if name = "downloading" then .downloading
  else if name = "blocked" then .blocked
  else .other name

/-- `exportCursor`. -/
structure ExportCursor where
  phase : Phase
  jobID : String := ""
  winMin : String := ""
  winMax : String := ""
  page : Int := 0
  pages : Int := 0
  totalRecords : Int := 0
  pageOffsetDone : Int := 0
  pageByteOffset : Int := 0
  pollDeadline : String := ""
  lifecycleTraceID : String := ""
  lifecycleSpanID : String := ""
deriving DecidableEq, Repr

/-- `parseCursorTime`. -/
def parseCursorTime (s : String) : Option Int :=
  if s = "" then none else Lib.Rfc3339.parse s.toList

/-- `t.UTC().Format(time.RFC3339Nano)`. -/
def formatCursorTime (t : Int) : String := String.ofList (Lib.Rfc3339.formatNano t)

/-- A `string` field of a JSON object. -/
def textField (ms : List (List Char × Json)) (name : String) : Option String :=
  (Json.field Json.readText name.toList [] ms).map String.ofList

/-- An `int` field of a JSON object. -/
def intField (ms : List (List Char × Json)) (name : String) : Option Int :=
  Json.field (Json.readInteger minInt64 maxInt64) name.toList 0 ms

namespace ExportCursor

/-- The fields of the cursor under their JSON names; all but the phase are left out when empty. -/
def slots (c : ExportCursor) : List Json.Slot :=
  [⟨"phase".toList, false, .text c.phase.name.toList⟩,
    ⟨"job_id".toList, true, .text c.jobID.toList⟩,
    ⟨"win_min".toList, true, .text c.winMin.toList⟩,
    ⟨"win_max".toList, true, .text c.winMax.toList⟩,
    ⟨"page".toList, true, .int c.page⟩,
    ⟨"pages".toList, true, .int c.pages⟩,
    ⟨"total_records".toList, true, .int c.totalRecords⟩,
    ⟨"page_offset_done".toList, true, .int c.pageOffsetDone⟩,
    ⟨"page_byte_offset".toList, true, .int c.pageByteOffset⟩,
    ⟨"poll_deadline".toList, true, .text c.pollDeadline.toList⟩,
    ⟨"lifecycle_trace_id".toList, true, .text c.lifecycleTraceID.toList⟩,
    ⟨"lifecycle_span_id".toList, true, .text c.lifecycleSpanID.toList⟩]

/-- `encode`. -/
def encode (c : ExportCursor) : String := String.ofList (Json.encodeRecord c.slots)

/-- A cursor from the members of an object. -/
def ofMembers (ms : List (List Char × Json)) : Option ExportCursor := do
  return {
    phase := Phase.ofName (← textField ms "phase")
    jobID := ← textField ms "job_id"
    winMin := ← textField ms "win_min"
    winMax := ← textField ms "win_max"
    page := ← intField ms "page"
    pages := ← intField ms "pages"
    totalRecords := ← intField ms "total_records"
    pageOffsetDone := ← intField ms "page_offset_done"
    pageByteOffset := ← intField ms "page_byte_offset"
    pollDeadline := ← textField ms "poll_deadline"
    lifecycleTraceID := ← textField ms "lifecycle_trace_id"
    lifecycleSpanID := ← textField ms "lifecycle_span_id" }

/-- `json.Unmarshal` into a cursor. -/
def unmarshal (s : String) : Option ExportCursor := do
  ofMembers (← (← Json.parse s.toList).members)

/-- `windowBounds`. -/
def windowBounds (c : ExportCursor) : Option (Int × Int) :=
  match parseCursorTime c.winMin, parseCursorTime c.winMax with
  | some winMin, some winMax => some (winMin, winMax)
  | _, _ => none

end ExportCursor

/-- `decodeCursor`. -/
def decodeCursor (s : String) : ExportCursor :=
  if s = "" then { phase := .idle }
  else match ExportCursor.unmarshal s with
    | none => { phase := .idle }
    | some c => if c.phase.name = "" then { phase := .idle } else c

/-! ### The span a window began with -/

/-- A valid `trace.SpanContext`, as the texts of its ids. -/
structure SpanContext where
  traceID : String
  spanID : String
deriving DecidableEq, Repr

/-! ### What a call of `Collect` is given -/

/-- The status of a job. -/
inductive JobStatus
  | draft
  | queued
  | inProgress
  | success
  /-- `failed`, `stopped`, or a text the source does not know. -/
  | other (status : String)
deriving DecidableEq, Repr

/-- An error of `lifecycle`, the function behind all calls of the API. -/
inductive LifecycleError
  | transport (err : String)
  | status (code : Nat)
  | decode (err : String)
deriving DecidableEq, Repr

/-- The body of a create request; the times are texts of whole seconds. -/
structure ExportRequest where
  workspaceID : String
  timeOfGenerationMin : List Char
  timeOfGenerationMax : List Char
  pageSize : Int
  currentPage : Int
  apiKeyIDs : List String
  requestedData : List String
deriving DecidableEq

/-- The answers of the API, the object store and the clock during one call. -/
structure ExportEnv where
  /-- The clock when `Collect` starts. -/
  now : Int
  /-- The clock when `stepCreated` reads it again. -/
  nowStarted : Int
  create : ExportRequest → Except LifecycleError (String × Int)
  start : String → Except LifecycleError Unit
  poll : String → Except LifecycleError JobStatus
  /-- The signed URL, which may be empty. -/
  downloadURL : String → Except LifecycleError String
  cancel : String → Except LifecycleError Unit
  /-- `url.Parse`: the scheme and the host name. -/
  parseURL : String → Except String (String × String)
  /-- A request for an object from a byte offset on. -/
  get : String → Int → Response
  /-- The span of the step, if it is valid. -/
  span : Option SpanContext
  /-- `TraceIDFromHex` and `SpanIDFromHex`: the span of two ids, if it is valid. -/
  spanFromHex : String → String → Option SpanContext
  casing : Casing

/-- `source.IncompleteReason`, those of this loop that are not about a line. -/
inductive IncompleteReason
  | exportStuck
  | exportFailed
  | windowOversize
deriving DecidableEq, Repr

/-- The text of a reason. -/
def IncompleteReason.text : IncompleteReason → String
  | .exportStuck => "export_stuck"
  | .exportFailed => "export_failed"
  | .windowOversize => "window_oversize"

/-- A call that is made during `Collect`, with its answer, or a hook that is fired. -/
inductive ExportCall
  | create (winMin winMax : Int) (page : Int) (answer : Except LifecycleError (String × Int))
  | start (jobID : String) (answer : Except LifecycleError Unit)
  | poll (jobID : String) (answer : Except LifecycleError JobStatus)
  | downloadURL (jobID : String) (answer : Except LifecycleError String)
  | cancel (jobID : String) (answer : Except LifecycleError Unit)
  | downloadChunk (signedURL : String) (skip byteOffset : Int)
      (answer : Except DownloadError Chunk)
  /-- `onAuthError`. -/
  | authError
  /-- `onDataIncomplete`. -/
  | incomplete (reason : IncompleteReason)

/-- An error of `validateSignedURLHost`. -/
inductive SignedURLError
  | unparsable (err : String)
  /-- `signed url has no host`. -/
  | noHost
  /-- `signed-url scheme %q is not https`. -/
  | notHTTPS (scheme : String)
  /-- `signed-url host %q not in signed_url_allow_hosts`. -/
  | notAllowed (host : String)
deriving DecidableEq, Repr

/-- An error of `Collect`. -/
inductive ExportError
  | lifecycle (err : LifecycleError)
  /-- `download returned an empty signed_url`. -/
  | emptySignedURL
  /-- `refusing download: %w`. -/
  | refused (err : SignedURLError)
  | download (err : DownloadError)
  /-- `window [%s..%s] needs %d pages > max_pages_per_window %d`. -/
  | blocked (winMin winMax : Int) (pages maxPagesPerWindow : Int)
deriving DecidableEq, Repr

/-- The calls of a step, and the logs and the watermark of its batch. -/
structure ExportStep where
  calls : List ExportCall
  result : Except ExportError (List LogRecord × Watermark)

/-- `onAuthError`, on an answer that was refused. -/
def authSignal {α : Type} : Except LifecycleError α → List ExportCall
  | .error (.status code) => if isAuthStatus code then [.authError] else []
  | _ => []

namespace LogsExportLoop

variable {R : Type} (l : LogsExportLoop R)

/-! ### The calls -/

/-- The request of `createExport`. -/
def exportRequest (winMin winMax page : Int) : ExportRequest :=
  { workspaceID := l.workspaceID
    timeOfGenerationMin := Lib.Rfc3339.formatSec winMin
    timeOfGenerationMax := Lib.Rfc3339.formatSec winMax
    pageSize := l.pageSize
    currentPage := page
    apiKeyIDs := if l.apiKeyIDs = "" then []
      else (l.apiKeyIDs.toList.splitOn ',').map String.ofList
    requestedData := l.requestedData }

/-- `createExport`: the answer, and the calls. -/
def createExport (env : ExportEnv) (winMin winMax page : Int) :
    Except LifecycleError (String × Int) × List ExportCall :=
  let answer := env.create (l.exportRequest winMin winMax page)
  (answer, .create winMin winMax page answer :: authSignal answer)

/-- `validateSignedURLHost`, on the parsed URL. -/
def validateSignedURLHost (casing : Casing) :
    Except String (String × String) → Except SignedURLError Unit
  | .error err => .error (.unparsable err)
  | .ok (scheme, hostname) =>
    let host := casing.toLower hostname
    if host = "" then .error .noHost
    else if !casing.equalFold scheme "https" ∧ !l.allowPrivate then .error (.notHTTPS scheme)
    else if ∃ h ∈ l.signedURLAllowHosts, casing.toLower h = host then .ok ()
    else .error (.notAllowed hostname)

/-! ### Watermarks -/

/-- `advanceCursor`. -/
def advanceCursor (t : Int) (c : ExportCursor) : Watermark := { time := t, cursor := c.encode }

/-- `resetIdle`. -/
def resetIdle (t : Int) : Watermark :=
  { time := t, cursor := ({ phase := .idle } : ExportCursor).encode }

/-- `windowBoundsFor`. -/
def windowBoundsFor (sinceTime now : Int) : Int × Int × Bool :=
  let winMin := if Time.isZero sinceTime then now - l.window else sinceTime
  let floor := now - l.maxBackfill
  let winMin := if winMin < floor then floor else winMin
  let winMax := winMin + l.window
  let cutoff := now - l.settle
  let winMax := if cutoff < winMax then cutoff else winMax
  (winMin, winMax, winMin < winMax)

/-! ### The steps -/

/-- `stepIdle`. -/
def stepIdle (env : ExportEnv) (since : Watermark) : ExportStep :=
  let (winMin, winMax, settled) := l.windowBoundsFor since.time env.now
  if !settled then ⟨[], .ok ([], since)⟩
  else
    match l.createExport env winMin winMax 0 with
    | (.error err, calls) => ⟨calls, .error (.lifecycle err)⟩
    | (.ok (jobID, total), calls) =>
      let pages := (wrap64 (total + l.pageSize - 1)).tdiv l.pageSize
      if total ≤ 0 ∨ pages = 0 then ⟨calls, .ok ([], { time := winMax })⟩
      else
        let cur : ExportCursor :=
          { phase := .created
            winMin := formatCursorTime winMin
            winMax := formatCursorTime winMax
            pages
            totalRecords := total }
        if 0 < l.maxPagesPerWindow ∧ l.maxPagesPerWindow < pages then
          ⟨calls ++ [.incomplete .windowOversize],
            .ok ([], advanceCursor since.time { cur with phase := .blocked })⟩
        else ⟨calls, .ok ([], advanceCursor since.time { cur with jobID })⟩

/-- `stepBlocked`. -/
def stepBlocked (env : ExportEnv) (since : Watermark) (cur : ExportCursor) : ExportStep :=
  let (winMin, winMax, settled) := l.windowBoundsFor since.time env.now
  if settled ∧ cur.windowBounds = some (winMin, winMax) then
    ⟨[], .error (.blocked winMin winMax cur.pages l.maxPagesPerWindow)⟩
  else ⟨[], .ok ([], resetIdle since.time)⟩

/-- `stepCreated` once the job was started: on to polling. -/
def startedCursor (env : ExportEnv) (cur : ExportCursor) : ExportCursor :=
  { cur with
    phase := .polling
    pollDeadline := formatCursorTime (env.nowStarted + l.jobPollTimeout) }

/-- `stepCreated`. -/
def stepCreated (env : ExportEnv) (since : Watermark) (cur : ExportCursor) : ExportStep :=
  if cur.jobID = "" then
    -- a page that is left to be created
    match cur.windowBounds with
    | none => ⟨[], .ok ([], resetIdle since.time)⟩
    | some (winMin, winMax) =>
      match l.createExport env winMin winMax cur.page with
      | (.error err, calls) => ⟨calls, .error (.lifecycle err)⟩
      | (.ok (jobID, _), calls) => ⟨calls, .ok ([], advanceCursor since.time { cur with jobID })⟩
  else
    let answer := env.start cur.jobID
    let calls := .start cur.jobID answer :: authSignal answer
    let polling := advanceCursor since.time (l.startedCursor env cur)
    match answer with
    | .ok () => ⟨calls, .ok ([], polling)⟩
    | .error err =>
      -- the job may have been started although the call failed
      let status := env.poll cur.jobID
      let calls := calls ++ .poll cur.jobID status :: authSignal status
      match status with
      | .error _ | .ok .draft => ⟨calls, .error (.lifecycle err)⟩
      | .ok _ => ⟨calls, .ok ([], polling)⟩

/-- `stepPolling`. -/
def stepPolling (env : ExportEnv) (since : Watermark) (cur : ExportCursor) : ExportStep :=
  let status := env.poll cur.jobID
  let calls := .poll cur.jobID status :: authSignal status
  match status with
  | .error err => ⟨calls, .error (.lifecycle err)⟩
  | .ok .success =>
    ⟨calls, .ok ([], advanceCursor since.time
      { cur with phase := .downloading, pageOffsetDone := 0 })⟩
  | .ok .draft => ⟨calls, .ok ([], advanceCursor since.time { cur with phase := .created })⟩
  | .ok .queued | .ok .inProgress =>
    match parseCursorTime cur.pollDeadline with
    | some deadline =>
      if deadline < env.now then
        let answer := env.cancel cur.jobID
        ⟨calls ++ .incomplete .exportStuck :: .cancel cur.jobID answer :: authSignal answer,
          .ok ([], resetIdle since.time)⟩
      else ⟨calls, .ok ([], since)⟩
    | none => ⟨calls, .ok ([], since)⟩
  | .ok (.other _) => ⟨calls ++ [.incomplete .exportFailed], .ok ([], resetIdle since.time)⟩

/-- `stepDownloading` after a chunk was downloaded: the cursor, or none once the window is done. -/
def chunkedCursor (cur : ExportCursor) (chunk : Chunk) : Option ExportCursor :=
  let cur := { cur with
    pageOffsetDone := wrap64 (cur.pageOffsetDone + chunk.linesRead)
    -- `base + consumed`, an `int64` sum
    pageByteOffset := wrap64 chunk.nextByteOffset }
  if !chunk.eof then some cur
  else if cur.page + 1 < cur.pages then
    some { cur with
      page := cur.page + 1, pageOffsetDone := 0, pageByteOffset := 0, jobID := ""
      phase := .created }
  else none

/-- `stepDownloading`. -/
def stepDownloading (env : ExportEnv) (since : Watermark) (cur : ExportCursor) : ExportStep :=
  match cur.windowBounds with
  | none => ⟨[], .ok ([], resetIdle since.time)⟩
  | some (_, winMax) =>
    let answer := env.downloadURL cur.jobID
    let calls := .downloadURL cur.jobID answer :: authSignal answer
    match answer with
    | .error err => ⟨calls, .error (.lifecycle err)⟩
    | .ok signedURL =>
      if signedURL = "" then ⟨calls, .error .emptySignedURL⟩
      else match l.validateSignedURLHost env.casing (env.parseURL signedURL) with
        | .error err => ⟨calls, .error (.refused err)⟩
        | .ok () =>
          let answer := l.downloader.downloadChunk (env.get signedURL cur.pageByteOffset)
            cur.pageOffsetDone cur.pageByteOffset l.chunkMaxRecords winMax
          let calls := calls ++
            [.downloadChunk signedURL cur.pageOffsetDone cur.pageByteOffset answer]
          match answer with
          | .error err => ⟨calls, .error (.download err)⟩
          | .ok chunk =>
            match chunkedCursor cur chunk with
            | some cur => ⟨calls, .ok (chunk.recs, advanceCursor since.time cur)⟩
            | none => ⟨calls, .ok (chunk.recs, { time := winMax })⟩

/-- `lifecycleSpanContext`. -/
def lifecycleSpanContext (env : ExportEnv) (c : ExportCursor) : Option SpanContext :=
  env.spanFromHex c.lifecycleTraceID c.lifecycleSpanID

/-- `persistLifecycleLink`. -/
def persistLifecycleLink (env : ExportEnv) (w : Watermark) (prior : ExportCursor) : Watermark :=
  let next := decodeCursor w.cursor
  if next.phase = .idle then w
  else
    let next := match (lifecycleSpanContext env prior).or env.span with
      | some span => { next with lifecycleTraceID := span.traceID, lifecycleSpanID := span.spanID }
      | none => next
    { w with cursor := next.encode }

/-- The step of the phase. -/
def step (env : ExportEnv) (since : Watermark) (cur : ExportCursor) : ExportStep :=
  match cur.phase with
  | .created => l.stepCreated env since cur
  | .polling => stepPolling env since cur
  | .downloading => l.stepDownloading env since cur
  | .blocked => l.stepBlocked env since cur
  | .idle | .other _ => l.stepIdle env since

/-- `Collect`. -/
def collect (env : ExportEnv) (since : Watermark) : ExportStep :=
  let cur := decodeCursor since.cursor
  let s := l.step env since cur
  { s with result := s.result.map fun r => (r.1, persistLifecycleLink env r.2 cur) }

end LogsExportLoop

end GenaiBridge
