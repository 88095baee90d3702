/-
The LangSmith runs: a window is drained page by page, one page per `Collect`.

The window and the token of the next page are a cursor, which is stored as a JSON text
in the watermark.  The API and the clock are what a call is given (`RunsEnv`); the calls
it makes are recorded with their answers, and the hooks it fires.  The sessions that were
discovered are kept in memory from call to call.
-/
import GenaiBridge.Bridge.Export
import GenaiBridge.Bridge.RunsStrip

namespace GenaiBridge

open Lib (Json)

/-! ### The cursor -/

/-- `runsCursor`. -/
structure RunsCursor where
  winMin : String := ""
  winMax : String := ""
  next : String := ""
  page : Int := 0
deriving DecidableEq, Repr

namespace RunsCursor

/-- The fields of the cursor under their JSON names. -/
def slots (c : RunsCursor) : List Json.Slot :=
  [⟨"win_min".toList, true, .text c.winMin.toList⟩,
    ⟨"win_max".toList, true, .text c.winMax.toList⟩,
    ⟨"next".toList, true, .text c.next.toList⟩,
    ⟨"page".toList, true, .int c.page⟩]

/-- `encode`. -/
def encode (c : RunsCursor) : String := String.ofList (Json.encodeRecord c.slots)

/-- A cursor from the members of an object. -/
def ofMembers (ms : List (List Char × Json)) : Option RunsCursor := do
  return {
    winMin := ← textField ms "win_min"
    winMax := ← textField ms "win_max"
    next := ← textField ms "next"
    page := ← intField ms "page" }

/-- `json.Unmarshal` into a cursor. -/
def unmarshal (s : String) : Option RunsCursor := do
  ofMembers (← (← Json.parse s.toList).members)

/-- `windowBounds`. -/
def windowBounds (c : RunsCursor) : Option (Int × Int) :=
  match parseCursorTime c.winMin, parseCursorTime c.winMax with
  | some winMin, some winMax => some (winMin, winMax)
  | _, _ => none

end RunsCursor

/-- `decodeRunsCursor`. -/
def decodeRunsCursor (s : String) : RunsCursor :=
  if s = "" then {} else (RunsCursor.unmarshal s).getD {}

/-! ### What a call of `Collect` is given -/

/-- The body of a query; the times are texts of whole seconds. -/
structure RunsRequest where
  session : List String
  select : List String
  startTime : List Char
  endTime : List Char
  limit : Int
  cursor : String
  isRoot : Bool
  runType : String
deriving DecidableEq

/-- What `queryRuns` returns without an error. -/
structure RunsPage where
  runs : List RawRecord
  next : String
  status : Nat
  errBody : String

/-- The status of a page of sessions, and the ids it lists. -/
structure SessionsPage where
  status : Nat
  errBody : String
  ids : List String

/-- The answers of the API and the clock during one call; an error is one of the transport or of
decoding. -/
structure RunsEnv where
  now : Int
  /-- The page of sessions at an offset, for a filter. -/
  listSessions : String → Nat → Except String SessionsPage
  query : RunsRequest → Except String RunsPage

/-- `source.IncompleteReason`, those of this loop. -/
inductive RunsIncomplete
  | windowTruncated
  | sessionsTruncated
  | backfillSkipped
deriving DecidableEq, Repr

/-- The text of a reason. -/
def RunsIncomplete.text : RunsIncomplete → String
  | .windowTruncated => "window_truncated"
  | .sessionsTruncated => "sessions_truncated"
  | .backfillSkipped => "backfill_skipped"

/-- A call that is made during `Collect`, with its answer, or a hook that is fired. -/
inductive RunsCall
  | listSessions (offset : Nat) (answer : Except String SessionsPage)
  | query (winMin winMax : Int) (cursor : String) (answer : Except String RunsPage)
  /-- `onAuthError`. -/
  | authError
  /-- `onDataIncomplete`. -/
  | incomplete (reason : RunsIncomplete)

/-- An error of `Collect`. -/
inductive RunsError
  | discover (err : String)
  /-- `discover sessions status %d`. -/
  | discoverStatus (code : Nat) (errBody : String)
  /-- `session_filter matched no projects`. -/
  | noSessions
  /-- `langsmith runs: query: %w`. -/
  | query (err : String)
  /-- `source.ErrQuotaExceeded`. -/
  | quotaExceeded
  /-- `langsmith runs: status %d`. -/
  | status (code : Nat) (errBody : String)
deriving DecidableEq, Repr

/-- The sessions discovered last, and when. -/
structure SessionCache where
  cachedSessions : List String := []
  cachedAt : Int := 0
deriving DecidableEq, Repr

/-- The calls of a step, the sessions kept, and the logs and the watermark of its batch. -/
structure RunsStep where
  calls : List RunsCall
  cache : SessionCache
  result : Except RunsError (List LogRecord × Watermark)

/-! ### The loop -/

/-- `runsLoop`, with what of it the modelled functions read. -/
structure RunsLoop where
  sourceInstance : String
  sessionIDs : List String
  sessionFilter : String
  maxSessions : Int
  selectFields : List String
  window : Int
  settle : Int
  maxBackfill : Int
  pageSize : Int
  maxPagesPerWindow : Int
  sessionRefresh : Int
  rootOnly : Bool
  runType : String
  policy : RunsFieldPolicy
deriving DecidableEq

/-- `newRunsLoop`. -/
def newRunsLoop (parseDuration : String → Option Int) (sourceInstance : String) (lp : LoopConfig) :
    Except RunsSettingsError RunsLoop :=
  if lp.window ≠ 0 then .error (.loopWindow lp.window)
  else do
    let rs ← applyRunsSettings parseDuration defaultRunsSettings lp.settings
    let policy := runsFieldPolicy rs
    return {
      sourceInstance
      sessionIDs := rs.sessionIDs
      sessionFilter := rs.sessionFilter
      maxSessions := rs.maxSessions
      selectFields := policy.selectKeys
      window := rs.window
      settle := rs.settle
      maxBackfill := rs.maxBackfill
      pageSize := rs.pageSize
      maxPagesPerWindow := rs.maxPagesPerWindow
      sessionRefresh := rs.sessionRefresh
      rootOnly := rs.rootOnly
      runType := rs.runType
      policy }

/-- The sessions of a page that are new, up to a cap: all so far, and whether the cap was reached. -/
def addSessions (maxSessions : Int) : List String → List String → List String × Bool
  | ids, [] => (ids, false)
  | ids, id :: page =>
    if id = "" ∨ id ∈ ids then addSessions maxSessions ids page
    else if maxSessions ≤ (ids ++ [id]).length then (ids ++ [id], true)
    else addSessions maxSessions (ids ++ [id]) page

theorem addSessions_fits {maxSessions : Int} {ids page ids' : List String}
    (h : addSessions maxSessions ids page = (ids', false)) (hne : ids'.length ≠ ids.length) :
    ids.length < ids'.length ∧ (ids'.length : Int) < maxSessions := by
  induction page generalizing ids with
  | nil =>
    obtain ⟨rfl, -⟩ := Prod.mk.inj h
    exact absurd rfl hne
  | cons id page ih =>
    unfold addSessions at h
    split_ifs at h with hskip hfull
    · exact ih h hne
    · cases (Prod.mk.inj h).2
    · by_cases hsame : ids'.length = (ids ++ [id]).length
      · simp only [List.length_append, List.length_singleton] at hsame hfull
        omega
      · have hrest := ih h hsame
        simp only [List.length_append, List.length_singleton] at hrest
        omega

namespace RunsLoop

variable (l : RunsLoop)

/-- `IndexedKeys`. -/
def indexedKeys : List String := l.policy.indexed.dedup.insertionSort (· ≤ ·)

/-- `Key`. -/
def key (sha256 : String → String) : CheckpointKey :=
  { sourceInstance := l.sourceInstance, loop := "runs"
    outputFingerprint := fingerprint sha256 l.indexedKeys "runs" }

/-- `pageLimit` of `listSessionIDs`. -/
def pageLimit : Nat := 100

/-- `listSessionIDs`, with the sessions so far: what it returns, and the calls. -/
def listSessionIDs (env : RunsEnv) (offset : Nat) (ids : List String) :
    Except RunsError (List String) × List RunsCall :=
  let answer := env.listSessions l.sessionFilter offset
  let call := RunsCall.listSessions offset answer
  match answer with
  | .error err => (.error (.discover err), [call])
  | .ok page =>
    if page.status = 429 then (.error .quotaExceeded, [call])
    else if page.status ≠ 200 then (.error (.discoverStatus page.status page.errBody), [call])
    else match _h : addSessions l.maxSessions ids page.ids with
      | (ids', true) => (.ok ids', [call, .incomplete .sessionsTruncated])
      | (ids', false) =>
        -- a short page, or one that brought nothing new, is the last
        if page.ids.length < pageLimit ∨ ids'.length = ids.length then (.ok ids', [call])
        else
          let rest := listSessionIDs env (offset + pageLimit) ids'
          (rest.1, call :: rest.2)
termination_by (l.maxSessions - ids.length).toNat
decreasing_by
  have := addSessions_fits ‹_› (by omega)
  omega

/-- `resolveSessions`: what it returns, the calls, and the sessions kept. -/
def resolveSessions (env : RunsEnv) (cache : SessionCache) (draining : Bool) :
    Except RunsError (List String) × List RunsCall × SessionCache :=
  if l.sessionIDs ≠ [] then (.ok l.sessionIDs, [], cache)
  else if cache.cachedSessions ≠ [] ∧
      (draining ∨ Time.sub env.now cache.cachedAt < l.sessionRefresh) then
    (.ok cache.cachedSessions, [], cache)
  else
    match l.listSessionIDs env 0 [] with
    | (.error err, calls) => (.error err, calls, cache)
    | (.ok ids, calls) =>
      if ids = [] then (.error .noSessions, calls, cache)
      else (.ok ids, calls, ⟨ids, env.now⟩)

/-- The request of `queryRuns`. -/
def runsRequest (sessions : List String) (winMin winMax : Int) (cursor : String) : RunsRequest :=
  { session := sessions
    select := l.selectFields
    startTime := Lib.Rfc3339.formatSec winMin
    endTime := Lib.Rfc3339.formatSec winMax
    limit := l.pageSize
    cursor
    isRoot := l.rootOnly
    runType := l.runType }

/-- The window that is being drained, the token of its next page, and the pages drained. -/
structure Window where
  winMin : Int
  winMax : Int
  resume : String
  page : Int
deriving DecidableEq, Repr

/-- The window of a cursor; none if it is idle or cannot be read. -/
def draining (cur : RunsCursor) : Option Window :=
  if cur.winMax = "" then none
  else cur.windowBounds.map fun b => ⟨b.1, b.2, cur.next, cur.page⟩

/-- A window that begins: the hooks it fires, and its bounds unless nothing has settled. -/
def beginWindow (sinceTime now : Int) : List RunsCall × Option (Int × Int) :=
  let winMin := if Time.isZero sinceTime then now - l.window else sinceTime
  let floor := now - l.maxBackfill
  let skipped := winMin < floor
  let winMin := if skipped then floor else winMin
  let winMax := winMin + l.window
  let cutoff := now - l.settle
  let winMax := if cutoff < winMax then cutoff else winMax
  (if skipped then [.incomplete .backfillSkipped] else [],
    if winMin < winMax then some (winMin, winMax) else none)

/-- `Collect` once a page has come: the hooks, and the watermark. -/
def pageWatermark (since : Watermark) (w : Window) (next : String) : List RunsCall × Watermark :=
  let page := wrap64 (w.page + 1)
  if next ≠ "" ∧ page < l.maxPagesPerWindow then
    let nc : RunsCursor :=
      { winMin := formatCursorTime w.winMin, winMax := formatCursorTime w.winMax, next, page }
    ([], { time := since.time, cursor := nc.encode })
  else (if next ≠ "" then [.incomplete .windowTruncated] else [], { time := w.winMax })

/-- `Collect` for a window: fetch its next page. -/
def fetchPage (env : RunsEnv) (cache : SessionCache) (since : Watermark) (w : Window)
    (draining : Bool) : RunsStep :=
  match l.resolveSessions env cache draining with
  | (.error err, calls, cache) => ⟨calls, cache, .error err⟩
  | (.ok sessions, calls, cache) =>
    let answer := env.query (l.runsRequest sessions w.winMin w.winMax w.resume)
    let calls := calls ++ [.query w.winMin w.winMax w.resume answer]
    match answer with
    | .error err => ⟨calls, cache, .error (.query err)⟩
    | .ok page =>
      if page.status = 200 then
        let logs := page.runs.map fun raw => l.policy.strip raw w.winMax
        let (hooks, watermark) := l.pageWatermark since w page.next
        ⟨calls ++ hooks, cache, .ok (logs, watermark)⟩
      else if page.status = 429 then ⟨calls, cache, .error .quotaExceeded⟩
      else
        ⟨calls ++ (if isAuthStatus page.status then [.authError] else []), cache,
          .error (.status page.status page.errBody)⟩

/-- `Collect`. -/
def collect (env : RunsEnv) (cache : SessionCache) (since : Watermark) : RunsStep :=
  match draining (decodeRunsCursor since.cursor) with
  | some w => l.fetchPage env cache since w true
  | none =>
    match l.beginWindow since.time env.now with
    | (hooks, none) => ⟨hooks, cache, .ok ([], since)⟩
    | (hooks, some (winMin, winMax)) =>
      let s := l.fetchPage env cache since ⟨winMin, winMax, "", 0⟩ false
      { s with calls := hooks ++ s.calls }

end RunsLoop

end GenaiBridge
