/-
The analytics loop: one forward window of the graph API per call of `Collect`.

The API, the clock and the probe of the key's workspace are what a call is given;
`Env` holds their answers.  A call returns the state the loop is left in, the
signals it raised on the way and its result, so that what a failed call did is
visible too.  The settings a request only carries along (base URL, credentials) are
left out.
-/
import GenaiBridge.Bridge.Config
import GenaiBridge.Bridge.Derive

namespace GenaiBridge

variable {V : Type}

/-- `resolvedUseCase`: one filtered pass. -/
structure ResolvedUseCase where
  slug : String
  apiKeyIDsCSV : String
deriving DecidableEq, Repr

/-- `cleanAPIKeyIDs`. -/
def cleanAPIKeyIDs (s : String) : String :=
  let parts := (s.toList.splitOn ',').map fun p => trimSpace (String.ofList p)
  String.intercalate "," (parts.filter (· ≠ ""))

/-- `granularity`. -/
def granularity : Int := minute

/-- `detectionBand`. -/
def detectionBand (settle : Int) : Int :=
  let band := wrap64 (2 * settle)
  if band < minute then minute else band

/-- `analyticsLoop`: what of it is fixed when the loop is built. -/
structure AnalyticsLoop where
  sourceInstance : String
  metricPrefix : String
  graphs : List String
  window : Int
  settle : Int
  bootstrap : Int
  maxBackfill : Int
  cadence : Int
  startSemantics : Bool
  expectedWorkspace : String
  passes : List ResolvedUseCase
  band : Int

/-- An error of `newAnalyticsLoop`. -/
inductive AnalyticsBuildError
  /-- `no graphs configured`. -/
  | noGraphs
  | unknownGraph (graph : String)
  /-- `requires a positive window`. -/
  | window (window : Int)
  /-- `requires bootstrap_lookback > bucket_settle`. -/
  | bootstrap (bootstrap settle : Int)
  /-- `requires max_backfill > bucket_settle`. -/
  | maxBackfill (maxBackfill settle : Int)
deriving DecidableEq, Repr

/-- `newAnalyticsLoop`. -/
def newAnalyticsLoop (sourceInstance : String) (lp : LoopConfig) (ucs : List ResolvedUseCase) :
    Except AnalyticsBuildError AnalyticsLoop :=
  let graphs := lp.graphs.insertionSort (· ≤ ·)
  if graphs = [] then .error .noGraphs
  else match graphs.find? fun g => (metricSuffix g).isNone with
    | some g => .error (.unknownGraph g)
    | none =>
      if lp.window ≤ 0 then .error (.window lp.window)
      else if lp.bootstrapLookback ≤ lp.bucketSettle then
        .error (.bootstrap lp.bootstrapLookback lp.bucketSettle)
      else if lp.maxBackfill ≤ lp.bucketSettle then
        .error (.maxBackfill lp.maxBackfill lp.bucketSettle)
      else .ok
        { sourceInstance
          metricPrefix := if lp.metricPrefix = "" then "portkey_api" else lp.metricPrefix
          graphs
          window := lp.window
          settle := lp.bucketSettle
          bootstrap := lp.bootstrapLookback
          maxBackfill := lp.maxBackfill
          cadence := lp.cadence
          startSemantics := true
          expectedWorkspace := trimSpace ((lp.settings.get? "expected_workspace").getD "")
          passes := if ucs = [] then
              [⟨"", cleanAPIKeyIDs ((lp.settings.get? "api_key_ids").getD "")⟩] else ucs
          band := detectionBand lp.bucketSettle }

/-! ### The workspace the key sees -/

/-- What came back from the probe of the workspace dimension; a row without one is empty. -/
inductive ScopeProbe
  | failed (err : String)
  | status (code : Nat)
  | rows (workspaces : List String)

/-- `workspaceScopeResult`, with the workspaces seen. -/
inductive WorkspaceScope
  | matched
  | mismatch (seen : List String)
  | undeterminable
deriving DecidableEq, Repr

/-- `checkWorkspaceScope` on the rows of an answer. -/
def checkWorkspaceScope (expected : String) (workspaces : List String) : WorkspaceScope :=
  let seen := ((workspaces.filter (· ≠ "")).dedup).insertionSort (· ≤ ·)
  if seen = [] then .undeterminable else if seen = [expected] then .matched else .mismatch seen

/-! ### One call of `Collect` -/

/-- The query of one graph; the times are texts of whole seconds. -/
structure GraphQuery where
  graph : String
  timeOfGenerationMin : List Char
  timeOfGenerationMax : List Char
  apiKeyIDs : String
deriving DecidableEq

/-- What `fetch` returns: an error, a status other than 200, or a decoded answer. -/
inductive Fetched (V : Type)
  | failed (err : String)
  | status (code : Nat)
  | ok (r : GraphResponse V)

/-- What one call of `Collect` is given. -/
structure AnalyticsEnv (V : Type) where
  now : Int
  fetch : GraphQuery → Fetched V
  probe : ScopeProbe

/-- The state of the loop between calls. -/
structure AnalyticsState (V : Type) where
  scopeVerified : Bool
  histories : Lib.SortedMap String (RevisionHistory V)

/-- The state `newAnalyticsLoop` starts from. -/
def AnalyticsLoop.init (l : AnalyticsLoop) : AnalyticsState V :=
  { scopeVerified := false
    histories := l.passes.foldl (fun m p => m.insert p.slug (.new l.band)) .empty }

/-- What a call does besides returning: the hooks it fires, and what it shows a history. -/
inductive AnalyticsEvent (V : Type)
  /-- `onCapability`, on a graph that answered 404. -/
  | graphAbsent (graph : String)
  /-- `onCapability` on the workspace scope. -/
  | scopeDenied
  | authError
  | observed (slug : String) (samples : List (Sample V))
  | bucketRevised (age : Int)

/-- An error of `Collect`. -/
inductive CollectError
  /-- `workspace scope probe failed (transient; retrying)`. -/
  | scopeProbe (err : String)
  | scopeProbeStatus (code : Nat)
  /-- `API key analytics scope is … refusing to emit`. -/
  | scopeMismatch (seen : List String) (expected : String)
  | fetch (graph err : String)
  | status (graph : String) (code : Nat)
  | quotaExceeded
  /-- `all %d configured graphs returned 404`. -/
  | allGraphsAbsent (n : Nat)
  | derive (err : DeriveError)
deriving DecidableEq, Repr

/-- `source.IsAuthStatus`. -/
def isAuthStatus (code : Nat) : Bool := code = 401 ∨ code = 403

/-- `stampUseCase`. -/
def stampUseCase (slug : String) (samples : List (Sample V)) : List (Sample V) :=
  if slug = "" then samples
  else samples.map fun s => { s with labels := s.labels.insert "api_key_use_case" slug }

namespace AnalyticsLoop

/-- `SeriesNames`. -/
def seriesNames (l : AnalyticsLoop) : List String := l.graphs.map (nameFor l.metricPrefix)

/-- `Key`. -/
def key (sha256 : String → String) (l : AnalyticsLoop) : CheckpointKey :=
  { sourceInstance := l.sourceInstance, loop := "analytics"
    outputFingerprint := fingerprint sha256 l.seriesNames ("prefix=" ++ l.metricPrefix) }

/-- `verifyScopeForCollect`: whether the scope is verified, or the error. -/
def verifyScope (l : AnalyticsLoop) :
    ScopeProbe → List (AnalyticsEvent V) × Except CollectError Bool
  | .failed err => ([], .error (.scopeProbe err))
  | .status code =>
    (if isAuthStatus code then [.authError] else [], .error (.scopeProbeStatus code))
  | .rows workspaces =>
    match checkWorkspaceScope l.expectedWorkspace workspaces with
    | .matched => ([], .ok true)
    | .undeterminable => ([], .ok false)
    | .mismatch seen => ([.scopeDenied], .error (.scopeMismatch seen l.expectedWorkspace))

/-- `start`: the watermark, or the bootstrap lookback, but not before the backfill floor. -/
def start (l : AnalyticsLoop) (now : Int) (since : Watermark) : Int :=
  let start := if Time.isZero since.time then Time.addNeg now l.bootstrap else since.time
  let floor := Time.addNeg now l.maxBackfill
  if start < floor then floor else start

/-- `until`: the settle cutoff, clamped to the window and to 55 minutes from `start`. -/
def windowEnd (l : AnalyticsLoop) (now start : Int) : Int :=
  let until' := Time.addNeg now l.settle
  let until' := if l.window < Time.sub until' start then start + l.window else until'
  if 55 * minute < Time.sub until' start then start + 55 * minute else until'

/-- `fetchStart`: the detection band before `start`, clamped to the backfill floor and to 55 minutes
before `until`. -/
def fetchStart (l : AnalyticsLoop) (now start until' : Int) : Int :=
  if 0 < l.band then
    let fetchStart := Time.addNeg start l.band
    let floor := Time.addNeg now l.maxBackfill
    let fetchStart := if fetchStart < floor then floor else fetchStart
    if fetchStart < until' - 55 * minute then until' - 55 * minute else fetchStart
  else start

/-- The query `fetch` sends for one graph. -/
def query (p : ResolvedUseCase) (fetchStart until' : Int) (graph : String) : GraphQuery :=
  { graph
    timeOfGenerationMin := Lib.Rfc3339.formatSec fetchStart
    timeOfGenerationMax := Lib.Rfc3339.formatSec until'
    apiKeyIDs := p.apiKeyIDsCSV }

/-- The loop of `collectPass` over the graphs: the answers by graph. -/
def fetchGraphs (env : AnalyticsEnv V) (p : ResolvedUseCase) (fetchStart until' : Int)
    (resp : Lib.SortedMap String (GraphResponse V)) : List String →
    List (AnalyticsEvent V) × Except CollectError (Lib.SortedMap String (GraphResponse V))
  | [] => ([], .ok resp)
  | g :: rest =>
    match env.fetch (query p fetchStart until' g) with
    | .failed err => ([], .error (.fetch g err))
    | .status code =>
      if code = 404 then
        let (events, r) := fetchGraphs env p fetchStart until' resp rest
        (.graphAbsent g :: events, r)
      else (if isAuthStatus code then [.authError] else [], .error (.status g code))
    | .ok r =>
      if r.isQuotaExceeded then ([], .error .quotaExceeded)
      else fetchGraphs env p fetchStart until' (resp.insert g r) rest

variable [Div V] [OfNat V 1000] [BEq V]

/-- The detection pass of `collectPass`. -/
def detect (l : AnalyticsLoop) (now fetchStart until' : Int) (slug : String)
    (resp : Lib.SortedMap String (GraphResponse V))
    (histories : Lib.SortedMap String (RevisionHistory V)) :
    Lib.SortedMap String (RevisionHistory V) × List (AnalyticsEvent V) :=
  match histories.get? slug with
  | none => (histories, [])
  | some h =>
    match derive resp l.metricPrefix fetchStart now l.settle granularity l.startSemantics with
    | .error _ => (histories, [])
    | .ok settled =>
      let (revised, h') := h.observe settled until'
      (histories.insert slug h',
        .observed slug settled :: revised.map fun bend => .bucketRevised (Time.sub now bend))

/-- `collectPass`. -/
def collectPass (l : AnalyticsLoop) (env : AnalyticsEnv V) (start until' fetchStart : Int)
    (histories : Lib.SortedMap String (RevisionHistory V)) (p : ResolvedUseCase) :
    Lib.SortedMap String (RevisionHistory V) × List (AnalyticsEvent V) ×
      Except CollectError (List (Sample V)) :=
  match fetchGraphs env p fetchStart until' .empty l.graphs with
  | (events, .error e) => (histories, events, .error e)
  | (events, .ok resp) =>
    if resp.entries = [] then (histories, events, .error (.allGraphsAbsent l.graphs.length))
    else
      match derive resp l.metricPrefix start env.now l.settle granularity l.startSemantics with
      | .error e => (histories, events, .error (.derive e))
      | .ok samples =>
        let (histories', raised) := l.detect env.now fetchStart until' p.slug resp histories
        (histories', events ++ raised, .ok (stampUseCase p.slug samples))

/-- The loop of `Collect` over the passes. -/
def collectPasses (l : AnalyticsLoop) (env : AnalyticsEnv V) (start until' fetchStart : Int)
    (histories : Lib.SortedMap String (RevisionHistory V)) : List ResolvedUseCase →
    Lib.SortedMap String (RevisionHistory V) × List (AnalyticsEvent V) ×
      Except CollectError (List (Sample V))
  | [] => (histories, [], .ok [])
  | p :: rest =>
    match l.collectPass env start until' fetchStart histories p with
    | (histories', events, .error e) => (histories', events, .error e)
    | (histories', events, .ok s) =>
      let (histories'', events', r) :=
        l.collectPasses env start until' fetchStart histories' rest
      (histories'', events ++ events', r.map (s ++ ·))

/-- What a call of `Collect` leaves behind. -/
structure Collected (V : Type) where
  state : AnalyticsState V
  events : List (AnalyticsEvent V)
  result : Except CollectError (Batch V)

/-- `Collect` once the scope is settled. -/
def collectWindow (sha256 : String → String) (l : AnalyticsLoop) (env : AnalyticsEnv V)
    (st : AnalyticsState V) (since : Watermark) : Collected V :=
  let start := l.start env.now since
  let until' := l.windowEnd env.now start
  if until' ≤ start then
    { state := st, events := [], result := .ok { key := l.key sha256, watermark := since } }
  else
    let fetchStart := l.fetchStart env.now start until'
    let (histories, events, r) := l.collectPasses env start until' fetchStart st.histories l.passes
    { state := { st with histories }, events
      result := r.map fun all =>
        { key := l.key sha256, samples := all, watermark := { since with time := until' } } }

/-- `Collect`. -/
def collect (sha256 : String → String) (l : AnalyticsLoop) (env : AnalyticsEnv V)
    (st : AnalyticsState V) (since : Watermark) : Collected V :=
  if l.expectedWorkspace ≠ "" ∧ st.scopeVerified = false then
    match l.verifyScope env.probe with
    | (events, .error e) => { state := st, events, result := .error e }
    | (events, .ok verified) =>
      let c := l.collectWindow sha256 env { st with scopeVerified := verified } since
      { c with events := events ++ c.events }
  else l.collectWindow sha256 env st since

end AnalyticsLoop

end GenaiBridge
