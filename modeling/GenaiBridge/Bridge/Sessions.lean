/-
The LangSmith snapshots: the statistics of the sessions, and the usage that is billed.

Both loops drain the list of sessions page by page up to a cap, and derive gauges from
the sessions seen; the usage loop may ask for the spans of each one as well.  The API and
the clock are what a call is given, and pages appear decoded.
-/
import GenaiBridge.Bridge.Analytics
import GenaiBridge.Bridge.RunsStrip

namespace GenaiBridge

/-! ### Draining the sessions -/

/-- What `fetchPage` returns: an error, a status other than 200, or a decoded page. -/
inductive SessionsFetched (S : Type)
  | failed (err : String)
  | status (code : Nat)
  | page (sessions : List S)

/-- An error of `Collect`. -/
inductive SessionsError
  /-- `fetch sessions (offset %d): %w`. -/
  | fetch (offset : Int) (err : String)
  /-- `source.ErrQuotaExceeded`. -/
  | quotaExceeded
  /-- `sessions status %d`. -/
  | status (code : Nat)
deriving DecidableEq, Repr

/-- The hooks a call fires. -/
inductive SessionsEvent
  | authError
  /-- `onDataIncomplete`, on a session whose spans could not be counted. -/
  | spanStatsUnavailable
deriving DecidableEq, Repr

section

variable {S : Type} (id : S → String)

/-- The sessions of a page that are new, up to a cap: all so far, and whether it was reached. -/
def addNew (maxSessions : Int) : List S → List S → List S × Bool
  | sessions, [] => (sessions, false)
  | sessions, s :: page =>
    if id s ∈ sessions.map id then addNew maxSessions sessions page
    else if maxSessions ≤ (sessions ++ [s]).length then (sessions ++ [s], true)
    else addNew maxSessions (sessions ++ [s]) page

theorem addNew_fits {maxSessions : Int} : ∀ {page sessions sessions' : List S},
    addNew id maxSessions sessions page = (sessions', false) →
    sessions'.length ≠ sessions.length →
    sessions.length < sessions'.length ∧ (sessions'.length : Int) < maxSessions := by
  intro page
  induction page with
  | nil =>
    intro sessions sessions' h hne
    obtain ⟨rfl, -⟩ := Prod.mk.inj h
    exact absurd rfl hne
  | cons s page ih =>
    intro sessions sessions' h hne
    unfold addNew at h
    split_ifs at h with hseen hfull
    · exact ih h hne
    · cases (Prod.mk.inj h).2
    · by_cases hsame : sessions'.length = (sessions ++ [s]).length
      · simp only [List.length_append, List.length_singleton] at hsame hfull
        omega
      · have hrest := ih h hsame
        simp only [List.length_append, List.length_singleton] at hrest
        omega

/-- What the loop over the pages did: the offsets it asked for, the hooks, and the sessions. -/
structure SessionsDrained (S : Type) where
  asked : List Int
  events : List SessionsEvent
  result : Except SessionsError (List S)

/-- The rest of the pages has been drained after the one at an offset. -/
def SessionsDrained.after (rest : SessionsDrained S) (offset : Int) : SessionsDrained S :=
  { rest with asked := offset :: rest.asked }

/-- The loop of `Collect` over the pages, with the sessions so far. -/
def drainSessions (pageLimit maxSessions : Int) (fetch : Int → SessionsFetched S) (offset : Int)
    (sessions : List S) : SessionsDrained S :=
  match fetch offset with
  | .failed err => ⟨[offset], [], .error (.fetch offset err)⟩
  | .status code =>
    if code = 429 then ⟨[offset], [], .error .quotaExceeded⟩
    else ⟨[offset], if isAuthStatus code then [.authError] else [], .error (.status code)⟩
  | .page page =>
    match _h : addNew id maxSessions sessions page with
    | (sessions', true) => ⟨[offset], [], .ok sessions'⟩
    | (sessions', false) =>
      -- a short page, or one that brought nothing new, is the last
      if page.length < pageLimit ∨ sessions'.length = sessions.length then
        ⟨[offset], [], .ok sessions'⟩
      else (drainSessions pageLimit maxSessions fetch (offset + pageLimit) sessions').after offset
termination_by (maxSessions - sessions.length).toNat
decreasing_by
  have := addNew_fits id ‹_› (by omega)
  omega

end

/-! ### The settings -/

/-- An error of the settings, or of a loop's constructor. -/
inductive SessionsSettingsError
  /-- `setting %q=%q: %w`. -/
  | setting (key value : String) (err : RunsValueError)
  /-- `session_label_value must be "id" or "name"`. -/
  | labelValue (key value : String)
  /-- `auth header and value are required`. -/
  | auth
  /-- `base_url is required`. -/
  | baseURL
deriving DecidableEq

/-- What the two loops share of `Config` and `usageConfig`. -/
structure SnapshotConfig where
  metricPrefix : String
  cadence : Int
  statsWindow : Int
  sessionFilter : String := ""
  sessionLabelKey : String := "session"
  sessionLabelValue : String := "id"
  pageLimit : Int := 100
  maxSessions : Int := 1000
deriving DecidableEq

/-- The query of a page of sessions; the time is a text of whole seconds. -/
structure SessionsQuery where
  statsStartTime : List Char
  useApproxStats : Bool
  limit : Int
  offset : Int
  filter : String
deriving DecidableEq

/-- `stats_start_time`. -/
def SnapshotConfig.statsStart (cfg : SnapshotConfig) (now : Int) : List Char :=
  Lib.Rfc3339.formatSec (now - cfg.statsWindow)

/-- The query `fetchPage` sends. -/
def SnapshotConfig.query (cfg : SnapshotConfig) (now : Int) (useApproxStats : Bool) (offset : Int) :
    SessionsQuery :=
  { statsStartTime := cfg.statsStart now, useApproxStats, limit := cfg.pageLimit, offset
    filter := cfg.sessionFilter }

/-- The switch of `applySettings` and `applyUsageSettings`, as far as they have settings in common;
none for any other. -/
def applySnapshotSetting (parseDuration : String → Option Int) (cfg : SnapshotConfig)
    (k v : String) : Option (Except SessionsSettingsError SnapshotConfig) :=
  match k with
  | "stats_window" => some <|
      match parseDuration v with
      | none => .error (.setting k v .unparsable)
      | some d => .ok { cfg with statsWindow := d }
  | "session_filter" => some (.ok { cfg with sessionFilter := v })
  | "session_label_value" => some <|
      if v ≠ "id" ∧ v ≠ "name" then .error (.labelValue k v)
      else .ok { cfg with sessionLabelValue := v }
  | "page_limit" => some <|
      (parseRunsPositiveInt v).map (fun n => { cfg with pageLimit := n }) |>.mapError (.setting k v)
  | "max_sessions" => some <|
      (parseRunsPositiveInt v).map (fun n => { cfg with maxSessions := n })
        |>.mapError (.setting k v)
  | _ => none

/-- The defaults and checks that `newSessionsLoop` and `newUsageLoop` begin with. -/
def completeConfig (sc : SourceConfig) (statsWindow cadence : Int) (cfg : SnapshotConfig) :
    Except SessionsSettingsError SnapshotConfig :=
  if sc.authHeader = "" ∨ sc.authValue = "" then .error .auth
  else if sc.baseURL = "" then .error .baseURL
  else .ok
    { metricPrefix := if cfg.metricPrefix = "" then "langsmith" else cfg.metricPrefix
      cadence := if cfg.cadence ≤ 0 then cadence else cfg.cadence
      statsWindow := if cfg.statsWindow ≤ 0 then statsWindow else cfg.statsWindow
      sessionFilter := cfg.sessionFilter
      sessionLabelKey := if cfg.sessionLabelKey = "" then "session" else cfg.sessionLabelKey
      sessionLabelValue := cfg.sessionLabelValue
      pageLimit := if cfg.pageLimit ≤ 0 then 100 else cfg.pageLimit
      maxSessions := if cfg.maxSessions ≤ 0 then 1000 else cfg.maxSessions }

/-! ### The sessions loop -/

/-- `Config`, what `applySettings` reads and writes. -/
structure SessionsConfig where
  snapshot : SnapshotConfig
  useApproxStats : Bool := false
  emitFeedback : Bool := true
  feedbackKeys : List String := []
deriving DecidableEq

/-- One turn of the loop of `applySettings`. -/
def applySessionsSetting (parseDuration : String → Option Int) (cfg : SessionsConfig)
    (k v : String) : Except SessionsSettingsError SessionsConfig :=
  match applySnapshotSetting parseDuration cfg.snapshot k v with
  | some r => r.map fun snapshot => { cfg with snapshot }
  | none =>
    match k with
    | "use_approx_stats" =>
      return { cfg with useApproxStats := ← (parseBool v).mapError (.setting k v) }
    | "emit_feedback" =>
      return { cfg with emitFeedback := ← (parseBool v).mapError (.setting k v) }
    | "feedback_keys" => .ok { cfg with feedbackKeys := splitCSV v }
    | _ => .ok cfg

/-- `sessionsLoop`, with what of it the modelled functions read. -/
structure SessionsLoop where
  sourceInstance : String
  cfg : SessionsConfig
deriving DecidableEq

/-- `newSessionsLoop`, from the configuration as `New` maps it. -/
def newSessionsLoop (parseDuration : String → Option Int) (sc : SourceConfig) (lp : LoopConfig) :
    Except SessionsSettingsError SessionsLoop := do
  let cfg : SessionsConfig :=
    { snapshot := { metricPrefix := lp.metricPrefix, cadence := lp.cadence, statsWindow := hour } }
  let cfg ← lp.settings.entries.foldlM
    (fun cfg e => applySessionsSetting parseDuration cfg e.1 e.2) cfg
  let snapshot ← completeConfig sc hour minute cfg.snapshot
  return { sourceInstance := sc.sourceInstance, cfg := { cfg with snapshot } }

variable {V : Type}

/-- `feedbackStat`. -/
structure FeedbackStat (V : Type) where
  n : Option Int
  avg : Option V

/-- `tracerSession`; a cost that is not set is none. -/
structure TracerSession (V : Type) where
  id : String
  name : String
  runCount : Option Int
  latencyP50 : Option V
  latencyP99 : Option V
  firstTokenP50 : Option V
  firstTokenP99 : Option V
  totalTokens : Option Int
  promptTokens : Option Int
  completionTokens : Option Int
  totalCost : Option V
  promptCost : Option V
  completionCost : Option V
  errorRate : Option V
  streamingRate : Option V
  feedbackStats : Lib.SortedMap String (FeedbackStat V)

/-- `label`. -/
def TracerSession.label (s : TracerSession V) (useName : Bool) : String :=
  if useName then s.name else s.id

namespace SessionsLoop

variable (l : SessionsLoop)

/-- `SeriesNames`. -/
def seriesNames : List String :=
  ["runs", "latency_seconds", "first_token_seconds", "tokens", "prompt_tokens",
    "completion_tokens", "cost_usd", "prompt_cost_usd", "completion_cost_usd", "error_rate",
    "streaming_rate", "feedback_score", "feedback_count"].map
      fun suffix => l.cfg.snapshot.metricPrefix ++ "_" ++ suffix

/-- `Key`. -/
def key (sha256 : String → String) : CheckpointKey :=
  { sourceInstance := l.sourceInstance, loop := "sessions"
    outputFingerprint :=
      fingerprint sha256 l.seriesNames ("prefix=" ++ l.cfg.snapshot.metricPrefix) }

section

variable (stamp : Int) (s : TracerSession V)

/-- `gauge` of `derive`, with the label besides the session, if any. -/
def gauge (suffix : String) (extra : Option (String × String)) (value : V) : Sample V :=
  let labels : Labels := .insert .empty l.cfg.snapshot.sessionLabelKey
    (s.label (l.cfg.snapshot.sessionLabelValue = "name"))
  { name := l.cfg.snapshot.metricPrefix ++ "_" ++ suffix
    labels := extra.elim labels fun e => labels.insert e.1 e.2
    value
    timestamp := stamp }

/-- `quantiles` of `derive`. -/
def quantiles (suffix : String) (p50 p99 : Option V) : List (Sample V) :=
  p50.toList.map (l.gauge stamp s suffix (some ("quantile", "p50"))) ++
    p99.toList.map (l.gauge stamp s suffix (some ("quantile", "p99")))

/-- `floatGauge` and `costGauge` of `derive`. -/
def floatGauge (suffix : String) (p : Option V) : List (Sample V) :=
  p.toList.map (l.gauge stamp s suffix none)

variable [IntCast V]

/-- `intGauge` of `derive`. -/
def intGauge (suffix : String) (p : Option Int) : List (Sample V) :=
  p.toList.map fun n => l.gauge stamp s suffix none (n : V)

/-- The gauges of one feedback key. -/
def feedbackGauges (k : String) (fs : FeedbackStat V) : List (Sample V) :=
  match fs.avg with
  | none => []
  | some avg =>
    if l.cfg.feedbackKeys ≠ [] ∧ k ∉ l.cfg.feedbackKeys then []
    else l.gauge stamp s "feedback_score" (some ("feedback_key", k)) avg ::
      fs.n.toList.map fun n =>
        l.gauge stamp s "feedback_count" (some ("feedback_key", k)) (n : V)

/-- The body of the loop of `derive`. -/
def sessionSamples : List (Sample V) :=
  l.intGauge stamp s "runs" s.runCount ++
  l.quantiles stamp s "latency_seconds" s.latencyP50 s.latencyP99 ++
  l.quantiles stamp s "first_token_seconds" s.firstTokenP50 s.firstTokenP99 ++
  l.intGauge stamp s "tokens" s.totalTokens ++
  l.intGauge stamp s "prompt_tokens" s.promptTokens ++
  l.intGauge stamp s "completion_tokens" s.completionTokens ++
  l.floatGauge stamp s "cost_usd" s.totalCost ++
  l.floatGauge stamp s "prompt_cost_usd" s.promptCost ++
  l.floatGauge stamp s "completion_cost_usd" s.completionCost ++
  l.floatGauge stamp s "error_rate" s.errorRate ++
  l.floatGauge stamp s "streaming_rate" s.streamingRate ++
  (if l.cfg.emitFeedback then
    s.feedbackStats.entries.flatMap fun e => l.feedbackGauges stamp s e.1 e.2
  else [])

end

variable [IntCast V]

/-- `derive`. -/
def derive (sessions : List (TracerSession V)) (now : Int) : List (Sample V) :=
  (sessions.insertionSort fun a b => a.id ≤ b.id).flatMap
    fun s => l.sessionSamples (Time.truncate now minute) s

/-- What one call of `Collect` is given. -/
structure Env (V : Type) where
  now : Int
  fetch : SessionsQuery → SessionsFetched (TracerSession V)

/-- `Collect`. -/
def collect (sha256 : String → String) (env : Env V) (since : Watermark) :
    List SessionsEvent × Except SessionsError (Batch V) :=
  let query := l.cfg.snapshot.query env.now l.cfg.useApproxStats
  let drained := drainSessions TracerSession.id l.cfg.snapshot.pageLimit
    l.cfg.snapshot.maxSessions (env.fetch ∘ query) 0 []
  (drained.events, drained.result.map fun sessions =>
    { key := l.key sha256, samples := l.derive sessions env.now
      watermark := { since with time := env.now } })

end SessionsLoop

/-! ### The usage loop -/

/-- `usageConfig`, what `applyUsageSettings` reads and writes. -/
structure UsageConfig where
  snapshot : SnapshotConfig
  emitSpanCounts : Bool := true
deriving DecidableEq

/-- One turn of the loop of `applyUsageSettings`. -/
def applyUsageSetting (parseDuration : String → Option Int) (cfg : UsageConfig) (k v : String) :
    Except SessionsSettingsError UsageConfig :=
  match applySnapshotSetting parseDuration cfg.snapshot k v with
  | some r => r.map fun snapshot => { cfg with snapshot }
  | none =>
    match k with
    | "emit_span_counts" =>
      return { cfg with emitSpanCounts := ← (parseBool v).mapError (.setting k v) }
    | _ => .ok cfg

/-- `usageLoop`, with what of it the modelled functions read. -/
structure UsageLoop where
  sourceInstance : String
  cfg : UsageConfig
deriving DecidableEq

/-- `newUsageLoop`, from the configuration as `New` maps it. -/
def newUsageLoop (parseDuration : String → Option Int) (sc : SourceConfig) (lp : LoopConfig) :
    Except SessionsSettingsError UsageLoop := do
  let cfg : UsageConfig :=
    { snapshot :=
      { metricPrefix := lp.metricPrefix, cadence := lp.cadence, statsWindow := 10 * minute } }
  let cfg ← lp.settings.entries.foldlM
    (fun cfg e => applyUsageSetting parseDuration cfg e.1 e.2) cfg
  let snapshot ← completeConfig sc (10 * minute) (10 * minute) cfg.snapshot
  return { sourceInstance := sc.sourceInstance, cfg := { cfg with snapshot } }

/-- `usageSession`. -/
structure UsageSession where
  id : String
  name : String
  runCount : Option Int
  traceTier : String
deriving DecidableEq

/-- `label`. -/
def UsageSession.label (s : UsageSession) (useName : Bool) : String :=
  if useName ∧ s.name ≠ "" then s.name else s.id

/-- What `fetchSpanCount` returns: an error, a status other than 200, or a count that may be
missing. -/
inductive SpanFetched
  | failed (err : String)
  | status (code : Nat)
  | count (n : Option Int)

/-- The loop of `Collect` over the sessions, that counts the spans of each. -/
def countSpans (fetch : String → SpanFetched) :
    List UsageSession → Lib.SortedMap String Int →
    List SessionsEvent × Except SessionsError (Lib.SortedMap String Int)
  | [], spans => ([], .ok spans)
  | s :: rest, spans =>
    let skip := fun auth : List SessionsEvent =>
      let r := countSpans fetch rest spans
      (auth ++ .spanStatsUnavailable :: r.1, r.2)
    match fetch s.id with
    | .failed _ => skip []
    | .status code =>
      if code = 429 then ([], .error .quotaExceeded)
      else skip (if isAuthStatus code then [.authError] else [])
    | .count none => skip []
    | .count (some n) => countSpans fetch rest (spans.insert s.id n)

namespace UsageLoop

variable (l : UsageLoop)

/-- `SeriesNames`. -/
def seriesNames : List String :=
  [l.cfg.snapshot.metricPrefix ++ "_usage_traces", l.cfg.snapshot.metricPrefix ++ "_usage_spans"]

/-- `Key`. -/
def key (sha256 : String → String) : CheckpointKey :=
  { sourceInstance := l.sourceInstance, loop := "usage"
    outputFingerprint :=
      fingerprint sha256 l.seriesNames ("prefix=" ++ l.cfg.snapshot.metricPrefix) }

variable [IntCast V]

/-- The body of the loop of `usageDerive`. -/
def usageSamples (spans : Lib.SortedMap String Int) (stamp : Int) (s : UsageSession) :
    List (Sample V) :=
  let tier := if s.traceTier = "" then "unknown" else s.traceTier
  let labels : Labels := (Lib.SortedMap.empty.insert l.cfg.snapshot.sessionLabelKey
    (s.label (l.cfg.snapshot.sessionLabelValue = "name"))).insert "retention_tier" tier
  (s.runCount.toList.map fun n =>
    { name := l.cfg.snapshot.metricPrefix ++ "_usage_traces", labels, value := (n : V)
      timestamp := stamp }) ++
  (spans.get? s.id).toList.map fun n =>
    { name := l.cfg.snapshot.metricPrefix ++ "_usage_spans", labels, value := (n : V)
      timestamp := stamp }

/-- `usageDerive`. -/
def usageDerive (sessions : List UsageSession) (spans : Lib.SortedMap String Int) (now : Int) :
    List (Sample V) :=
  (sessions.insertionSort fun a b => a.id ≤ b.id).flatMap
    (l.usageSamples spans (Time.truncate now minute))

/-- What one call of `Collect` is given. -/
structure Env where
  now : Int
  fetch : SessionsQuery → SessionsFetched UsageSession
  /-- The spans of a session since an instant, as a text of whole seconds. -/
  spans : List Char → String → SpanFetched

/-- `Collect`. -/
def collect (sha256 : String → String) (env : Env) (since : Watermark) :
    List SessionsEvent × Except SessionsError (Batch V) :=
  let drained := drainSessions UsageSession.id l.cfg.snapshot.pageLimit l.cfg.snapshot.maxSessions
    (env.fetch ∘ l.cfg.snapshot.query env.now false) 0 []
  match drained.result with
  | .error err => (drained.events, .error err)
  | .ok sessions =>
    let (events, counted) := if l.cfg.emitSpanCounts then
      countSpans (env.spans (l.cfg.snapshot.statsStart env.now)) sessions .empty
      else ([], .ok .empty)
    (drained.events ++ events, counted.map fun spans =>
      { key := l.key sha256, samples := l.usageDerive sessions spans env.now
        watermark := { since with time := env.now } })

end UsageLoop

end GenaiBridge
