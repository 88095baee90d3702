/-
The composition root: from a configuration to loops and the guard they share.

`Build` checks the configuration, constructs the loops of every enabled source, and makes
one guard with a content denylist for each logs loop.  The loops that emit samples appear
as what the checks read of them, their key and their series; how the groups, sessions and
usage loops are constructed is a parameter.  The runners and the scheduler made of the
loops, and the epoch the single-replica coordinator adopts, are not part of what is
returned here.
-/
import GenaiBridge.Bridge.LogsStrip
import GenaiBridge.Bridge.Runs
import GenaiBridge.Bridge.UseCases

namespace GenaiBridge

/-- What the construction takes from the libraries. -/
structure Platform where
  parseDuration : String → Option Int
  sha256 : String → String
  toLower : String → String
  loopbackURL : String → Bool
  /-- What a `float64` too large for an `int64` converts to. -/
  overflow : Int
  /-- `json.Unmarshal` of a line of an export. -/
  unmarshal : List UInt8 → Option RawRecord

/-- A loop that emits samples. -/
structure MetricLoop where
  key : CheckpointKey
  seriesNames : List String

/-- The constructors of the loops that emit samples, but for the analytics loop. -/
structure MetricLoops where
  newGroupsLoop : SourceConfig → LoopConfig → List ResolvedUseCase → Except String MetricLoop
  newSessionsLoop : SourceConfig → LoopConfig → Except String MetricLoop
  newUsageLoop : SourceConfig → LoopConfig → Except String MetricLoop

/-- `source.Loop`: a loop of one of the built-in kinds. -/
inductive Loop
  | metrics (l : MetricLoop)
  | logsExport (l : LogsExportLoop RawRecord)
  | runs (l : RunsLoop)

namespace Loop

/-- `Key`. -/
def key (sha256 : String → String) : Loop → CheckpointKey
  | .metrics l => l.key
  | .logsExport l => l.key sha256
  | .runs l => l.key sha256

/-- `SeriesNames`: a logs loop has none. -/
def seriesNames : Loop → List String
  | .metrics l => l.seriesNames
  | .logsExport _ | .runs _ => []

/-- `IndexedKeys`, of a loop that is an `IndexedKeyDeclarer`. -/
def indexedKeys : Loop → Option (List String)
  | .metrics _ => none
  | .logsExport l => some l.indexedKeys
  | .runs l => some l.indexedKeys

/-- The `strip` of a logs loop. -/
def strip : Loop → Option (RawRecord → Int → LogRecord)
  | .metrics _ => none
  | .logsExport l => some l.downloader.policy.strip
  | .runs l => some l.policy.strip

end Loop

/-! ### The sources -/

/-- An error of a source's constructor. -/
inductive SourceError
  | useCases (err : UseCaseError)
  | analytics (err : AnalyticsBuildError)
  | logsExport (err : LogsSettingsError)
  | runs (err : RunsSettingsError)
  /-- `loops.%s.window must be unset/0`. -/
  | window (loop : String) (window : Int)
  /-- An error of one of the other loops. -/
  | metrics (err : String)
  /-- `source: unknown type`. -/
  | unknownType (type : String)

/-- The configuration of a loop that is enabled. -/
def SourceConfig.enabledLoop (sc : SourceConfig) (name : String) : Option LoopConfig :=
  (sc.loops.get? name).filter (·.enabled)

/-- The loop of an enabled configuration, or none. -/
def optionalLoop (lp : Option LoopConfig) (build : LoopConfig → Except SourceError (List Loop)) :
    Except SourceError (List Loop) :=
  match lp with
  | none => .ok []
  | some lp => build lp

section

variable (P : Platform) (M : MetricLoops)

/-- `portkey.New`: the log export has one loop for each use case. -/
def newPortkey (sc : SourceConfig) : Except SourceError (List Loop) :=
  if (sc.enabledLoop "analytics").isNone ∧ (sc.enabledLoop "groups").isNone ∧
      (sc.enabledLoop "logs_export").isNone then .ok []
  else do
    let ucs ← (resolveUseCases sc).mapError .useCases
    let analytics ← optionalLoop (sc.enabledLoop "analytics") fun lp => do
      let l ← (newAnalyticsLoop sc.sourceInstance lp ucs).mapError .analytics
      return [.metrics ⟨l.key P.sha256, l.seriesNames⟩]
    let groups ← optionalLoop (sc.enabledLoop "groups") fun lp => do
      let l ← (M.newGroupsLoop sc lp ucs).mapError .metrics
      return [.metrics l]
    let logs ← optionalLoop (sc.enabledLoop "logs_export") fun lp =>
      (if ucs = [] then [⟨"", ""⟩] else ucs).mapM fun uc => do
        let l ← (newLogsExportLoop P.parseDuration sc.sourceInstance sc.allowPrivate lp uc
          fun ls => (logFieldPolicy ls uc).linePolicy P.unmarshal).mapError .logsExport
        return .logsExport l
    return analytics ++ groups ++ logs

/-- The check that a snapshot loop has no window. -/
def refuseWindow (name : String) (lp : Option LoopConfig) : Except SourceError Unit :=
  match lp with
  | none => .ok ()
  | some lp => if lp.window ≠ 0 then .error (.window name lp.window) else .ok ()

/-- `langsmith.New`. -/
def newLangsmith (sc : SourceConfig) : Except SourceError (List Loop) :=
  if (sc.enabledLoop "sessions").isNone ∧ (sc.enabledLoop "runs").isNone ∧
      (sc.enabledLoop "usage").isNone then .ok []
  else do
    refuseWindow "sessions" (sc.enabledLoop "sessions")
    refuseWindow "usage" (sc.enabledLoop "usage")
    let sessions ← optionalLoop (sc.enabledLoop "sessions") fun lp => do
      let l ← (M.newSessionsLoop sc lp).mapError .metrics
      return [.metrics l]
    let runs ← optionalLoop (sc.enabledLoop "runs") fun lp => do
      let l ← (newRunsLoop P.parseDuration sc.sourceInstance lp).mapError .runs
      return [.runs l]
    let usage ← optionalLoop (sc.enabledLoop "usage") fun lp => do
      let l ← (M.newUsageLoop sc lp).mapError .metrics
      return [.metrics l]
    return sessions ++ runs ++ usage

/-- `Registry.Known`. -/
def knownTypes : List String := ["portkey", "langsmith"]

/-- `Registry.Build`. -/
def buildSource (sc : SourceConfig) : Except SourceError (List Loop) :=
  if sc.type = "portkey" then newPortkey P M sc
  else if sc.type = "langsmith" then newLangsmith P M sc
  else .error (.unknownType sc.type)

end

/-! ### The keys of the guard -/

/-- `portkey.AllowedLabelKeys`. -/
def portkeyAllowedLabelKeys : List String :=
  ["quantile", "token_type", "ai_model", "ai_org", "response_status_code", "metadata_key",
    "metadata_value", "prompt", useCaseLabelKey]

/-- `langsmith.AllowedLabelKeys`. -/
def langsmithAllowedLabelKeys : List String :=
  ["quantile", "session", "feedback_key", "run_type", "status", "retention_tier"]

/-- `grayBackstopDenyKeys`. -/
def grayBackstopDenyKeys : List String :=
  ["events", "extra", "serialized", "manifest", "s3_urls", "error", "name"]

/-- `contentDenylist`: the floor, and the gray keys that are not opted into. -/
def contentDenylist (optedIn : List String) : List String :=
  absoluteNeverDenyKeys ++ grayBackstopDenyKeys.filter (· ∉ optedIn)

/-- The fields a setting names. -/
def LoopConfig.settingFields (lc : LoopConfig) (knob : String) : List String :=
  splitCSV ((lc.settings.get? knob).getD "")

/-- `optedInContentFieldsForLoop`. -/
def optedInContentFieldsForLoop (lc : LoopConfig) : List String :=
  ["extra_record_fields", "extra_indexed_fields", "metadata_record_fields"].flatMap
    lc.settingFields

/-- `optedInIndexedFields`. -/
def optedInIndexedFields (cfg : Config) : List String :=
  ((cfg.sources.filter (·.enabled)).flatMap fun sc =>
    (sc.loops.entries.filter (·.2.enabled)).flatMap fun e =>
      e.2.settingFields "extra_indexed_fields").eraseDups

/-- The label keys an operator promotes. -/
def operatorPromoted (cfg : Config) : List String :=
  cfg.governance.allowLabelKeys ++ optedInIndexedFields cfg

/-- The keys the guard allows; `dedupe` keeps the first of each. -/
def allowKeys (cfg : Config) : List String :=
  (portkeyAllowedLabelKeys ++ langsmithAllowedLabelKeys ++ operatorPromoted cfg).eraseDups

/-! ### Building -/

/-- `loopConfigured`. -/
structure LoopConfigured where
  loop : Loop
  cfg : LoopConfig

/-- `contentDenyByLoop`. -/
def contentDenyByLoop (sha256 : String → String) (loops : List LoopConfigured) :
    Lib.SortedMap String (List String) :=
  (loops.filter fun l => l.loop.indexedKeys.isSome).foldl
    (fun out l => out.insert (l.loop.key sha256).string
      (contentDenylist (optedInContentFieldsForLoop l.cfg))) .empty

/-- An error of `Build`. -/
inductive BuildError
  /-- `config invalid`. -/
  | invalid (errs : List ConfigError)
  /-- `%q is a content-floor key … and cannot be promoted to a label`. -/
  | contentFloorKey (key : String)
  | source (err : SourceError)
  /-- `configured loop %q is enabled but not recognised by the source`. -/
  | unknownLoop (sourceInstance type name : String)
  /-- `loop %q would emit %d Loki stream labels`. -/
  | streamLabels (loop : String) (n identity indexed : Nat) (ceiling : Int)
  /-- `series %q owned by both %q and %q`. -/
  | ownership (series prev key : String)
  /-- `no enabled loops`. -/
  | noLoops

/-- A loop configuration that is not there. -/
def LoopConfig.zero : LoopConfig :=
  { enabled := false, cadence := 0, window := 0, bucketSettle := 0, bootstrapLookback := 0
    maxBackfill := 0, graphs := [], metricPrefix := "", settings := .empty }

/-- `streamLabelCeiling`: `max_stream_label_keys`, or the default for none. -/
def GovernanceConfig.streamLabelCeiling (g : GovernanceConfig) : Int :=
  if g.maxStreamLabelKeys = 0 then defaultMaxStreamLabelKeys else g.maxStreamLabelKeys

/-- The check of a loop against the budget of stream labels. -/
def checkStreamLabels (cfg : Config) (sha256 : String → String) (lp : Loop) :
    Except BuildError Unit :=
  let ceiling := cfg.governance.streamLabelCeiling
  let identity := cfg.identity.productIdentity.keys.length
  match lp.indexedKeys with
  | none => .ok ()
  | some keys =>
    if ceiling < identity + keys.length then
      .error (.streamLabels (lp.key sha256).loop (identity + keys.length) identity keys.length
        ceiling)
    else .ok ()

/-- The first pass of `Build`, over one source. -/
def buildLoops (P : Platform) (M : MetricLoops) (cfg : Config) (sc : SourceConfig) :
    Except BuildError (List LoopConfigured) := do
  let loops ← (buildSource P M sc).mapError .source
  let built := loops.map fun lp => (lp.key P.sha256).loop
  match sc.loops.entries.find? fun e => e.2.enabled ∧ e.1 ∉ built with
  | some e => throw (.unknownLoop sc.sourceInstance sc.type e.1)
  | none => loops.mapM fun lp => do
      checkStreamLabels cfg P.sha256 lp
      return ⟨lp, (sc.loops.get? (lp.key P.sha256).loop).getD .zero⟩

/-- `NormalizeSeriesName`. -/
def normalizeSeriesName (toLower : String → String) (n : String) : String :=
  toLower (String.ofList (n.toList.map fun c => if c = '.' then '_' else c))

/-- The loop of `ValidateOwnership`, over the series each with the key of its loop. -/
def validateOwnership : Lib.SortedMap String String → List (String × String) →
    Except BuildError Unit
  | _, [] => .ok ()
  | owner, (norm, key) :: rest =>
    match owner.get? norm with
    | some prev =>
      if prev ≠ key then .error (.ownership norm prev key)
      else validateOwnership (owner.insert norm key) rest
    | none => validateOwnership (owner.insert norm key) rest

/-- What `Build` makes: the loops, and the guard of their runners. -/
structure App where
  loops : List LoopConfigured
  guard : Guard

/-- `Build`. -/
def build (P : Platform) (M : MetricLoops) (cfg : Config) : Except BuildError App := do
  if cfg.validate P.overflow P.loopbackURL knownTypes ≠ [] then
    throw (.invalid (cfg.validate P.overflow P.loopbackURL knownTypes))
  if let some k := (operatorPromoted cfg).find? isContentFloorKey then throw (.contentFloorKey k)
  let perSource ← (cfg.sources.filter (·.enabled)).mapM (buildLoops P M cfg)
  let loops := perSource.flatten
  validateOwnership .empty <| loops.flatMap fun l =>
    l.loop.seriesNames.map fun n => (normalizeSeriesName P.toLower n, (l.loop.key P.sha256).string)
  if loops = [] then throw .noLoops
  return {
    loops
    guard := newGuard
      { allowLabelKeys := allowKeys cfg
        denyFieldKeys := contentDenylist []
        denyFieldKeysByLoop := contentDenyByLoop P.sha256 loops
        perSeriesBudget := cfg.governance.perMetricCardinalityBudget } }

end GenaiBridge
