/-
The configuration of the loops and their sources, and the checks `Validate` makes on it.

A duration is an `Int` of nanoseconds.  The lower bound on a window goes through a
`float64` product in the source, so the two roundings it makes are written out
here: to a multiple of `2^k` that leaves 53 significant bits, ties to even.  The blocks
that no loop reads (the endpoints of the emitter, the log output, the coordinator, the
profiling) and the checks on them are left out, so what is accepted here contains what
`Validate` accepts.
-/
import GenaiBridge.Bridge.Model

namespace GenaiBridge

/-- `config.LoopConfig`. -/
structure LoopConfig where
  enabled : Bool
  cadence : Int
  window : Int
  bucketSettle : Int
  bootstrapLookback : Int
  maxBackfill : Int
  graphs : List String
  metricPrefix : String
  settings : Lib.SortedMap String String

/-- `maxWindow`. -/
def maxWindow : Int := 55 * minute

/-- `minCadence`. -/
def minCadence : Int := 10 * second

/-! ### The bound on a window -/

/-- `n / 2^k`, rounded to the nearest integer, ties to even. -/
def roundShift (n k : Nat) : Nat :=
  let q := n / 2 ^ k
  let r := n % 2 ^ k
  if 2 ^ k < 2 * r ∨ (2 * r = 2 ^ k ∧ q % 2 = 1) then q + 1 else q

/-- The `float64` nearest to an integer: 53 significant bits of it. -/
def roundFloat (n : Nat) : Nat :=
  let k := n.log2 + 1 - 53
  roundShift n k * 2 ^ k

/-- The mantissa of `1 + 2*jitterFrac` as a `float64`; its exponent is -52. -/
def jitterMantissa : Nat := 5404319552844595

/-- `time.Duration(float64(d) * (1 + 2*jitterFrac))`.  What a product too large for an `int64`
converts to is left to the platform: `overflow`. -/
def jittered (overflow d : Int) : Int :=
  let n : Int := (roundFloat (roundFloat d.natAbs * jitterMantissa) / 2 ^ 52 : Nat)
  if maxInt64 < n then overflow else d.sign * n

/-! ### Validation -/

/-- The durations of a loop that must not be negative. -/
inductive DurationField
  | cadence
  | window
  | bucketSettle
  | bootstrapLookback
  | maxBackfill
deriving DecidableEq, Repr

/-- The field's name in the configuration file and in the errors about it. -/
def DurationField.name : DurationField → String
  | .cadence => "cadence"
  | .window => "window"
  | .bucketSettle => "bucket_settle"
  | .bootstrapLookback => "bootstrap_lookback"
  | .maxBackfill => "max_backfill"

/-- What `Validate` finds wrong with a loop, and the values its message prints. -/
inductive LoopError
  /-- `<field> must be >= 0`. -/
  | negative (field : DurationField) (v : Int)
  /-- `cadence < floor`. -/
  | cadenceBelowFloor (cadence : Int)
  /-- The window `would flip bucket granularity`. -/
  | windowTooWide (window : Int)
  /-- `window < cadence*(1+2·jitter)+settle`. -/
  | windowTooNarrow (window lower : Int)
  /-- `bootstrap_lookback > max_backfill`. -/
  | bootstrapBeyondBackfill (bootstrap backfill : Int)
deriving DecidableEq, Repr

namespace LoopConfig

/-- The durations checked for a sign, in the order of the source. -/
def durations (lp : LoopConfig) : List (DurationField × Int) :=
  [(.cadence, lp.cadence), (.window, lp.window), (.bucketSettle, lp.bucketSettle),
    (.bootstrapLookback, lp.bootstrapLookback), (.maxBackfill, lp.maxBackfill)]

/-- The window must cover the longest gap between two ticks, and the settle time. -/
def windowLower (overflow : Int) (lp : LoopConfig) : Int :=
  wrap64 (jittered overflow lp.cadence + lp.bucketSettle)

/-- The errors `Validate` collects about one loop. -/
def validate (overflow : Int) (lp : LoopConfig) : List LoopError :=
  if !lp.enabled then []
  else
    (lp.durations.filter fun f => f.2 < 0).map (fun f => .negative f.1 f.2)
      ++ (if lp.cadence < minCadence then [.cadenceBelowFloor lp.cadence] else [])
      -- a loop with no window takes snapshots, and the bounds below do not apply to it
      ++ if lp.window = 0 then []
        else
          (if maxWindow < lp.window then [.windowTooWide lp.window] else [])
            ++ (if lp.window < lp.windowLower overflow then
                [.windowTooNarrow lp.window (lp.windowLower overflow)] else [])
            ++ (if 0 < lp.maxBackfill ∧ lp.maxBackfill < lp.bootstrapLookback then
                [.bootstrapBeyondBackfill lp.bootstrapLookback lp.maxBackfill] else [])

/-- What an enabled loop with a window has passed. -/
theorem validate_eq_nil {overflow : Int} {lp : LoopConfig} (h : lp.validate overflow = [])
    (hen : lp.enabled = true) (hwin : lp.window ≠ 0) :
    0 ≤ lp.window ∧ lp.window ≤ maxWindow ∧ 0 ≤ lp.bucketSettle ∧
      (0 < lp.maxBackfill → lp.bootstrapLookback ≤ lp.maxBackfill) := by
  simp only [validate, hen, hwin, Bool.not_true, Bool.false_eq_true, if_false,
    List.append_eq_nil_iff, List.map_eq_nil_iff, List.filter_eq_nil_iff, decide_eq_true_eq] at h
  obtain ⟨⟨hneg, -⟩, ⟨hwide, -⟩, hboot⟩ := h
  have hw := hneg (.window, lp.window) (by simp [durations])
  have hs := hneg (.bucketSettle, lp.bucketSettle) (by simp [durations])
  refine ⟨by simpa using hw, ?_, by simpa using hs, fun hpos => ?_⟩
  · by_contra hlt
    simp [not_le.mp hlt] at hwide
  · by_contra hlt
    simp [hpos, not_le.mp hlt] at hboot

end LoopConfig

/-! ### Sources -/

/-- `config.APIKeyUseCase`. -/
structure APIKeyUseCase where
  label : String
  apiKeyIDs : List String

/-- `config.SourceConfig`. -/
structure SourceConfig where
  type : String
  enabled : Bool
  sourceInstance : String
  baseURL : String
  authHeader : String
  authValue : String
  allowPrivate : Bool
  rps : Rat
  burst : Int
  loops : Lib.SortedMap String LoopConfig
  apiKeyUseCases : List APIKeyUseCase := []

/-- `config.GovernanceConfig`. -/
structure GovernanceConfig where
  perMetricCardinalityBudget : Int
  maxDPM : Int
  maxCatchupPerTick : Int
  maxStreamLabelKeys : Int
  allowLabelKeys : List String := []

/-- `config.IdentityConfig`. -/
structure IdentityConfig where
  serviceNamespace : String
  deploymentEnvironment : String

/-- `ProductIdentity`. -/
def IdentityConfig.productIdentity (ic : IdentityConfig) : Labels :=
  ((Lib.SortedMap.empty.insert "service.name" "genai-otel-bridge").insert
    "service.namespace" ic.serviceNamespace).insert
    "deployment.environment.name" ic.deploymentEnvironment

/-- `DefaultMaxStreamLabelKeys`. -/
def defaultMaxStreamLabelKeys : Int := 15

/-- `config.Config`: the blocks the loops are built from. -/
structure Config where
  emitWorkers : Int
  governance : GovernanceConfig
  identity : IdentityConfig
  sources : List SourceConfig

/-- What `Validate` finds wrong, and the values its messages print. -/
inductive ConfigError
  /-- `queue.emit_workers must be 1`. -/
  | emitWorkers (v : Int)
  /-- `governance.<field> must be >= 0`. -/
  | governance (field : String) (v : Int)
  /-- `unknown source type`. -/
  | unknownType (type : String)
  /-- `source_instance required`. -/
  | noInstance (type : String)
  /-- `duplicate source_instance`. -/
  | duplicateInstance (sourceInstance : String)
  /-- `source_instance must not contain '/'`. -/
  | slash (sourceInstance : String)
  /-- `base_url must be a non-empty https:// URL`. -/
  | baseURL (sourceInstance baseURL : String)
  /-- `auth.header and auth.value are required`. -/
  | auth (sourceInstance : String)
  /-- `rate_limit.rps must be > 0`. -/
  | rps (sourceInstance : String) (v : Rat)
  /-- `rate_limit.burst must be >= 1`. -/
  | burst (sourceInstance : String) (v : Int)
  | loop (sourceInstance name : String) (err : LoopError)
deriving DecidableEq

/-- `insecureURL`. -/
def insecureURL (u : String) : Bool := !"https://".toList.isPrefixOf u.toList

/-- The errors `Validate` collects about one enabled source, after those with the instances
`seen`. -/
def SourceConfig.validate (overflow : Int) (loopbackURL : String → Bool) (known seen : List String)
    (s : SourceConfig) : List ConfigError :=
  (if s.type ∈ known then [] else [.unknownType s.type])
    ++ (if s.sourceInstance = "" then [.noInstance s.type] else [])
    ++ (if s.sourceInstance ∈ seen then [.duplicateInstance s.sourceInstance] else [])
    ++ (if '/' ∈ s.sourceInstance.toList then [.slash s.sourceInstance] else [])
    ++ (if s.baseURL = "" ∨ (insecureURL s.baseURL ∧ !loopbackURL s.baseURL ∧ !s.allowPrivate) then
        [.baseURL s.sourceInstance s.baseURL] else [])
    ++ (if s.authHeader = "" ∨ s.authValue = "" then [.auth s.sourceInstance] else [])
    ++ (if s.rps ≤ 0 then [.rps s.sourceInstance s.rps] else [])
    ++ (if s.burst < 1 then [.burst s.sourceInstance s.burst] else [])
    ++ s.loops.entries.flatMap fun e => (e.2.validate overflow).map (.loop s.sourceInstance e.1)

/-- The loop of `Validate` over the sources. -/
def validateSources (overflow : Int) (loopbackURL : String → Bool) (known : List String) :
    List String → List SourceConfig → List ConfigError
  | _, [] => []
  | seen, s :: rest =>
    if !s.enabled then validateSources overflow loopbackURL known seen rest
    else s.validate overflow loopbackURL known seen ++
      validateSources overflow loopbackURL known (seen ++ [s.sourceInstance]) rest

/-- `Validate`; `loopbackURL` parses a URL and looks at its host. -/
def Config.validate (overflow : Int) (loopbackURL : String → Bool) (known : List String)
    (c : Config) : List ConfigError :=
  (if c.emitWorkers ≠ 1 then [.emitWorkers c.emitWorkers] else [])
    ++ ([("per_metric_cardinality_budget", c.governance.perMetricCardinalityBudget),
        ("max_dpm", c.governance.maxDPM),
        ("max_catchup_per_tick", c.governance.maxCatchupPerTick),
        ("max_stream_label_keys", c.governance.maxStreamLabelKeys)].filter fun f => f.2 < 0).map
      (fun f => .governance f.1 f.2)
    ++ validateSources overflow loopbackURL known [] c.sources

end GenaiBridge
