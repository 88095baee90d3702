/-
The loops that emit samples, as `Build` makes them.

`metricLoops` are the constructors that the composition root takes as a parameter.  An
error is its text, without the words of a library error it wraps and with quoted parts in
plain quotes.  `SampleLoop` is any of the four loops, and `Returns` what a call of its
`Collect` may return.
-/
import GenaiBridge.Bridge.App
import GenaiBridge.Bridge.Groups
import GenaiBridge.Bridge.Sessions

namespace GenaiBridge

/-- The text of an error of the groups settings. -/
def GroupsSettingsError.text : GroupsSettingsError → String
  | .setting (.notPositive name value) =>
    "portkey groups: " ++ name ++ " must be positive, got " ++
      if name = "window_span" then durationText value else toString value
  | .setting (.negative name value) =>
    "portkey groups: " ++ name ++ " must be >= 0, got " ++ durationText value
  | .setting (.unparsable name _) => "portkey groups: " ++ name ++ ": "
  | .setting _ => "portkey groups: "
  | .inverted settle windowSpan =>
    "portkey groups: settle (" ++ durationText settle ++ ") must be < window_span (" ++
      durationText windowSpan ++ "); otherwise the query window inverts"

/-- The text of an error of the sessions or usage loop, after the name of the loop. -/
def SessionsSettingsError.text (loop : String) : SessionsSettingsError → String
  | .setting key value err => loop ++ ": setting \"" ++ key ++ "\"=\"" ++ value ++ "\": " ++
      if err = .unparsable then "" else "must be > 0"
  | .labelValue key value => loop ++ ": setting \"" ++ key ++ "\"=\"" ++ value ++
      "\": session_label_value must be \"id\" or \"name\""
  | .auth => loop ++ ": auth header and value are required"
  | .baseURL => loop ++ ": base_url is required"

/-- A loop of one of the kinds that emit samples. -/
inductive SampleLoop
  | analytics (l : AnalyticsLoop)
  | groups (l : GroupsLoop)
  | sessions (l : SessionsLoop)
  | usage (l : UsageLoop)

namespace SampleLoop

/-- `Key`. -/
def key (sha256 : String → String) : SampleLoop → CheckpointKey
  | .analytics l => l.key sha256
  | .groups l => l.key sha256
  | .sessions l => l.key sha256
  | .usage l => l.key sha256

/-- `SeriesNames`. -/
def seriesNames : SampleLoop → List String
  | .analytics l => l.seriesNames
  | .groups l => l.seriesNames
  | .sessions l => l.seriesNames
  | .usage l => l.seriesNames

/-- What the checks of `Build` read of a loop. -/
def metricLoop (sha256 : String → String) (l : SampleLoop) : MetricLoop :=
  { key := l.key sha256, seriesNames := l.seriesNames }

end SampleLoop

/-- The constructors of the groups, sessions and usage loops. -/
def metricLoops (P : Platform) : MetricLoops where
  newGroupsLoop sc lp ucs := do
    let l ← (newGroupsLoop P.parseDuration sc.sourceInstance lp ucs).mapError (·.text)
    return (SampleLoop.groups l).metricLoop P.sha256
  newSessionsLoop sc lp := do
    let l ← (newSessionsLoop P.parseDuration sc lp).mapError (·.text "langsmith")
    return (SampleLoop.sessions l).metricLoop P.sha256
  newUsageLoop sc lp := do
    let l ← (newUsageLoop P.parseDuration sc lp).mapError (·.text "langsmith usage")
    return (SampleLoop.usage l).metricLoop P.sha256

/-- A loop that a source's constructor makes. -/
inductive SampleLoop.MadeFrom (P : Platform) (sc : SourceConfig) : SampleLoop → Prop
  | analytics (lp : LoopConfig) (ucs : List ResolvedUseCase) (l : AnalyticsLoop)
      (htype : sc.type = "portkey") (hcfg : sc.enabledLoop "analytics" = some lp)
      (hucs : resolveUseCases sc = .ok ucs)
      (hnew : newAnalyticsLoop sc.sourceInstance lp ucs = .ok l) : MadeFrom P sc (.analytics l)
  | groups (lp : LoopConfig) (ucs : List ResolvedUseCase) (l : GroupsLoop)
      (htype : sc.type = "portkey") (hcfg : sc.enabledLoop "groups" = some lp)
      (hucs : resolveUseCases sc = .ok ucs)
      (hnew : newGroupsLoop P.parseDuration sc.sourceInstance lp ucs = .ok l) :
      MadeFrom P sc (.groups l)
  | sessions (lp : LoopConfig) (l : SessionsLoop) (htype : sc.type = "langsmith")
      (hcfg : sc.enabledLoop "sessions" = some lp)
      (hnew : newSessionsLoop P.parseDuration sc lp = .ok l) : MadeFrom P sc (.sessions l)
  | usage (lp : LoopConfig) (l : UsageLoop) (htype : sc.type = "langsmith")
      (hcfg : sc.enabledLoop "usage" = some lp)
      (hnew : newUsageLoop P.parseDuration sc lp = .ok l) : MadeFrom P sc (.usage l)

/-- A loop that is made from an enabled source of a configuration. -/
def SampleLoop.Made (P : Platform) (cfg : Config) (l : SampleLoop) : Prop :=
  ∃ sc ∈ cfg.sources, sc.enabled = true ∧ l.MadeFrom P sc

variable {V : Type} [OfNat V 0] [OfNat V 100] [OfNat V 1000] [Div V] [BEq V] [IntCast V]

/-- A batch that a call of `Collect` returns, for some state, watermark and answers of the API. -/
inductive SampleLoop.Returns (sha256 : String → String) : SampleLoop → Batch V → Prop
  | analytics (l : AnalyticsLoop) (env : AnalyticsEnv V) (st : AnalyticsState V)
      (since : Watermark) (b : Batch V) (h : (l.collect sha256 env st since).result = .ok b) :
      Returns sha256 (.analytics l) b
  | groups (l : GroupsLoop) (env : GroupsEnv V) (scopeVerified : Bool) (since : Watermark)
      (b : Batch V) (h : (l.collect sha256 env scopeVerified since).result = .ok b) :
      Returns sha256 (.groups l) b
  | sessions (l : SessionsLoop) (env : SessionsLoop.Env V) (since : Watermark) (b : Batch V)
      (h : (l.collect sha256 env since).2 = .ok b) : Returns sha256 (.sessions l) b
  | usage (l : UsageLoop) (env : UsageLoop.Env) (since : Watermark) (b : Batch V)
      (h : (l.collect sha256 env since).2 = .ok b) : Returns sha256 (.usage l) b

end GenaiBridge
