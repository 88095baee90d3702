/-
The Portkey groups: totals over a trailing window, by model, by metadata key and by prompt.

Each call of `Collect` reads every dimension anew, once for each use case, page by page
and all or nothing.  The API, the clock and the probe of the key's workspace are what a
call is given (`GroupsEnv`); what it fires on the way is recorded.  Pages appear with
their rows as raw records; reading a number literal as a `float64` is a parameter.
-/
import GenaiBridge.Bridge.RunsStrip
import GenaiBridge.Bridge.UseCases

namespace GenaiBridge

open Lib (Json)

/-! ### The settings -/

/-- `groupsSettings`. -/
structure GroupsSettings where
  windowSpan : Int
  settle : Int
  pageSize : Int
  maxGroups : Int
  metadataKeys : List String := []
  emitCost : Bool
  emitPrompts : Bool
  expectedWS : String := ""
  apiKeyIDs : String := ""
deriving DecidableEq

/-- `defaultGroupsSettings`. -/
def defaultGroupsSettings : GroupsSettings :=
  { windowSpan := hour, settle := 10 * minute, pageSize := 1000, maxGroups := 10000
    emitCost := true, emitPrompts := true }

/-- An error of the settings. -/
inductive GroupsSettingsError
  /-- `%s: %w`, `%s must be positive` or `%s must be >= 0`. -/
  | setting (err : LogsSettingsError)
  /-- `settle (%s) must be < window_span (%s)`. -/
  | inverted (settle windowSpan : Int)
deriving DecidableEq

/-- A setting that is on or off. -/
def parseGroupsBool (setting value : String) : Except GroupsSettingsError Bool :=
  (parseBool value).mapError fun _ => .setting (.unparsable setting value)

/-- One turn of the loop of `applyGroupsSettings`. -/
def applyGroupsSetting (parseDuration : String → Option Int) (g : GroupsSettings) (k v : String) :
    Except GroupsSettingsError GroupsSettings :=
  match k with
  | "window_span" => return { g with
      windowSpan := ← (parsePositiveDuration parseDuration "window_span" v).mapError .setting }
  | "settle" => return { g with
      settle := ← (parseNonNegDuration parseDuration "settle" v).mapError .setting }
  | "page_size" => return { g with
      pageSize := ← (parsePositiveInt "page_size" v).mapError .setting }
  | "max_groups" => return { g with
      maxGroups := ← (parsePositiveInt "max_groups" v).mapError .setting }
  | "metadata_keys" => .ok { g with metadataKeys := splitCSV v }
  | "emit_cost" => return { g with emitCost := ← parseGroupsBool "emit_cost" v }
  | "emit_prompts" => return { g with emitPrompts := ← parseGroupsBool "emit_prompts" v }
  | "expected_workspace" => .ok { g with expectedWS := trimSpace v }
  | "api_key_ids" => .ok { g with apiKeyIDs := cleanAPIKeyIDs v }
  | _ => .ok g

/-- `applyGroupsSettings`. -/
def applyGroupsSettings (parseDuration : String → Option Int) (g : GroupsSettings)
    (s : Lib.SortedMap String String) : Except GroupsSettingsError GroupsSettings := do
  let g ← s.entries.foldlM (fun g e => applyGroupsSetting parseDuration g e.1 e.2) g
  if g.windowSpan ≤ g.settle then throw (.inverted g.settle g.windowSpan)
  return g

/-! ### The loop -/

/-- `groupsLoop`, with what of it the modelled functions read. -/
structure GroupsLoop where
  metricPrefix : String
  sourceInstance : String
  cadence : Int
  windowSpan : Int
  settle : Int
  pageSize : Int
  maxGroups : Int
  metadataKeys : List String
  emitCost : Bool
  emitPrompts : Bool
  expectedWorkspace : String
  passes : List ResolvedUseCase
deriving DecidableEq

/-- `newGroupsLoop`. -/
def newGroupsLoop (parseDuration : String → Option Int) (sourceInstance : String) (lp : LoopConfig)
    (ucs : List ResolvedUseCase) : Except GroupsSettingsError GroupsLoop := do
  let gs ← applyGroupsSettings parseDuration defaultGroupsSettings lp.settings
  return {
    metricPrefix := if lp.metricPrefix = "" then "portkey_api" else lp.metricPrefix
    sourceInstance
    cadence := if lp.cadence ≤ 0 then 5 * minute else lp.cadence
    windowSpan := gs.windowSpan
    settle := gs.settle
    pageSize := gs.pageSize
    maxGroups := gs.maxGroups
    metadataKeys := gs.metadataKeys
    emitCost := gs.emitCost
    emitPrompts := gs.emitPrompts
    expectedWorkspace := gs.expectedWS
    passes := if ucs = [] then [⟨"", gs.apiKeyIDs⟩] else ucs }

/-- `groupMetricName`. -/
def groupMetricName (metricPrefix metric dim : String) : String :=
  metricPrefix ++ "_" ++ metric ++ "_by_" ++ dim

/-- `groupsEndpoint`: one dimension. -/
structure GroupsEndpoint where
  urlPath : String
  label : String
  dim : String
  dimField : String
  valueLabelKey : String
  baseLabels : Labels := .empty
  emitCost : Bool

/-- The bytes `url.PathEscape` leaves as they are. -/
def pathByte (b : UInt8) : Bool :=
  let c := Char.ofNat b.toNat
  c.isAlphanum || "-_.~$&+:=@".toList.contains c

/-- `url.PathEscape`. -/
def pathEscape (s : String) : String :=
  let hex := fun n : Nat => "0123456789ABCDEF".toList.getD n '0'
  String.ofList <| s.toUTF8.data.toList.flatMap fun b =>
    if pathByte b then [Char.ofNat b.toNat] else ['%', hex (b.toNat / 16), hex (b.toNat % 16)]

namespace GroupsLoop

variable (l : GroupsLoop)

/-- `SeriesNames`. -/
def seriesNames : List String :=
  [groupMetricName l.metricPrefix "requests" "model"] ++
  (if l.emitCost then [groupMetricName l.metricPrefix "cost_usd" "model"] else []) ++
  (if l.metadataKeys ≠ [] then
    [groupMetricName l.metricPrefix "requests" "metadata"] ++
      (if l.emitCost then [groupMetricName l.metricPrefix "cost_usd" "metadata"] else [])
  else []) ++
  (if l.emitPrompts then [groupMetricName l.metricPrefix "requests" "prompt"] else [])

/-- `Key`. -/
def key (sha256 : String → String) : CheckpointKey :=
  { sourceInstance := l.sourceInstance, loop := "groups"
    outputFingerprint := fingerprint sha256 l.seriesNames ("prefix=" ++ l.metricPrefix) }

/-- `endpoints`. -/
def endpoints : List GroupsEndpoint :=
  [{ urlPath := "ai-models", label := "ai-models", dim := "model", dimField := "ai_model"
     valueLabelKey := "ai_model", emitCost := l.emitCost }] ++
  l.metadataKeys.map (fun k =>
    { urlPath := "metadata/" ++ pathEscape k, label := "metadata/" ++ k, dim := "metadata"
      dimField := "metadata_value", valueLabelKey := "metadata_value"
      baseLabels := .insert .empty "metadata_key" k, emitCost := l.emitCost }) ++
  (if l.emitPrompts then
    -- the cost of a prompt is not declared, so it is never emitted
    [{ urlPath := "prompt", label := "prompt", dim := "prompt", dimField := "prompt"
       valueLabelKey := "prompt", emitCost := false }]
  else [])

end GroupsLoop

/-! ### Rows -/

variable {V : Type}

/-- `groupRow`; the cost is there if the row has one. -/
structure GroupRow (V : Type) where
  dimValue : String
  requests : V
  cost : Option V

/-- An error of `parseGroupRows`, with the row. -/
inductive GroupRowError
  | missingRequests (row : Nat)
  | requests (row : Nat)
  | cost (row : Nat)
deriving DecidableEq, Repr

/-- `json.Unmarshal` into a `float64`: a null leaves it zero. -/
def unmarshalFloat [OfNat V 0] (parseFloat : List Char → Option V) : Json → Option V
  | .num literal => parseFloat literal
  | .null => some 0
  | _ => none

/-- `parseGroupRows`, from some row on. -/
def parseGroupRows [OfNat V 0] (parseFloat : List Char → Option V) (dimField : String) :
    Nat → List RawRecord → Except GroupRowError (List (GroupRow V))
  | _, [] => .ok []
  | i, raw :: data =>
    match raw.get? "requests" with
    | none => .error (.missingRequests i)
    | some rq =>
      match unmarshalFloat parseFloat rq with
      | none => .error (.requests i)
      | some requests =>
        let dimValue := ((raw.get? dimField).bind Json.readText).elim "" String.ofList
        match raw.get? "cost" with
        | none => (parseGroupRows parseFloat dimField (i + 1) data).map
            (⟨dimValue, requests, none⟩ :: ·)
        | some c =>
          match unmarshalFloat parseFloat c with
          | none => .error (.cost i)
          | some cost => (parseGroupRows parseFloat dimField (i + 1) data).map
              (⟨dimValue, requests, some cost⟩ :: ·)

/-- The samples of one row. -/
def rowSamples [Div V] [OfNat V 100] (metricPrefix : String) (ep : GroupsEndpoint) (stamp : Int)
    (r : GroupRow V) : List (Sample V) :=
  let labels := ep.baseLabels.insert ep.valueLabelKey r.dimValue
  { name := groupMetricName metricPrefix "requests" ep.dim, labels, value := r.requests
    timestamp := stamp } ::
  match r.cost with
  | none => []
  | some cost =>
    if ep.emitCost then
      -- Portkey reports cents
      [{ name := groupMetricName metricPrefix "cost_usd" ep.dim, labels, value := cost / 100
         timestamp := stamp }]
    else []

/-- `deriveGroups`. -/
def deriveGroups [Div V] [OfNat V 100] (metricPrefix : String) (ep : GroupsEndpoint) (stamp : Int)
    (rows : List (GroupRow V)) : List (Sample V) :=
  rows.flatMap (rowSamples metricPrefix ep stamp)

/-! ### One call of `Collect` -/

/-- `groupsResponse`. -/
structure GroupsResponse where
  isQuotaExceeded : Bool
  data : List RawRecord

/-- The query of one page; the times are texts of whole seconds. -/
structure GroupsQuery where
  path : String
  timeOfGenerationMin : List Char
  timeOfGenerationMax : List Char
  pageSize : Int
  currentPage : Nat
  apiKeyIDs : String
deriving DecidableEq

/-- What `fetchPage` returns: an error, a status other than 200, or a decoded page. -/
inductive GroupsFetched
  | failed (err : String)
  | status (code : Nat)
  | ok (r : GroupsResponse)

/-- What one call of `Collect` is given. -/
structure GroupsEnv (V : Type) where
  now : Int
  fetch : GroupsQuery → GroupsFetched
  probe : ScopeProbe
  parseFloat : List Char → Option V

/-- The hooks a call fires. -/
inductive GroupsEvent
  /-- `onCapability`, on an endpoint that answered 404. -/
  | endpointAbsent (label : String)
  /-- `onCapability` on the workspace scope. -/
  | scopeDenied
  | authError
  /-- `onDataIncomplete`, on rows that were dropped as duplicates. -/
  | duplicateDimension
deriving DecidableEq, Repr

/-- An error of `Collect`. -/
inductive GroupsError
  | scope (err : CollectError)
  /-- `all %d endpoint fetch(es) failed this poll`. -/
  | allFailed (n : Nat)
deriving DecidableEq, Repr

/-- The rows of a page whose value is new, up to a cap: all so far, how many were dropped, and
whether the cap was reached. -/
def addRows (maxGroups : Int) : List (GroupRow V) → Nat → List (GroupRow V) →
    List (GroupRow V) × Nat × Bool
  | rows, dropped, [] => (rows, dropped, false)
  | rows, dropped, r :: page =>
    if r.dimValue ∈ rows.map (·.dimValue) then addRows maxGroups rows (dropped + 1) page
    else if maxGroups ≤ (rows ++ [r]).length then (rows ++ [r], dropped, true)
    else addRows maxGroups (rows ++ [r]) dropped page

/-- The signal of a read that dropped rows. -/
def droppedEvents (dropped : Nat) : List GroupsEvent :=
  if 0 < dropped then [.duplicateDimension] else []

namespace GroupsLoop

variable (l : GroupsLoop)

/-- `verifyScopeForCollect`. -/
def verifyScope : ScopeProbe → List GroupsEvent × Except CollectError Bool
  | .failed err => ([], .error (.scopeProbe err))
  | .status code =>
    (if isAuthStatus code then [.authError] else [], .error (.scopeProbeStatus code))
  | .rows workspaces =>
    match checkWorkspaceScope l.expectedWorkspace workspaces with
    | .matched => ([], .ok true)
    | .undeterminable => ([], .ok false)
    | .mismatch seen => ([.scopeDenied], .error (.scopeMismatch seen l.expectedWorkspace))

/-- The query `fetchPage` sends. -/
def query (ep : GroupsEndpoint) (from' until' : Int) (page : Nat) (apiKeyIDs : String) :
    GroupsQuery :=
  { path := ep.urlPath
    timeOfGenerationMin := Lib.Rfc3339.formatSec from'
    timeOfGenerationMax := Lib.Rfc3339.formatSec until'
    pageSize := l.pageSize
    currentPage := page
    apiKeyIDs }

/-- `maxPages`. -/
def maxPages : Nat :=
  (max ((wrap64 (wrap64 (l.maxGroups + l.pageSize) - 1)).tdiv l.pageSize) 1).toNat

/-- What reading an endpoint did: the pages it asked for, the hooks, and the rows, unless one of the
pages failed. -/
structure EndpointRead (V : Type) where
  asked : List Nat
  events : List GroupsEvent
  rows : Option (List (GroupRow V))

/-- The rest of the pages has been read after this one. -/
def EndpointRead.after (rest : EndpointRead V) (page : Nat) : EndpointRead V :=
  { rest with asked := page :: rest.asked }

section

variable [OfNat V 0] (env : GroupsEnv V) (ep : GroupsEndpoint) (from' until' : Int)
  (apiKeyIDs : String)

/-- The loop of `collectEndpoint` with the pages still allowed. -/
def collectPages : Nat → Nat → List (GroupRow V) → Nat → EndpointRead V
  | 0, _, rows, dropped => ⟨[], droppedEvents dropped, some rows⟩
  | left + 1, page, rows, dropped =>
    match env.fetch (l.query ep from' until' page apiKeyIDs) with
    | .failed _ => ⟨[page], [], none⟩
    | .status code =>
      if code = 404 then ⟨[page], [.endpointAbsent ep.label], none⟩
      else ⟨[page], if isAuthStatus code then [.authError] else [], none⟩
    | .ok r =>
      if r.isQuotaExceeded then ⟨[page], [], none⟩
      else match parseGroupRows env.parseFloat ep.dimField 0 r.data with
        | .error _ => ⟨[page], [], none⟩
        | .ok pageRows =>
          match addRows l.maxGroups rows dropped pageRows with
          | (rows', dropped', true) => ⟨[page], droppedEvents dropped', some rows'⟩
          | (rows', dropped', false) =>
            if pageRows.length = 0 ∨ pageRows.length < l.pageSize then
              ⟨[page], droppedEvents dropped', some rows'⟩
            else (collectPages left (page + 1) rows' dropped').after page

/-- `collectEndpoint`. -/
def collectEndpoint : EndpointRead V :=
  l.collectPages env ep from' until' apiKeyIDs l.maxPages 0 [] 0

end

variable [OfNat V 0] [Div V] [OfNat V 100]

/-- The loops of `Collect` over the passes and the endpoints: the hooks, the samples, and how many
endpoints were skipped. -/
def collectEndpoints (env : GroupsEnv V) (from' until' : Int) :
    List (ResolvedUseCase × GroupsEndpoint) → List GroupsEvent × List (Sample V) × Nat
  | [] => ([], [], 0)
  | (p, ep) :: rest =>
    let read := l.collectEndpoint env ep from' until' p.apiKeyIDsCSV
    let (events, samples, skipped) := collectEndpoints env from' until' rest
    match read.rows with
    | none => (read.events ++ events, samples, skipped + 1)
    | some rows =>
      let s := deriveGroups l.metricPrefix ep (Time.truncate until' minute) rows
      (read.events ++ events, stampUseCase p.slug s ++ samples, skipped)

/-- What a call of `Collect` leaves behind. -/
structure Collected (V : Type) where
  scopeVerified : Bool
  events : List GroupsEvent
  result : Except GroupsError (Batch V)

/-- `Collect` once the scope is settled. -/
def collectSnapshot (sha256 : String → String) (env : GroupsEnv V) (scopeVerified : Bool)
    (since : Watermark) : Collected V :=
  let reads := l.passes.flatMap fun p => l.endpoints.map fun ep => (p, ep)
  let (events, samples, skipped) :=
    l.collectEndpoints env (env.now - l.windowSpan) (env.now - l.settle) reads
  { scopeVerified, events
    result := if skipped = reads.length then .error (.allFailed reads.length)
      else .ok { key := l.key sha256, samples, watermark := { since with time := env.now } } }

/-- `Collect`. -/
def collect (sha256 : String → String) (env : GroupsEnv V) (scopeVerified : Bool)
    (since : Watermark) : Collected V :=
  if l.expectedWorkspace ≠ "" ∧ scopeVerified = false then
    match l.verifyScope env.probe with
    | (events, .error e) => { scopeVerified, events, result := .error (.scope e) }
    | (events, .ok verified) =>
      let c := l.collectSnapshot sha256 env verified since
      { c with events := events ++ c.events }
  else l.collectSnapshot sha256 env scopeVerified since

end GroupsLoop

end GenaiBridge
