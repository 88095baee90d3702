/-
The series that were checked at the start are the ones that are emitted.

`SeriesNames` and the samples of a loop come from different code.  Of each of the four
loops that emit samples it is shown that whatever the API answers, a sample has a name
the loop declares and label keys from a fixed list, which the guard allows.  What the
ownership check says of declared names then holds of emitted ones, and the guard can drop
a sample for its cardinality only.
-/
import GenaiBridge.Proofs.SourceLoops

namespace GenaiBridge

open Lib (SortedMap bind_ok map_ok mapError_ok ok_of_toOption_map)

variable {V : Type}

/-! ### Declared names, and label keys -/

/-- The keys of the labels that samples carry. -/
def emittedLabelKeys : List String :=
  ["quantile", "token_type", "ai_model", "metadata_key", "metadata_value", "prompt",
    "api_key_use_case", "session", "feedback_key", "retention_tier"]

/-- Samples with a name that is declared, and labels with those keys. -/
def Declared (names : List String) (samples : List (Sample V)) : Prop :=
  ∀ s ∈ samples, s.name ∈ names ∧ ∀ k ∈ s.labels.keys, k ∈ emittedLabelKeys

theorem Declared.nil {names : List String} : Declared names ([] : List (Sample V)) := by
  intro s hs
  cases hs

theorem Declared.append {names : List String} {a b : List (Sample V)} (ha : Declared names a)
    (hb : Declared names b) : Declared names (a ++ b) :=
  List.forall_mem_append.mpr ⟨ha, hb⟩

theorem Declared.flatMap {α : Type} {names : List String} {l : List α} {f : α → List (Sample V)}
    (h : ∀ a ∈ l, Declared names (f a)) : Declared names (l.flatMap f) := by
  intro s hs
  obtain ⟨a, ha, hs⟩ := List.mem_flatMap.mp hs
  exact h a ha s hs

theorem Declared.map {α : Type} {names : List String} {l : List α} {f : α → Sample V}
    (h : ∀ a ∈ l, (f a).name ∈ names ∧ ∀ k ∈ (f a).labels.keys, k ∈ emittedLabelKeys) :
    Declared names (l.map f) :=
  List.forall_mem_map.mpr h

theorem keys_insert {labels : Labels} {key value : String} (hkey : key ∈ emittedLabelKeys)
    (h : ∀ k ∈ labels.keys, k ∈ emittedLabelKeys) :
    ∀ k ∈ (labels.insert key value).keys, k ∈ emittedLabelKeys := by
  intro k hk
  rcases SortedMap.mem_keys_insert.mp hk with rfl | hk
  · exact hkey
  · exact h k hk

theorem keys_empty : ∀ k ∈ (SortedMap.empty : Labels).keys, k ∈ emittedLabelKeys := by
  intro k hk
  cases hk

theorem Declared.stampUseCase {names : List String} {samples : List (Sample V)} (slug : String)
    (h : Declared names samples) : Declared names (stampUseCase slug samples) := by
  unfold GenaiBridge.stampUseCase
  by_cases hslug : slug = ""
  · rw [if_pos hslug]
    exact h
  · rw [if_neg hslug]
    refine .map ?_
    intro s hs
    exact ⟨(h s hs).1, keys_insert (by decide) (h s hs).2⟩

/-! ### The analytics loop -/

section

variable [Div V] [OfNat V 1000]

theorem declared_pointSamples {names : List String} {metricPrefix graph : String}
    (hname : nameFor metricPrefix graph ∈ names) (bend : Int) (dp : DataPoint V) :
    Declared names (pointSamples metricPrefix graph bend dp) := by
  unfold pointSamples
  by_cases hlatency : graph = "latency"
  · rw [if_pos hlatency]
    exact .map fun q _ => ⟨hname, keys_insert (by decide) keys_empty⟩
  · rw [if_neg hlatency]
    by_cases htokens : graph = "tokens"
    · rw [if_pos htokens]
      exact .map fun q _ => ⟨hname, keys_insert (by decide) keys_empty⟩
    · rw [if_neg htokens]
      intro s hs
      rw [List.mem_singleton.mp hs]
      exact ⟨hname, keys_empty⟩

theorem declared_deriveGraph {names : List String} {metricPrefix graph : String}
    {since cutoff gran : Int} {startSemantics : Bool} {r : GraphResponse V}
    {out : List (Sample V)} (hname : nameFor metricPrefix graph ∈ names)
    (h : deriveGraph metricPrefix since cutoff gran startSemantics graph r = .ok out) :
    Declared names out := by
  unfold deriveGraph at h
  split at h
  · cases h
  · dsimp only at h
    split at h
    · cases h
    · obtain rfl := Except.ok.inj h
      refine .flatMap ?_
      intro p _
      split
      · exact declared_pointSamples hname _ _
      · exact .nil

theorem declared_deriveGraphs {names : List String} {metricPrefix : String}
    {since cutoff gran : Int} {startSemantics : Bool} :
    ∀ {graphs : List (String × GraphResponse V)} {out : List (Sample V)},
      (∀ g ∈ graphs, nameFor metricPrefix g.1 ∈ names) →
      deriveGraphs metricPrefix since cutoff gran startSemantics graphs = .ok out →
      Declared names out := by
  intro graphs
  induction graphs with
  | nil =>
    intro out _ h
    obtain rfl := Except.ok.inj h
    exact .nil
  | cons g graphs ih =>
    intro out hnames h
    obtain ⟨head, tail, hhead, htail, rfl⟩ := deriveGraphs_cons.mp h
    obtain ⟨hname, hnames⟩ := List.forall_mem_cons.mp hnames
    exact (declared_deriveGraph hname hhead).append (ih hnames htail)

namespace AnalyticsLoop

variable {l : AnalyticsLoop}

theorem PassReturns.declared {env : AnalyticsEnv V} {start until' fetchStart : Int}
    {p : ResolvedUseCase} {out : List (Sample V)}
    (h : l.PassReturns env start until' fetchStart p out) : Declared l.seriesNames out := by
  obtain ⟨resp, samples, hresp, hderive, rfl⟩ := h
  refine Declared.stampUseCase p.slug (declared_deriveGraphs ?_ hderive)
  intro g hg
  have hget := SortedMap.get?_eq_some.mpr hg
  -- only the graphs of the loop were asked for
  rw [get?_fetchGraphs hresp, SortedMap.get?_empty, Option.or_none] at hget
  by_cases hmem : g.1 ∈ l.graphs
  · exact List.mem_map_of_mem hmem
  · rw [if_neg hmem] at hget
    cases hget

variable [BEq V]

theorem declared_collectPasses {env : AnalyticsEnv V} {start until' fetchStart : Int} :
    ∀ {passes : List ResolvedUseCase} {histories : SortedMap String (RevisionHistory V)}
      {all : List (Sample V)},
      (l.collectPasses env start until' fetchStart histories passes).2.2 = .ok all →
      Declared l.seriesNames all := by
  intro passes
  induction passes with
  | nil =>
    intro histories all h
    obtain rfl := Except.ok.inj h
    exact .nil
  | cons p passes ih =>
    intro histories all h
    obtain ⟨histories', out, tail, hout, htail, rfl⟩ := collectPasses_cons h
    exact hout.declared.append (ih htail)

theorem declared_collect {sha256 : String → String} {env : AnalyticsEnv V}
    {st : AnalyticsState V} {since : Watermark} {b : Batch V}
    (h : (l.collect sha256 env st since).result = .ok b) : Declared l.seriesNames b.samples := by
  by_cases hempty : b.samples = []
  · rw [hempty]
    exact .nil
  · obtain ⟨-, histories, hpasses⟩ := collect_samples h hempty
    exact declared_collectPasses hpasses

end AnalyticsLoop

end

/-! ### The groups loop -/

namespace GroupsLoop

variable {l : GroupsLoop}

/-- What the samples of an endpoint need to be declared. -/
structure Covers (l : GroupsLoop) (ep : GroupsEndpoint) : Prop where
  requests : groupMetricName l.metricPrefix "requests" ep.dim ∈ l.seriesNames
  cost : ep.emitCost = true → groupMetricName l.metricPrefix "cost_usd" ep.dim ∈ l.seriesNames
  baseLabels : ∀ k ∈ ep.baseLabels.keys, k ∈ emittedLabelKeys
  valueLabelKey : ep.valueLabelKey ∈ emittedLabelKeys

/-- **`SeriesNames` and `endpoints` agree.** -/
theorem covers_of_mem_endpoints : ∀ ep ∈ l.endpoints, l.Covers ep := by
  intro ep hep
  unfold endpoints at hep
  rcases List.mem_append.mp hep with hep | hep
  · rcases List.mem_append.mp hep with hep | hep
    · obtain rfl := List.mem_singleton.mp hep
      refine ⟨by simp [seriesNames], ?_, keys_empty, by simp [emittedLabelKeys]⟩
      intro hcost
      simp [seriesNames, show l.emitCost = true from hcost]
    · obtain ⟨k, hk, rfl⟩ := List.mem_map.mp hep
      have hsome : l.metadataKeys ≠ [] := List.ne_nil_of_mem hk
      refine ⟨by simp [seriesNames, hsome], ?_, keys_insert (by decide) keys_empty,
        by simp [emittedLabelKeys]⟩
      intro hcost
      simp [seriesNames, hsome, show l.emitCost = true from hcost]
  · by_cases hprompts : l.emitPrompts = true
    · rw [if_pos hprompts] at hep
      obtain rfl := List.mem_singleton.mp hep
      refine ⟨by simp [seriesNames, hprompts], ?_, keys_empty, by simp [emittedLabelKeys]⟩
      intro hcost
      cases hcost
    · rw [if_neg hprompts] at hep
      cases hep

variable [Div V] [OfNat V 100]

theorem Covers.declared_rowSamples {ep : GroupsEndpoint} (h : l.Covers ep) (stamp : Int)
    (r : GroupRow V) : Declared l.seriesNames (rowSamples l.metricPrefix ep stamp r) := by
  have hlabels := @keys_insert _ _ r.dimValue h.valueLabelKey h.baseLabels
  unfold rowSamples
  refine List.forall_mem_cons.mpr ⟨⟨h.requests, hlabels⟩, ?_⟩
  cases r.cost with
  | none => exact Declared.nil
  | some cost =>
    by_cases hcost : ep.emitCost = true
    · dsimp only
      rw [if_pos hcost]
      exact List.forall_mem_singleton.mpr ⟨h.cost hcost, hlabels⟩
    · dsimp only
      rw [if_neg hcost]
      exact Declared.nil

variable [OfNat V 0]

theorem declared_collectEndpoints {env : GroupsEnv V} {from' until' : Int} :
    ∀ {reads : List (ResolvedUseCase × GroupsEndpoint)}, (∀ x ∈ reads, l.Covers x.2) →
      Declared l.seriesNames (l.collectEndpoints env from' until' reads).2.1 := by
  intro reads
  induction reads with
  | nil =>
    intro _
    exact .nil
  | cons x reads ih =>
    intro hreads
    obtain ⟨hx, hreads⟩ := List.forall_mem_cons.mp hreads
    unfold collectEndpoints
    dsimp only
    cases (l.collectEndpoint env x.2 from' until' x.1.apiKeyIDsCSV).rows with
    | none => exact ih hreads
    | some rows =>
      refine Declared.append (Declared.stampUseCase _ (.flatMap ?_)) (ih hreads)
      intro r _
      exact hx.declared_rowSamples _ r

theorem declared_collectSnapshot {sha256 : String → String} {env : GroupsEnv V}
    {scopeVerified : Bool} {since : Watermark} {b : Batch V}
    (h : (l.collectSnapshot sha256 env scopeVerified since).result = .ok b) :
    Declared l.seriesNames b.samples := by
  unfold collectSnapshot at h
  dsimp only at h
  split at h
  · cases h
  · obtain rfl := Except.ok.inj h
    refine declared_collectEndpoints ?_
    intro x hx
    obtain ⟨p, -, hx⟩ := List.mem_flatMap.mp hx
    obtain ⟨ep, hep, rfl⟩ := List.mem_map.mp hx
    exact covers_of_mem_endpoints ep hep

theorem declared_collect {sha256 : String → String} {env : GroupsEnv V} {scopeVerified : Bool}
    {since : Watermark} {b : Batch V}
    (h : (l.collect sha256 env scopeVerified since).result = .ok b) :
    Declared l.seriesNames b.samples := by
  unfold collect at h
  split at h
  · rcases hscope : l.verifyScope env.probe with ⟨events, r⟩
    rw [hscope] at h
    cases r with
    | error e => cases h
    | ok verified => exact @declared_collectSnapshot _ l _ _ _ sha256 env verified since b h
  · exact declared_collectSnapshot h

end GroupsLoop

/-! ### The sessions and usage loops -/

theorem sessionLabelKey_applySnapshotSetting {parseDuration : String → Option Int}
    {cfg cfg' : SnapshotConfig} {k v : String}
    (h : applySnapshotSetting parseDuration cfg k v = some (.ok cfg')) :
    cfg'.sessionLabelKey = cfg.sessionLabelKey := by
  unfold applySnapshotSetting at h
  split at h
  · have h := Option.some.inj h
    split at h
    · cases h
    · obtain rfl := Except.ok.inj h
      rfl
  · obtain rfl := Except.ok.inj (Option.some.inj h)
    rfl
  · have h := Option.some.inj h
    split at h
    · cases h
    · obtain rfl := Except.ok.inj h
      rfl
  · obtain ⟨n, -, rfl⟩ := map_ok.mp (mapError_ok (Option.some.inj h))
    rfl
  · obtain ⟨n, -, rfl⟩ := map_ok.mp (mapError_ok (Option.some.inj h))
    rfl
  · cases h

theorem sessionLabelKey_completeConfig {sc : SourceConfig} {statsWindow cadence : Int}
    {cfg cfg' : SnapshotConfig} (hkey : cfg.sessionLabelKey = "session")
    (h : completeConfig sc statsWindow cadence cfg = .ok cfg') :
    cfg'.sessionLabelKey = "session" := by
  unfold completeConfig at h
  split at h
  · cases h
  · split at h
    · cases h
    · obtain rfl := Except.ok.inj h
      show (if cfg.sessionLabelKey = "" then "session" else cfg.sessionLabelKey) = "session"
      rw [hkey]
      rfl

/-- **The label of a session**, whatever the settings of a loop. -/
theorem sessionLabelKey_foldlM {C : Type} {snapshot : C → SnapshotConfig}
    {step : C → String × String → Except SessionsSettingsError C}
    (hstep : ∀ cfg e cfg', step cfg e = .ok cfg' →
      (snapshot cfg').sessionLabelKey = (snapshot cfg).sessionLabelKey)
    {entries : List (String × String)} {cfg cfg' : C} {sc : SourceConfig}
    {statsWindow cadence : Int} {complete : SnapshotConfig}
    (hinit : (snapshot cfg).sessionLabelKey = "session")
    (hfold : entries.foldlM step cfg = .ok cfg')
    (hcomplete : completeConfig sc statsWindow cadence (snapshot cfg') = .ok complete) :
    complete.sessionLabelKey = "session" := by
  refine sessionLabelKey_completeConfig ?_ hcomplete
  refine Lib.foldlM_invariant (p := fun c => (snapshot c).sessionLabelKey = "session") ?_ hfold hinit
  intro c e c' hc hkey
  exact (hstep c e c' hc).trans hkey

theorem sessionLabelKey_newSessionsLoop {parseDuration : String → Option Int} {sc : SourceConfig}
    {lp : LoopConfig} {l : SessionsLoop} (h : newSessionsLoop parseDuration sc lp = .ok l) :
    l.cfg.snapshot.sessionLabelKey = "session" := by
  obtain ⟨cfg, hfold, h⟩ := bind_ok h
  obtain ⟨snapshot, hsnapshot, h⟩ := bind_ok h
  obtain rfl := Except.ok.inj h
  refine sessionLabelKey_foldlM ?_ rfl hfold hsnapshot
  intro cfg e cfg' hstep
  unfold applySessionsSetting at hstep
  split at hstep
  · rename_i r hr
    obtain ⟨snapshot, rfl, rfl⟩ := map_ok.mp hstep
    exact sessionLabelKey_applySnapshotSetting hr
  · split at hstep
    · obtain ⟨_, -, hstep⟩ := bind_ok hstep
      obtain rfl := Except.ok.inj hstep
      rfl
    · obtain ⟨_, -, hstep⟩ := bind_ok hstep
      obtain rfl := Except.ok.inj hstep
      rfl
    · obtain rfl := Except.ok.inj hstep
      rfl
    · obtain rfl := Except.ok.inj hstep
      rfl

theorem sessionLabelKey_newUsageLoop {parseDuration : String → Option Int} {sc : SourceConfig}
    {lp : LoopConfig} {l : UsageLoop} (h : newUsageLoop parseDuration sc lp = .ok l) :
    l.cfg.snapshot.sessionLabelKey = "session" := by
  obtain ⟨cfg, hfold, h⟩ := bind_ok h
  obtain ⟨snapshot, hsnapshot, h⟩ := bind_ok h
  obtain rfl := Except.ok.inj h
  refine sessionLabelKey_foldlM ?_ rfl hfold hsnapshot
  intro cfg e cfg' hstep
  unfold applyUsageSetting at hstep
  split at hstep
  · rename_i r hr
    obtain ⟨snapshot, rfl, rfl⟩ := map_ok.mp hstep
    exact sessionLabelKey_applySnapshotSetting hr
  · split at hstep
    · obtain ⟨_, -, hstep⟩ := bind_ok hstep
      obtain rfl := Except.ok.inj hstep
      rfl
    · obtain rfl := Except.ok.inj hstep
      rfl

namespace SessionsLoop

variable [IntCast V] {l : SessionsLoop} (hkey : l.cfg.snapshot.sessionLabelKey = "session")
include hkey

section

variable {stamp : Int} {s : TracerSession V} {suffix : String}
  (hsuffix : l.cfg.snapshot.metricPrefix ++ "_" ++ suffix ∈ l.seriesNames)
include hsuffix

omit [IntCast V] in
/-- A gauge of a session, with a suffix that is declared. -/
theorem declared_gauge {extra : Option (String × String)}
    (hextra : ∀ e, extra = some e → e.1 ∈ emittedLabelKeys) (value : V) :
    (l.gauge stamp s suffix extra value).name ∈ l.seriesNames ∧
      ∀ k ∈ (l.gauge stamp s suffix extra value).labels.keys, k ∈ emittedLabelKeys := by
  refine ⟨hsuffix, ?_⟩
  have hsession : l.cfg.snapshot.sessionLabelKey ∈ emittedLabelKeys := by
    rw [hkey]
    decide
  have hlabels := @keys_insert _ _ (s.label (l.cfg.snapshot.sessionLabelValue = "name")) hsession
    keys_empty
  cases extra with
  | none => exact hlabels
  | some e => exact keys_insert (hextra e rfl) hlabels

theorem declared_intGauge (p : Option Int) :
    Declared l.seriesNames (l.intGauge stamp s suffix p) :=
  .map fun n _ => declared_gauge hkey hsuffix (by simp) _

omit [IntCast V] in
theorem declared_floatGauge (p : Option V) :
    Declared l.seriesNames (l.floatGauge stamp s suffix p) :=
  .map fun n _ => declared_gauge hkey hsuffix (by simp) n

omit [IntCast V] in
theorem declared_quantiles (p50 p99 : Option V) :
    Declared l.seriesNames (l.quantiles stamp s suffix p50 p99) := by
  have hlabel : "quantile" ∈ emittedLabelKeys := by decide
  refine .append (.map fun v _ => ?_) (.map fun v _ => ?_)
  · exact declared_gauge hkey hsuffix (by simp [hlabel]) v
  · exact declared_gauge hkey hsuffix (by simp [hlabel]) v

end

theorem declared_feedbackGauges {stamp : Int} {s : TracerSession V} (k : String)
    (fs : FeedbackStat V) : Declared l.seriesNames (l.feedbackGauges stamp s k fs) := by
  have hlabel : "feedback_key" ∈ emittedLabelKeys := by decide
  unfold feedbackGauges
  split
  · exact .nil
  · split
    · exact .nil
    · refine List.forall_mem_cons.mpr ⟨?_, ?_⟩
      · exact declared_gauge hkey (by simp [seriesNames]) (by simp [hlabel]) _
      · refine Declared.map fun n _ => ?_
        exact declared_gauge hkey (by simp [seriesNames]) (by simp [hlabel]) _

/-- **The gauges of a session** are those of `SeriesNames`. -/
theorem declared_sessionSamples (stamp : Int) (s : TracerSession V) :
    Declared l.seriesNames (l.sessionSamples stamp s) := by
  unfold sessionSamples
  refine .append (.append (.append (.append (.append (.append (.append (.append (.append (.append
    (.append ?_ ?_) ?_) ?_) ?_) ?_) ?_) ?_) ?_) ?_) ?_) ?_
  · exact declared_intGauge hkey (by simp [seriesNames]) _
  · exact declared_quantiles hkey (by simp [seriesNames]) _ _
  · exact declared_quantiles hkey (by simp [seriesNames]) _ _
  · exact declared_intGauge hkey (by simp [seriesNames]) _
  · exact declared_intGauge hkey (by simp [seriesNames]) _
  · exact declared_intGauge hkey (by simp [seriesNames]) _
  · exact declared_floatGauge hkey (by simp [seriesNames]) _
  · exact declared_floatGauge hkey (by simp [seriesNames]) _
  · exact declared_floatGauge hkey (by simp [seriesNames]) _
  · exact declared_floatGauge hkey (by simp [seriesNames]) _
  · exact declared_floatGauge hkey (by simp [seriesNames]) _
  · split
    · exact .flatMap fun e _ => declared_feedbackGauges hkey e.1 e.2
    · exact .nil

theorem declared_collect {sha256 : String → String} {env : Env V} {since : Watermark}
    {b : Batch V} (h : (l.collect sha256 env since).2 = .ok b) :
    Declared l.seriesNames b.samples := by
  unfold collect at h
  dsimp only at h
  cases hdrained : (drainSessions TracerSession.id l.cfg.snapshot.pageLimit
      l.cfg.snapshot.maxSessions (env.fetch ∘ l.cfg.snapshot.query env.now l.cfg.useApproxStats)
      0 []).result with
  | error err =>
    rw [hdrained] at h
    cases h
  | ok sessions =>
    rw [hdrained] at h
    obtain rfl := Except.ok.inj h
    exact .flatMap fun s _ => declared_sessionSamples hkey _ s

end SessionsLoop

namespace UsageLoop

variable [IntCast V] {l : UsageLoop} (hkey : l.cfg.snapshot.sessionLabelKey = "session")
include hkey

theorem declared_usageSamples (spans : SortedMap String Int) (stamp : Int) (s : UsageSession) :
    Declared l.seriesNames (l.usageSamples spans stamp s : List (Sample V)) := by
  have hsession : l.cfg.snapshot.sessionLabelKey ∈ emittedLabelKeys := by
    rw [hkey]
    decide
  have htier : "retention_tier" ∈ emittedLabelKeys := by decide
  unfold usageSamples
  refine .append (.map fun n _ => ?_) (.map fun n _ => ?_)
  · exact ⟨by simp [seriesNames], keys_insert htier (keys_insert hsession keys_empty)⟩
  · exact ⟨by simp [seriesNames], keys_insert htier (keys_insert hsession keys_empty)⟩

theorem declared_collect {sha256 : String → String} {env : Env} {since : Watermark}
    {b : Batch V} (h : (l.collect sha256 env since).2 = .ok b) :
    Declared l.seriesNames b.samples := by
  unfold collect at h
  dsimp only at h
  split at h
  · cases h
  · rename_i sessions _
    rcases hcounted : (if l.cfg.emitSpanCounts then
        countSpans (env.spans (l.cfg.snapshot.statsStart env.now)) sessions .empty
        else ([], .ok .empty)) with ⟨events, r⟩
    rw [hcounted] at h
    cases r with
    | error err => cases h
    | ok spans =>
      obtain rfl := Except.ok.inj h
      exact .flatMap fun s _ => declared_usageSamples hkey spans _ s

end UsageLoop

/-! ### All loops -/

section

variable {P : Platform} {cfg : Config} [OfNat V 0] [OfNat V 100] [OfNat V 1000] [Div V] [BEq V]
  [IntCast V]

/-- **What a loop returns is declared.** -/
theorem SampleLoop.declared {l : SampleLoop} (hmade : l.Made P cfg) {b : Batch V}
    (h : l.Returns P.sha256 b) : Declared l.seriesNames b.samples := by
  obtain ⟨sc, -, -, hmade⟩ := hmade
  cases h with
  | analytics l env st since b h => exact AnalyticsLoop.declared_collect h
  | groups l env scopeVerified since b h => exact GroupsLoop.declared_collect h
  | sessions l env since b h =>
    cases hmade with
    | sessions lp l htype hcfg hnew =>
      exact SessionsLoop.declared_collect (sessionLabelKey_newSessionsLoop hnew) h
  | usage l env since b h =>
    cases hmade with
    | usage lp l htype hcfg hnew =>
      exact UsageLoop.declared_collect (sessionLabelKey_newUsageLoop hnew) h

/-- A sample that some call of a loop's `Collect` returns. -/
def Loop.Emits (P : Platform) (cfg : Config) (l : Loop) (s : Sample V) : Prop :=
  ∃ sl : SampleLoop, sl.Made P cfg ∧ l = .metrics (sl.metricLoop P.sha256) ∧
    ∃ b : Batch V, sl.Returns P.sha256 b ∧ s ∈ b.samples

theorem Loop.Emits.declared {l : Loop} {s : Sample V} (h : l.Emits P cfg s) :
    s.name ∈ l.seriesNames ∧ ∀ k ∈ s.labels.keys, k ∈ emittedLabelKeys := by
  obtain ⟨sl, hmade, rfl, b, hb, hs⟩ := h
  exact sl.declared hmade hb s hs

end

/-! ### The ownership check -/

/-- **A series has one owner**, who may own it already. -/
theorem owner_of_validateOwnership : ∀ {series : List (String × String)}
    {owner : SortedMap String String}, validateOwnership owner series = .ok () →
    (∀ e ∈ series, ∀ prev, owner.get? e.1 = some prev → prev = e.2) ∧
    ∀ a ∈ series, ∀ b ∈ series, a.1 = b.1 → a.2 = b.2 := by
  intro series
  induction series with
  | nil =>
    intro owner _
    exact ⟨fun e he => absurd he List.not_mem_nil, fun a ha => absurd ha List.not_mem_nil⟩
  | cons e series ih =>
    intro owner h
    have hstep : (∀ prev, owner.get? e.1 = some prev → prev = e.2) ∧
        validateOwnership (owner.insert e.1 e.2) series = .ok () := by
      unfold validateOwnership at h
      cases hget : owner.get? e.1 with
      | none =>
        rw [hget] at h
        exact ⟨fun prev hprev => (Option.some_ne_none _ hprev.symm).elim, h⟩
      | some prev =>
        rw [hget] at h
        dsimp only at h
        by_cases hprev : prev ≠ e.2
        · rw [if_pos hprev] at h
          cases h
        · rw [if_neg hprev] at h
          refine ⟨?_, h⟩
          intro prev' hprev'
          rw [← Option.some.inj hprev']
          exact not_not.mp hprev
    obtain ⟨hhead, hrest⟩ := hstep
    obtain ⟨hold, hsame⟩ := ih hrest
    have hfirst : ∀ x ∈ series, x.1 = e.1 → e.2 = x.2 := by
      intro x hx heq
      refine hold x hx e.2 ?_
      rw [heq, SortedMap.get?_insert_self]
    refine ⟨List.forall_mem_cons.mpr ⟨hhead, ?_⟩, ?_⟩
    · intro x hx prev hprev
      by_cases heq : x.1 = e.1
      · rw [heq] at hprev
        exact (hhead prev hprev).trans (hfirst x hx heq)
      · refine hold x hx prev ?_
        rwa [SortedMap.get?_insert_of_ne _ _ heq]
    · intro a ha b hb heq
      rcases List.mem_cons.mp ha with rfl | harest
      · rcases List.mem_cons.mp hb with rfl | hbrest
        · rfl
        · exact hfirst b hbrest heq.symm
      · rcases List.mem_cons.mp hb with rfl | hbrest
        · exact (hfirst a harest heq).symm
        · exact hsame a harest b hbrest heq

/-! ### The guard -/

theorem guard_of_emittedLabelKeys {P : Platform} {cfg : Config} {app : App}
    (h : Built P cfg app) : ∀ k ∈ emittedLabelKeys,
      app.guard.allow k = true ∧ app.guard.deny k = false ∧ isContentFloorKey k = false := by
  intro k hk
  have hfixed : ∀ k ∈ emittedLabelKeys,
      k ∈ portkeyAllowedLabelKeys ++ langsmithAllowedLabelKeys ∧
      (contentDenylist []).contains k = false ∧ isContentFloorKey k = false := by decide
  obtain ⟨hallow, hdeny, hfloor⟩ := hfixed k hk
  rw [h.guard]
  refine ⟨?_, hdeny, hfloor⟩
  show (allowKeys cfg).contains k = true
  rw [List.contains_iff_mem]
  exact List.mem_eraseDups.mpr (List.mem_append_left _ hallow)

/-- A sample whose keys pass is dropped for the budget alone. -/
theorem Guard.budget_of_not_ok {g : Guard} {s : Sample V}
    (hkeys : ∀ k ∈ s.labels.keys, g.allow k = true ∧ g.deny k = false ∧
      isContentFloorKey k = false) (h : (g.ok s).1 = false) :
    0 < g.budget ∧ labelSig s.labels ∉ g.seen s.name ∧ g.budget ≤ (g.seen s.name).card := by
  have hpass : ¬(s.labels.keys.any
      fun k => g.deny k || isContentFloorKey k || !g.allow k) = true := by
    intro hany
    obtain ⟨k, hk, hrefused⟩ := List.any_eq_true.mp hany
    obtain ⟨hallow, hdeny, hfloor⟩ := hkeys k hk
    simp [hallow, hdeny, hfloor] at hrefused
  unfold Guard.ok at h
  rw [if_neg hpass] at h
  unfold Guard.withinBudget at h
  by_cases hoff : g.budget ≤ 0
  · rw [if_pos hoff] at h
    cases h
  · rw [if_neg hoff] at h
    by_cases hknown : labelSig s.labels ∈ g.seen s.name
    · rw [if_pos hknown] at h
      cases h
    · rw [if_neg hknown] at h
      by_cases hspent : g.budget ≤ (g.seen s.name).card
      · exact ⟨by omega, hknown, hspent⟩
      · rw [if_neg hspent] at h
        cases h

/-! ### At run time -/

section

variable {P : Platform} {cfg : Config} {app : App}

theorem LoopsOf.string_ne (h : LoopsOf P cfg app) : app.loops.Pairwise fun a b =>
    ∀ m m', a.loop = .metrics m → b.loop = .metrics m' →
      (a.loop.key P.sha256).string ≠ (b.loop.key P.sha256).string := by
  refine h.apart.imp_of_mem ?_
  intro a b ha hb hapart m m' hm hm' heq
  obtain ⟨hinst, hloop⟩ := h.slash a ha
  obtain ⟨hinst', hloop'⟩ := h.slash b hb
  have hkeys := key_string_inj heq hinst hinst' hloop hloop'
  cases hapart with
  | place hplace =>
    rw [hkeys] at hplace
    rcases hplace with hplace | hplace
    · exact hplace rfl
    · exact hplace rfl
  | useCase e e' hea =>
    rw [hm] at hea
    cases hea

variable [OfNat V 0] [OfNat V 100] [OfNat V 1000] [Div V] [BEq V] [IntCast V]

/-- **Series ownership holds at run time.**  Every loop that emits samples is among the loops that
were checked; its samples have names it declares and label keys the guard lets through; no two
loops emit one series, as the gateway names it; and the guard drops a sample for its cardinality
only. -/
theorem series_owned_at_run_time (h : build P (metricLoops P) cfg = .ok app) :
    (∀ m, (∃ l ∈ app.loops, l.loop = .metrics m) ↔
      ∃ sl : SampleLoop, sl.Made P cfg ∧ m = sl.metricLoop P.sha256) ∧
    (∀ sl : SampleLoop, sl.Made P cfg → ∀ b : Batch V, sl.Returns P.sha256 b → ∀ s ∈ b.samples,
      s.name ∈ sl.seriesNames ∧ ∀ k ∈ s.labels.keys,
        app.guard.allow k = true ∧ app.guard.deny k = false ∧ isContentFloorKey k = false) ∧
    (app.loops.Pairwise fun l l' => ∀ s s' : Sample V, l.loop.Emits P cfg s →
      l'.loop.Emits P cfg s' →
        normalizeSeriesName P.toLower s.name ≠ normalizeSeriesName P.toLower s'.name) ∧
    ∀ l ∈ app.loops, ∀ s : Sample V, l.loop.Emits P cfg s → ∀ seen newLabelValues,
      let g := { app.guard with seen, newLabelValues }
      (g.ok s).1 = false →
        0 < g.budget ∧ labelSig s.labels ∉ seen s.name ∧ g.budget ≤ (seen s.name).card := by
  have hloops := loopsOf_build h
  have hkeys := guard_of_emittedLabelKeys (built_of_build h)
  obtain ⟨-, -, -, howned, -⟩ := build_ok h
  obtain ⟨-, hsame⟩ := owner_of_validateOwnership howned
  refine ⟨hloops.made, ?_, ?_, ?_⟩
  · intro sl hmade b hb s hs
    obtain ⟨hname, hlabels⟩ := sl.declared hmade hb s hs
    exact ⟨hname, fun k hk => hkeys k (hlabels k hk)⟩
  · refine hloops.string_ne.imp_of_mem ?_
    intro l l' hl hl' hne s s' hs hs' heq
    have hmem : ∀ x ∈ app.loops, ∀ t : Sample V, x.loop.Emits P cfg t →
        (normalizeSeriesName P.toLower t.name, (x.loop.key P.sha256).string) ∈
          app.loops.flatMap fun l => l.loop.seriesNames.map fun n =>
            (normalizeSeriesName P.toLower n, (l.loop.key P.sha256).string) := by
      intro x hx t ht
      exact List.mem_flatMap.mpr ⟨x, hx, List.mem_map.mpr ⟨t.name, ht.declared.1, rfl⟩⟩
    have howner := hsame _ (hmem l hl s hs) _ (hmem l' hl' s' hs') heq
    obtain ⟨sl, -, hm, -⟩ := hs
    obtain ⟨sl', -, hm', -⟩ := hs'
    exact hne _ _ hm hm' howner
  · intro l _ s hs seen newLabelValues g hdropped
    exact Guard.budget_of_not_ok (fun k hk => hkeys k (hs.declared.2 k hk)) hdropped

end

/-- A source with a sessions and a usage loop. -/
def snapshotConfig : Config :=
  { exportConfig .empty with
    sources := (exportConfig .empty).sources.map fun sc => { sc with
      type := "langsmith", sourceInstance := "langsmith", authHeader := "x-api-key"
      loops := (SortedMap.empty.insert "sessions"
        { LoopConfig.zero with enabled := true, cadence := minute }).insert "usage"
        { LoopConfig.zero with enabled := true, cadence := minute } } }

/-- Its usage loop. -/
def snapshotUsage : UsageLoop :=
  { sourceInstance := "langsmith"
    cfg := { snapshot :=
      { metricPrefix := "langsmith", cadence := minute, statsWindow := 10 * minute } } }

theorem made_snapshotUsage :
    (SampleLoop.usage snapshotUsage).Made plainPlatform snapshotConfig := by
  refine ⟨_, List.mem_singleton_self _, rfl, ?_⟩
  refine .usage { LoopConfig.zero with enabled := true, cadence := minute } _ rfl ?_ ?_
  · rfl
  · decide +kernel

/-- An API with one session. -/
def oneSession : UsageLoop.Env :=
  { now := 0, fetch := fun q => .page (if q.offset = 0 then [⟨"s1", "chat", some 3, ""⟩] else [])
    spans := fun _ _ => .count (some 7) }

theorem series_owned_at_run_time_usage :
    ∃ app, build plainPlatform (metricLoops plainPlatform) snapshotConfig = .ok app ∧
      app.loops.map (fun l => (l.loop.key id).loop) = ["sessions", "usage"] ∧
      ∃ b : Batch Int, (snapshotUsage.collect id oneSession {}).2 = .ok b ∧
        b.samples.map (·.name) = ["langsmith_usage_traces", "langsmith_usage_spans"] ∧
        ∀ s ∈ b.samples, s.name ∈ snapshotUsage.seriesNames ∧ ∀ k ∈ s.labels.keys,
          app.guard.allow k = true ∧ app.guard.deny k = false ∧ isContentFloorKey k = false := by
  have hfacts : (build plainPlatform (metricLoops plainPlatform) snapshotConfig).toOption.map
      (fun app => app.loops.map (fun l => (l.loop.key id).loop)) =
      some ["sessions", "usage"] := by decide +kernel
  have hnames : (snapshotUsage.collect (V := Int) id oneSession {}).2.toOption.map
      (fun b => b.samples.map (·.name)) =
      some ["langsmith_usage_traces", "langsmith_usage_spans"] := by decide +kernel
  obtain ⟨app, hbuild, hloops⟩ := ok_of_toOption_map hfacts
  obtain ⟨b, hb, hnames⟩ := ok_of_toOption_map hnames
  refine ⟨app, hbuild, hloops, b, hb, hnames, ?_⟩
  exact (series_owned_at_run_time hbuild).2.1 _ made_snapshotUsage b
    (.usage snapshotUsage oneSession {} b hb)

end GenaiBridge
