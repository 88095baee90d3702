/-
What `Build` makes of an accepted configuration.

Every logs loop comes from an enabled source, and no other source shares its instance, so
the guard holds, under the loop's own key, the denylist of the loop's own settings.  A
stripped record passes its key checks as long as the keys the operator named do.
-/
import GenaiBridge.Bridge.App
import GenaiBridge.Proofs.Budget
import GenaiBridge.Proofs.NonInterference

namespace GenaiBridge

open Lib (Json SortedMap bind_ok mapError_ok mem_of_mapM_ok ok_of_toOption_map)

/-! ### The sources -/

/-- The instances of the enabled sources hold no slash, and none is there twice. -/
theorem nodup_instances {overflow : Int} {loopbackURL : String → Bool} {known : List String} :
    ∀ {sources : List SourceConfig} {seen : List String},
      validateSources overflow loopbackURL known seen sources = [] →
      (∀ s ∈ sources, s.enabled = true →
        '/' ∉ s.sourceInstance.toList ∧ s.sourceInstance ∉ seen) ∧
      ((sources.filter (·.enabled)).map (·.sourceInstance)).Nodup := by
  intro sources
  induction sources with
  | nil =>
    intro seen _
    exact ⟨fun s hs => absurd hs List.not_mem_nil, List.nodup_nil⟩
  | cons s sources ih =>
    intro seen h
    unfold validateSources at h
    by_cases hen : s.enabled = true
    · rw [if_neg (by simp [hen])] at h
      obtain ⟨hs, hrest⟩ := List.append_eq_nil_iff.mp h
      obtain ⟨hinst, hnodup⟩ := ih hrest
      simp only [SourceConfig.validate, List.append_eq_nil_iff, ite_eq_right_iff,
        reduceCtorEq, imp_false] at hs
      have hslash : '/' ∉ s.sourceInstance.toList := by tauto
      have hseen : s.sourceInstance ∉ seen := by tauto
      refine ⟨List.forall_mem_cons.mpr ⟨fun _ => ⟨hslash, hseen⟩, ?_⟩, ?_⟩
      · intro t ht hen'
        obtain ⟨hno, hnot⟩ := hinst t ht hen'
        exact ⟨hno, fun hmem => hnot (List.mem_append_left _ hmem)⟩
      · rw [List.filter_cons_of_pos hen, List.map_cons, List.nodup_cons]
        refine ⟨?_, hnodup⟩
        intro hmem
        obtain ⟨t, ht, heq⟩ := List.mem_map.mp hmem
        obtain ⟨ht, hen'⟩ := List.mem_filter.mp ht
        exact (hinst t ht hen').2 (by simp [heq])
    · rw [if_pos (by simpa using hen)] at h
      obtain ⟨hinst, hnodup⟩ := ih h
      refine ⟨List.forall_mem_cons.mpr ⟨fun hen' => absurd hen' hen, hinst⟩, ?_⟩
      rwa [List.filter_cons_of_neg hen]

/-- The instances of the enabled sources are distinct, and hold no slash. -/
theorem instances_of_validateSources {overflow : Int} {loopbackURL : String → Bool}
    {known seen : List String} {sources : List SourceConfig}
    (h : validateSources overflow loopbackURL known seen sources = []) :
    (∀ s ∈ sources, s.enabled = true → '/' ∉ s.sourceInstance.toList ∧ s.sourceInstance ∉ seen) ∧
    ∀ s ∈ sources, ∀ s' ∈ sources, s.enabled = true → s'.enabled = true →
      s.sourceInstance = s'.sourceInstance → s = s' := by
  obtain ⟨hinst, hnodup⟩ := nodup_instances h
  refine ⟨hinst, ?_⟩
  intro s hs s' hs' hen hen' heq
  exact List.inj_on_of_nodup_map hnodup (List.mem_filter.mpr ⟨hs, hen⟩)
    (List.mem_filter.mpr ⟨hs', hen'⟩) heq

/-! ### The loops of a source -/

variable {P : Platform} {M : MetricLoops}

/-- How a logs loop was constructed from its configuration. -/
inductive Constructed (P : Platform) (sc : SourceConfig) (lc : LoopConfig) : Loop → Prop
  | logsExport (l : LogsExportLoop RawRecord) (uc : ResolvedUseCase)
      (hcfg : sc.enabledLoop "logs_export" = some lc)
      (hnew : newLogsExportLoop P.parseDuration sc.sourceInstance sc.allowPrivate lc uc
        (fun ls => (logFieldPolicy ls uc).linePolicy P.unmarshal) = .ok l) :
      Constructed P sc lc (.logsExport l)
  | runs (l : RunsLoop) (hcfg : sc.enabledLoop "runs" = some lc)
      (hnew : newRunsLoop P.parseDuration sc.sourceInstance lc = .ok l) :
      Constructed P sc lc (.runs l)

private theorem optionalLoop_ok {lp : Option LoopConfig}
    {build : LoopConfig → Except SourceError (List Loop)} {loops : List Loop}
    (h : optionalLoop lp build = .ok loops) {l : Loop} (hl : l ∈ loops) :
    ∃ lc, lp = some lc ∧ build lc = .ok loops := by
  cases lp with
  | none =>
    cases h
    cases hl
  | some lc => exact ⟨lc, rfl, h⟩

private theorem not_metrics {l : Loop} {loops : List Loop}
    {new : LoopConfig → Except SourceError MetricLoop} {lp : Option LoopConfig}
    (h : optionalLoop lp (fun lc => new lc >>= fun m => pure [.metrics m]) = .ok loops)
    (hlogs : l.indexedKeys.isSome) : l ∉ loops := by
  intro hl
  obtain ⟨lc, -, h⟩ := optionalLoop_ok h hl
  obtain ⟨m, -, h⟩ := bind_ok h
  cases h
  obtain rfl := List.mem_singleton.mp hl
  cases hlogs

theorem constructed_of_newPortkey {sc : SourceConfig} {loops : List Loop}
    (h : newPortkey P M sc = .ok loops) {l : Loop} (hl : l ∈ loops)
    (hlogs : l.indexedKeys.isSome) : ∃ lc, Constructed P sc lc l := by
  unfold newPortkey at h
  split at h
  · cases h
    cases hl
  · obtain ⟨ucs, -, h⟩ := bind_ok h
    obtain ⟨analytics, hanalytics, h⟩ := bind_ok h
    obtain ⟨groups, hgroups, h⟩ := bind_ok h
    obtain ⟨logs, hlogsExport, h⟩ := bind_ok h
    cases h
    rcases List.mem_append.mp hl with hl | hl
    · rcases List.mem_append.mp hl with hl | hl
      · obtain ⟨lc, -, hbuild⟩ := optionalLoop_ok hanalytics hl
        obtain ⟨m, -, hbuild⟩ := bind_ok hbuild
        cases hbuild
        obtain rfl := List.mem_singleton.mp hl
        cases hlogs
      · exact absurd hl (not_metrics hgroups hlogs)
    · obtain ⟨lc, hcfg, hbuild⟩ := optionalLoop_ok hlogsExport hl
      obtain ⟨uc, -, huc⟩ := mem_of_mapM_ok hbuild l hl
      obtain ⟨e, hnew, he⟩ := bind_ok huc
      cases he
      exact ⟨lc, .logsExport e uc hcfg (mapError_ok hnew)⟩

theorem constructed_of_newLangsmith {sc : SourceConfig} {loops : List Loop}
    (h : newLangsmith P M sc = .ok loops) {l : Loop} (hl : l ∈ loops)
    (hlogs : l.indexedKeys.isSome) : ∃ lc, Constructed P sc lc l := by
  unfold newLangsmith at h
  split at h
  · cases h
    cases hl
  · obtain ⟨_, -, h⟩ := bind_ok h
    obtain ⟨_, -, h⟩ := bind_ok h
    obtain ⟨sessions, hsessions, h⟩ := bind_ok h
    obtain ⟨runs, hruns, h⟩ := bind_ok h
    obtain ⟨usage, husage, h⟩ := bind_ok h
    cases h
    rcases List.mem_append.mp hl with hl | hl
    · rcases List.mem_append.mp hl with hl | hl
      · exact absurd hl (not_metrics hsessions hlogs)
      · obtain ⟨lc, hcfg, hbuild⟩ := optionalLoop_ok hruns hl
        obtain ⟨r, hnew, hbuild⟩ := bind_ok hbuild
        cases hbuild
        obtain rfl := List.mem_singleton.mp hl
        exact ⟨lc, .runs r hcfg (mapError_ok hnew)⟩
    · exact absurd hl (not_metrics husage hlogs)

/-! ### The loops that are built -/

theorem sourceInstance_newLogsExportLoop {R : Type} {parseDuration : String → Option Int}
    {sourceInstance : String} {allowPrivate : Bool} {lp : LoopConfig} {uc : ResolvedUseCase}
    {policy : LogsSettings → LinePolicy R} {l : LogsExportLoop R}
    (h : newLogsExportLoop parseDuration sourceInstance allowPrivate lp uc policy = .ok l) :
    l.sourceInstance = sourceInstance := by
  unfold newLogsExportLoop at h
  split at h
  · cases h
  · obtain ⟨ls, -, h⟩ := bind_ok h
    cases h
    rfl

theorem sourceInstance_newRunsLoop {parseDuration : String → Option Int}
    {sourceInstance : String} {lp : LoopConfig} {l : RunsLoop}
    (h : newRunsLoop parseDuration sourceInstance lp = .ok l) :
    l.sourceInstance = sourceInstance := by
  unfold newRunsLoop at h
  split at h
  · cases h
  · obtain ⟨rs, -, h⟩ := bind_ok h
    cases h
    rfl

theorem Constructed.key {sc : SourceConfig} {lc : LoopConfig} {l : Loop}
    (h : Constructed P sc lc l) :
    (l.key P.sha256).sourceInstance = sc.sourceInstance ∧
      '/' ∉ (l.key P.sha256).loop.toList ∧
      sc.enabledLoop (l.key P.sha256).loop = some lc := by
  cases h with
  | logsExport e uc hcfg hnew =>
    have hslash : '/' ∉ "logs_export".toList := by decide
    exact ⟨sourceInstance_newLogsExportLoop hnew, hslash, hcfg⟩
  | runs r hcfg hnew =>
    have hslash : '/' ∉ "runs".toList := by decide
    exact ⟨sourceInstance_newRunsLoop hnew, hslash, hcfg⟩

private theorem constructed_of_buildLoops {cfg : Config} {sc : SourceConfig}
    {loops : List LoopConfigured} (h : buildLoops P M cfg sc = .ok loops) {l : LoopConfigured}
    (hl : l ∈ loops) (hlogs : l.loop.indexedKeys.isSome) : Constructed P sc l.cfg l.loop := by
  obtain ⟨built, hbuilt, h⟩ := bind_ok h
  dsimp only at h
  split at h
  · cases h
  · obtain ⟨lp, hlp, hl⟩ := mem_of_mapM_ok h l hl
    obtain ⟨_, -, hl⟩ := bind_ok hl
    cases hl
    have hsource : ∃ lc, Constructed P sc lc lp := by
      have hsrc := mapError_ok hbuilt
      unfold buildSource at hsrc
      split at hsrc
      · exact constructed_of_newPortkey hsrc hlp hlogs
      · split at hsrc
        · exact constructed_of_newLangsmith hsrc hlp hlogs
        · cases hsrc
    obtain ⟨lc, hconstructed⟩ := hsource
    obtain ⟨hget, -⟩ := Option.filter_eq_some_iff.mp hconstructed.key.2.2
    simpa [hget] using hconstructed

/-- What an accepted configuration has passed, and what is made of it. -/
structure Built (P : Platform) (cfg : Config) (app : App) : Prop where
  valid : cfg.validate P.overflow P.loopbackURL knownTypes = []
  promoted : ∀ k ∈ operatorPromoted cfg, isContentFloorKey k = false
  constructed : ∀ l ∈ app.loops, l.loop.indexedKeys.isSome →
    ∃ sc ∈ cfg.sources, sc.enabled = true ∧ Constructed P sc l.cfg l.loop
  guard : app.guard = newGuard
    { allowLabelKeys := allowKeys cfg
      denyFieldKeys := contentDenylist []
      denyFieldKeysByLoop := contentDenyByLoop P.sha256 app.loops
      perSeriesBudget := cfg.governance.perMetricCardinalityBudget }

theorem build_ok {cfg : Config} {app : App} (h : build P M cfg = .ok app) :
    cfg.validate P.overflow P.loopbackURL knownTypes = [] ∧
    (∀ k ∈ operatorPromoted cfg, isContentFloorKey k = false) ∧
    (∃ perSource, (cfg.sources.filter (·.enabled)).mapM (buildLoops P M cfg) = .ok perSource ∧
      app.loops = perSource.flatten) ∧
    validateOwnership .empty (app.loops.flatMap fun l => l.loop.seriesNames.map fun n =>
      (normalizeSeriesName P.toLower n, (l.loop.key P.sha256).string)) = .ok () ∧
    app.guard = newGuard
      { allowLabelKeys := allowKeys cfg
        denyFieldKeys := contentDenylist []
        denyFieldKeysByLoop := contentDenyByLoop P.sha256 app.loops
        perSeriesBudget := cfg.governance.perMetricCardinalityBudget } := by
  unfold build at h
  dsimp only at h
  split at h
  · cases h
  · rename_i hvalid
    split at h
    · cases h
    · rename_i hpromoted
      obtain ⟨perSource, hsources, h⟩ := bind_ok h
      obtain ⟨_, howned, h⟩ := bind_ok h
      split at h
      · cases h
      · cases h
        refine ⟨by simpa using hvalid, ?_, ⟨perSource, hsources, rfl⟩, howned, rfl⟩
        have hnone := Option.eq_none_iff_forall_ne_some.mpr hpromoted
        simpa using hnone

theorem built_of_build {cfg : Config} {app : App} (h : build P M cfg = .ok app) :
    Built P cfg app := by
  obtain ⟨hvalid, hpromoted, ⟨perSource, hsources, hloops⟩, -, hguard⟩ := build_ok h
  refine ⟨hvalid, hpromoted, ?_, hguard⟩
  intro l hl hlogs
  rw [hloops] at hl
  obtain ⟨loops, hmem, hl⟩ := List.mem_flatten.mp hl
  obtain ⟨sc, hsc, hbuild⟩ := mem_of_mapM_ok hsources loops hmem
  obtain ⟨hsc, hen⟩ := List.mem_filter.mp hsc
  exact ⟨sc, hsc, hen, constructed_of_buildLoops hbuild hl hlogs⟩

/-! ### The guard -/

theorem key_string_inj {k k' : CheckpointKey} (h : k.string = k'.string)
    (hi : '/' ∉ k.sourceInstance.toList) (hi' : '/' ∉ k'.sourceInstance.toList)
    (hl : '/' ∉ k.loop.toList) (hl' : '/' ∉ k'.loop.toList) : k = k' := by
  have htext := congrArg String.toList h
  simp only [CheckpointKey.string, String.toList_append, List.append_assoc] at htext
  obtain ⟨hinst, hrest⟩ := Lib.append_separator_inj hi hi' htext
  obtain ⟨hloop, hprint⟩ := Lib.append_separator_inj hl hl' hrest
  cases k
  cases k'
  exact CheckpointKey.mk.injEq .. ▸ ⟨String.toList_inj.mp hinst, String.toList_inj.mp hloop,
    String.toList_inj.mp hprint⟩

/-- Logs loops with one key text have one configuration. -/
theorem Built.cfg_eq {cfg : Config} {app : App} (h : Built P cfg app) {l l' : LoopConfigured}
    (hl : l ∈ app.loops) (hl' : l' ∈ app.loops) (hlogs : l.loop.indexedKeys.isSome)
    (hlogs' : l'.loop.indexedKeys.isSome)
    (hkey : (l.loop.key P.sha256).string = (l'.loop.key P.sha256).string) : l.cfg = l'.cfg := by
  obtain ⟨sc, hsc, hen, hc⟩ := h.constructed l hl hlogs
  obtain ⟨sc', hsc', hen', hc'⟩ := h.constructed l' hl' hlogs'
  obtain ⟨hinst, hslash, hcfg⟩ := hc.key
  obtain ⟨hinst', hslash', hcfg'⟩ := hc'.key
  obtain ⟨-, hsources⟩ := List.append_eq_nil_iff.mp h.valid
  obtain ⟨hno, hdistinct⟩ := instances_of_validateSources hsources
  have hkeys := key_string_inj hkey (hinst ▸ (hno sc hsc hen).1)
    (hinst' ▸ (hno sc' hsc' hen').1) hslash hslash'
  rw [hkeys] at hinst hcfg
  obtain rfl := hdistinct sc hsc sc' hsc' hen hen' (hinst.symm.trans hinst')
  rw [hcfg'] at hcfg
  exact (Option.some.inj hcfg).symm

/-- **A logs loop is guarded by its own denylist.** -/
theorem Built.denyByLoop {cfg : Config} {app : App} (h : Built P cfg app) {l : LoopConfigured}
    (hl : l ∈ app.loops) (hlogs : l.loop.indexedKeys.isSome) :
    app.guard.denyByLoop (l.loop.key P.sha256).string =
      some fun k => (contentDenylist (optedInContentFieldsForLoop l.cfg)).contains k := by
  have hget : (contentDenyByLoop P.sha256 app.loops).get? (l.loop.key P.sha256).string =
      some (contentDenylist (optedInContentFieldsForLoop l.cfg)) := by
    refine SortedMap.get?_foldl_insert (fun x hx hkey => ?_) _
      (Or.inr ⟨l, List.mem_filter.mpr ⟨hl, hlogs⟩, rfl⟩)
    obtain ⟨hx, hxlogs⟩ := List.mem_filter.mp hx
    rw [h.cfg_eq hx hl hxlogs hlogs hkey]
  rw [h.guard]
  show Option.map _ _ = _
  rw [hget]
  rfl

/-- A key that a loop's denylist and the content floor let through. -/
def LoopConfig.Passes (lc : LoopConfig) (k : String) : Prop :=
  isContentFloorKey k = false ∧ (k ∈ grayBackstopDenyKeys → k ∈ optedInContentFieldsForLoop lc)

private theorem passes_iff {lc : LoopConfig} {k : String} :
    ((contentDenylist (optedInContentFieldsForLoop lc)).contains k || isContentFloorKey k) = false ↔
      lc.Passes k := by
  have hfloor : k ∈ absoluteNeverDenyKeys → isContentFloorKey k = true := by
    intro hk
    simp [isContentFloorKey, hk]
  unfold contentDenylist LoopConfig.Passes
  simp only [Bool.or_eq_false_iff, List.contains_eq_mem, List.mem_append, List.mem_filter,
    decide_eq_false_iff_not, decide_eq_true_eq, not_or, not_and, not_not]
  constructor
  · rintro ⟨⟨-, hgray⟩, hk⟩
    exact ⟨hk, hgray⟩
  · rintro ⟨hk, hgray⟩
    exact ⟨⟨fun hmem => by simp [hfloor hmem] at hk, hgray⟩, hk⟩

theorem Built.keysOk_iff {V : Type} {cfg : Config} {app : App} (h : Built P cfg app)
    {l : LoopConfigured} (hl : l ∈ app.loops) (hlogs : l.loop.indexedKeys.isSome)
    (lr : LogRecord) :
    app.guard.keysOk (.record (l.loop.key P.sha256).string lr : GuardItem V) = true ↔
      (∀ k ∈ lr.indexedAttributes.keys ++ lr.recordAttributes.keys, l.cfg.Passes k) ∧
      ∀ k ∈ lr.indexedAttributes.keys, k ∈ allowKeys cfg := by
  unfold Guard.keysOk
  dsimp only
  rw [h.denyByLoop hl hlogs, h.guard]
  simp only [Option.getD_some, Bool.and_eq_true, Bool.not_eq_true', List.any_eq_false,
    Bool.not_eq_true, passes_iff, newGuard]
  simp

/-! ### The keys a loop may emit -/

private theorem elim_splitCSV (o : Option String) : o.elim [] splitCSV = splitCSV (o.getD "") := by
  cases o with
  | none => decide
  | some v => rfl

private theorem opted_of_setting {lc : LoopConfig} {knob k : String}
    (hknob : knob ∈ ["extra_record_fields", "extra_indexed_fields", "metadata_record_fields"])
    (hk : k ∈ lc.settingFields knob) : k ∈ optedInContentFieldsForLoop lc :=
  List.mem_flatMap.mpr ⟨knob, hknob, hk⟩

/-- The fields that the enabled loops promote to labels. -/
theorem mem_optedInIndexedFields {cfg : Config} {k : String} :
    k ∈ optedInIndexedFields cfg ↔ ∃ sc ∈ cfg.sources, sc.enabled = true ∧
      ∃ name lc, sc.enabledLoop name = some lc ∧ k ∈ lc.settingFields "extra_indexed_fields" := by
  unfold optedInIndexedFields
  rw [List.mem_eraseDups, List.mem_flatMap]
  constructor
  · rintro ⟨sc, hsc, hk⟩
    obtain ⟨hsc, hen⟩ := List.mem_filter.mp hsc
    obtain ⟨⟨name, lc⟩, he, hk⟩ := List.mem_flatMap.mp hk
    obtain ⟨he, hlc⟩ := List.mem_filter.mp he
    exact ⟨sc, hsc, hen, name, lc,
      Option.filter_eq_some_iff.mpr ⟨SortedMap.get?_eq_some.mpr he, hlc⟩, hk⟩
  · rintro ⟨sc, hsc, hen, name, lc, hcfg, hk⟩
    obtain ⟨hget, hlc⟩ := Option.filter_eq_some_iff.mp hcfg
    refine ⟨sc, List.mem_filter.mpr ⟨hsc, hen⟩, ?_⟩
    exact List.mem_flatMap.mpr
      ⟨(name, lc), List.mem_filter.mpr ⟨SortedMap.get?_eq_some.mp hget, hlc⟩, hk⟩

private theorem Built.pass_promoted {cfg : Config} {app : App} (h : Built P cfg app)
    {sc : SourceConfig} {lc : LoopConfig} {name k : String} (hsc : sc ∈ cfg.sources)
    (hen : sc.enabled = true) (hcfg : sc.enabledLoop name = some lc)
    (hk : k ∈ lc.settingFields "extra_indexed_fields") : lc.Passes k ∧ k ∈ allowKeys cfg := by
  have hpromoted : k ∈ operatorPromoted cfg := List.mem_append_right _
    (mem_optedInIndexedFields.mpr ⟨sc, hsc, hen, name, lc, hcfg, hk⟩)
  exact ⟨⟨h.promoted k hpromoted, fun _ => opted_of_setting (by simp) hk⟩,
    List.mem_eraseDups.mpr (List.mem_append_right _ hpromoted)⟩

private theorem passes_of_free {k : String}
    (h : isContentFloorKey k = false ∧ k ∉ grayBackstopDenyKeys) (lc : LoopConfig) : lc.Passes k :=
  ⟨h.1, fun hk => absurd hk h.2⟩

/-! ### The log export -/

/-- What a log export that is made has of its settings and its use case. -/
theorem newLogsExportLoop_ok {R : Type} {parseDuration : String → Option Int}
    {sourceInstance : String} {allowPrivate : Bool} {lp : LoopConfig} {uc : ResolvedUseCase}
    {policy : LogsSettings → LinePolicy R} {l : LogsExportLoop R}
    (h : newLogsExportLoop parseDuration sourceInstance allowPrivate lp uc policy = .ok l) :
    ∃ ls, applyLogsSettings parseDuration defaultLogsSettings lp.settings = .ok ls ∧
      validateLogsSettings ls = .ok () ∧ l.downloader.policy = policy ls ∧ l.useCase = uc.slug ∧
      l.indexed = (defaultIndexedFields ++ ls.extraIndexedFields).dedup := by
  unfold newLogsExportLoop at h
  split at h
  · cases h
  · obtain ⟨ls, hls, h⟩ := bind_ok h
    obtain ⟨applied, -, hvalid⟩ := bind_ok hls
    obtain ⟨_, hvalid, happlied⟩ := bind_ok hvalid
    cases happlied
    cases h
    exact ⟨ls, hls, hvalid, rfl, rfl, rfl⟩

/-- The trace id fields a configuration names. -/
def LoopConfig.traceFields (lc : LoopConfig) : List String :=
  [(lc.settings.get? "trace_id_field").getD "",
    (lc.settings.get? "metadata_trace_id_field").getD ""].filter (· ≠ "")

/-- The record attributes a configuration of the log export names. -/
def LoopConfig.namedRecordFields (lc : LoopConfig) : List String :=
  lc.settingFields "extra_record_fields" ++ lc.settingFields "metadata_record_fields" ++
    lc.traceFields

/-- Every key that the operator names for the record attributes passes the loop's own checks. -/
def LoopConfig.Released (lc : LoopConfig) : Prop := ∀ k ∈ lc.namedRecordFields, lc.Passes k

section

variable {parseDuration : String → Option Int} {ls : LogsSettings} {lc : LoopConfig} {k : String}

private theorem record_of_settings
    (h : applyLogsSettings parseDuration defaultLogsSettings lc.settings = .ok ls)
    (hk : (k ∈ defaultRecordFields ∨ k ∈ ls.extraRecordFields ∨
        k ∈ [ls.traceIDField].filter (· ≠ "")) ∨
      k ∈ ls.metadataKeys ∨ k = sourceAttrKey ∨ k = useCaseLabelKey) :
    k ∈ defaultRecordFields ++ ["cache_status", sourceAttrKey, useCaseLabelKey] ∨
      k ∈ lc.namedRecordFields := by
  obtain ⟨hrecord, -, hmeta, hmetaTrace, htrace⟩ := names_applyLogsSettings h
  unfold LogsSettings.metadataKeys at hk
  rw [hrecord, htrace, hmeta, hmetaTrace, elim_splitCSV] at hk
  unfold LoopConfig.namedRecordFields LoopConfig.traceFields LoopConfig.settingFields
  cases hset : lc.settings.get? "extra_record_fields" <;>
    cases htr : lc.settings.get? "trace_id_field" <;>
    cases hmt : lc.settings.get? "metadata_trace_id_field" <;>
    simp_all <;> tauto

private theorem settings_of_named
    (h : applyLogsSettings parseDuration defaultLogsSettings lc.settings = .ok ls)
    (hk : k ∈ lc.namedRecordFields) :
    (k ∈ ls.extraRecordFields ∨ k ∈ [ls.traceIDField].filter (· ≠ "")) ∨ k ∈ ls.metadataKeys := by
  obtain ⟨hrecord, -, hmeta, hmetaTrace, htrace⟩ := names_applyLogsSettings h
  unfold LogsSettings.metadataKeys
  rw [hrecord, htrace, hmeta, hmetaTrace, elim_splitCSV]
  unfold LoopConfig.namedRecordFields LoopConfig.traceFields LoopConfig.settingFields at hk
  have hempty : splitCSV "" = [] := by decide
  cases hset : lc.settings.get? "extra_record_fields" <;>
    cases htr : lc.settings.get? "trace_id_field" <;>
    cases hmt : lc.settings.get? "metadata_trace_id_field" <;>
    simp_all <;> tauto

end

namespace FieldPolicy

private theorem mem_keys_of_record {p : FieldPolicy} {k : String} (hrecord : k ∈ p.record)
    (hindexed : k ∉ p.indexed) :
    k ∈ (p.strip (SortedMap.empty.insert k (.str [])) 0).recordAttributes.keys := by
  refine SortedMap.mem_keys.mpr ?_
  rw [get?_recordAttributes_strip, SortedMap.get?_insert_self]
  split_ifs
  · exact ⟨_, rfl⟩
  · exact ⟨_, rfl⟩
  · exact ⟨_, by simp [tierValue, recordTier, hrecord, hindexed, scalarValue]; rfl⟩

private theorem mem_keys_of_member {p : FieldPolicy} {k : String} (hnamed : k ∈ p.metadataRecord)
    (hden : k ∉ hardDeniedLogFields) :
    k ∈ (p.strip (SortedMap.empty.insert "metadata"
      (.obj [(Json.quote k.toList, .str [])])) 0).recordAttributes.keys := by
  have hmember : metadataField (SortedMap.empty.insert "metadata"
      (.obj [(Json.quote k.toList, .str [])])) k = some (.str []) := by
    unfold metadataField
    rw [SortedMap.get?_insert_self]
    simp only [Option.bind_some, unmarshalRaw, Json.members, Option.map_some, rawMembers,
      List.foldl_cons, List.foldl_nil, Json.unquote_quote, String.ofList_toList]
    exact SortedMap.get?_insert_self ..
  refine SortedMap.mem_keys.mpr ?_
  rw [get?_recordAttributes_strip]
  split_ifs
  · exact ⟨_, rfl⟩
  · exact ⟨_, rfl⟩
  · have hvalue : memberValue (metadataField (SortedMap.empty.insert "metadata"
        (.obj [(Json.quote k.toList, .str [])]))) p.metadataRecord k =
          some (String.ofList (Json.unquote [])) := by
      simp [memberValue, hnamed, hden, hmember, scalarValue]
    rw [hvalue]
    exact Option.isSome_iff_exists.mp (by simp)

end FieldPolicy

/-- **The records of a log export pass** exactly when the keys the operator names for the record
attributes do. -/
theorem Built.export_passes_iff {V : Type} {cfg : Config} {app : App} (h : Built P cfg app)
    {l : LoopConfigured} (hl : l ∈ app.loops) {e : LogsExportLoop RawRecord}
    (he : l.loop = .logsExport e) :
    (∀ raw fallbackTS, app.guard.keysOk (.record (l.loop.key P.sha256).string
      (e.downloader.policy.strip raw fallbackTS) : GuardItem V) = true) ↔ l.cfg.Released := by
  have hlogs : l.loop.indexedKeys.isSome := by rw [he]; rfl
  obtain ⟨sc, hsc, hen, hc⟩ := h.constructed l hl hlogs
  rw [he] at hc
  cases hc with
  | logsExport e uc hcfg hnew =>
    obtain ⟨ls, happly, hvalid, hpolicy, -⟩ := newLogsExportLoop_ok hnew
    have hclean := clean_of_validateLogsSettings hvalid
    obtain ⟨-, hextra, -⟩ := names_applyLogsSettings happly
    rw [elim_splitCSV] at hextra
    have hindexed : ∀ k, k ∈ defaultIndexedFields ∨ k ∈ ls.extraIndexedFields →
        l.cfg.Passes k ∧ k ∈ allowKeys cfg := by
      intro k hk
      rcases hk with hk | hk
      · have hfree : ∀ k ∈ defaultIndexedFields, (isContentFloorKey k = false ∧
            k ∉ grayBackstopDenyKeys) ∧ k ∈ portkeyAllowedLabelKeys := by decide
        obtain ⟨hfree, hallow⟩ := hfree k hk
        exact ⟨passes_of_free hfree _, List.mem_eraseDups.mpr
          (List.mem_append_left _ (List.mem_append_left _ hallow))⟩
      · rw [hextra] at hk
        exact h.pass_promoted hsc hen hcfg hk
    constructor
    · intro hpass k hk
      -- an indexed field passes anyway, any other one can be emitted as a record attribute
      by_cases hi : k ∈ (logFieldPolicy ls uc).indexed
      · exact (hindexed k ((mem_indexed_logFieldPolicy ls uc).mp hi)).1
      · have hemitted : ∃ raw, k ∈
            ((logFieldPolicy ls uc).strip raw 0).recordAttributes.keys := by
          rcases settings_of_named happly hk with hk | hk
          · exact ⟨_, FieldPolicy.mem_keys_of_record
              ((mem_record_logFieldPolicy ls uc).mpr (Or.inr hk)) hi⟩
          · exact ⟨_, FieldPolicy.mem_keys_of_member
              ((mem_metadataRecord_logFieldPolicy ls uc).mpr hk) (hclean.metadataKeys k hk)⟩
        obtain ⟨raw, hkey⟩ := hemitted
        have hok := hpass raw 0
        rw [hpolicy] at hok
        exact ((h.keysOk_iff hl hlogs _).mp hok).1 k (List.mem_append_right _ hkey)
    · intro hreleased raw fallbackTS
      rw [h.keysOk_iff hl hlogs, hpolicy]
      show (∀ k ∈ ((logFieldPolicy ls uc).strip raw fallbackTS).indexedAttributes.keys ++
        ((logFieldPolicy ls uc).strip raw fallbackTS).recordAttributes.keys, _) ∧ _
      refine ⟨fun k hk => ?_, fun k hk => ?_⟩
      · rcases List.mem_append.mp hk with hk | hk
        · obtain ⟨entry, hentry, rfl⟩ := List.mem_map.mp hk
          exact (hindexed _ (indexed_of_strip hentry).1).1
        · obtain ⟨entry, hentry, rfl⟩ := List.mem_map.mp hk
          have hfree : ∀ k ∈ defaultRecordFields ++ ["cache_status", sourceAttrKey,
              useCaseLabelKey], isContentFloorKey k = false ∧ k ∉ grayBackstopDenyKeys := by
            decide
          have hsettings := record_of_settings happly
            ((record_of_strip hentry).1.imp id fun hk => hk.imp And.left id)
          exact hsettings.elim (fun hk => passes_of_free (hfree _ hk) _) (hreleased _)
      · obtain ⟨entry, hentry, rfl⟩ := List.mem_map.mp hk
        exact (hindexed _ (indexed_of_strip hentry).1).2

/-! ### The runs -/

/-- **The records of a runs loop pass.** -/
theorem Built.runs_pass {V : Type} {cfg : Config} {app : App} (h : Built P cfg app)
    {l : LoopConfigured} (hl : l ∈ app.loops) {r : RunsLoop} (hr : l.loop = .runs r)
    (raw : RawRecord) (fallbackTS : Int) :
    app.guard.keysOk (.record (l.loop.key P.sha256).string
      (r.policy.strip raw fallbackTS) : GuardItem V) = true := by
  have hlogs : l.loop.indexedKeys.isSome := by rw [hr]; rfl
  obtain ⟨sc, hsc, hen, hc⟩ := h.constructed l hl hlogs
  rw [hr] at hc
  cases hc with
  | runs r hcfg hnew =>
    obtain ⟨rs, happly, -, hvalid, -, -, -, -, hpolicy⟩ := newRunsLoop_ok hnew
    obtain ⟨hrecord, hindexed⟩ := names_applyRunsSettings happly
    rw [elim_splitCSV] at hindexed
    have hdefault : ∀ k ∈ defaultRunsFieldPolicy.indexed ++ defaultRunsFieldPolicy.record ++
        defaultRunsSettings.extraRecordFields ++ [sourceAttrKey],
        isContentFloorKey k = false ∧ k ∉ grayBackstopDenyKeys := by decide
    have hselect : ∀ k ∈ validLangsmithSelectEnum, k ∉ hardDeniedRunsFields →
        isContentFloorKey k = false := by decide
    have hallow : ∀ k ∈ defaultRunsFieldPolicy.indexed, k ∈ langsmithAllowedLabelKeys := by decide
    have hi : ∀ k ∈ (r.policy.strip raw fallbackTS).indexedAttributes.keys,
        l.cfg.Passes k ∧ k ∈ allowKeys cfg := by
      intro k hk
      obtain ⟨v, hv⟩ := SortedMap.mem_keys.mp hk
      rw [hpolicy, RunsFieldPolicy.get?_indexedAttributes_strip] at hv
      have hkeep := (tierValue_eq_some hv).1
      rcases (mem_indexed_runsFieldPolicy rs).mp (of_decide_eq_true hkeep) with hk | hk
      · refine ⟨passes_of_free (hdefault k ?_) _, List.mem_eraseDups.mpr
          (List.mem_append_left _ (List.mem_append_right _ (hallow k hk)))⟩
        simp [hk]
      · rw [hindexed] at hk
        exact h.pass_promoted hsc hen hcfg hk
    rw [h.keysOk_iff hl hlogs]
    refine ⟨fun k hk => ?_, fun k hk => (hi k hk).2⟩
    rcases List.mem_append.mp hk with hk | hk
    · exact (hi k hk).1
    · obtain ⟨v, hv⟩ := SortedMap.mem_keys.mp hk
      rw [hpolicy, RunsFieldPolicy.get?_recordAttributes_strip] at hv
      by_cases hsource : k = sourceAttrKey
      · exact passes_of_free (hdefault k (by simp [hsource])) _
      · rw [if_neg hsource] at hv
        have hkeep := (of_decide_eq_true (tierValue_eq_some hv).1).2
        rcases (mem_record_runsFieldPolicy rs).mp hkeep with hk | hk
        · exact passes_of_free (hdefault k (by simp [hk])) _
        · have hfloor := hselect k (hvalid.record_select k hk) (hvalid.record_denied k hk)
          rw [hrecord] at hk
          cases hset : l.cfg.settings.get? "extra_record_fields" with
          | none =>
            rw [hset] at hk
            exact passes_of_free (hdefault k (by simp [show k ∈
              defaultRunsSettings.extraRecordFields from hk])) _
          | some v =>
            rw [hset] at hk
            refine ⟨hfloor, fun _ => @opted_of_setting _ "extra_record_fields" _ (by simp) ?_⟩
            simpa [LoopConfig.settingFields, hset] using hk

/-! ### All loops -/

/-- **No logs loop of an accepted configuration has its records refused for their keys**, exactly
when each configuration of a log export releases the keys it names. -/
theorem built_records_pass_iff {V : Type} {cfg : Config} {app : App}
    (h : build P M cfg = .ok app) :
    (∀ l ∈ app.loops, ∀ strip, l.loop.strip = some strip → ∀ raw fallbackTS,
      app.guard.keysOk (.record (l.loop.key P.sha256).string
        (strip raw fallbackTS) : GuardItem V) = true) ↔
    ∀ l ∈ app.loops, ∀ e, l.loop = .logsExport e → l.cfg.Released := by
  have hbuilt := built_of_build h
  constructor
  · intro hpass l hl e he
    refine (hbuilt.export_passes_iff (V := V) hl he).mp (hpass l hl _ ?_)
    rw [he]
    rfl
  · intro hreleased l hl strip hstrip raw fallbackTS
    cases hloop : l.loop with
    | metrics m =>
      rw [hloop] at hstrip
      cases hstrip
    | logsExport e =>
      rw [hloop] at hstrip
      cases hstrip
      rw [← hloop]
      exact (hbuilt.export_passes_iff hl hloop).mpr (hreleased l hl e hloop) raw fallbackTS
    | runs r =>
      rw [hloop] at hstrip
      cases hstrip
      rw [← hloop]
      exact hbuilt.runs_pass hl hloop raw fallbackTS

/-- A platform for the configurations below. -/
def plainPlatform : Platform :=
  { parseDuration := fun _ => none, sha256 := id, toLower := id, loopbackURL := fun _ => false
    overflow := 0, unmarshal := fun _ => none }

/-- No loop that emits samples can be built. -/
def noMetricLoops : MetricLoops :=
  { newGroupsLoop := fun _ _ _ => .error "", newSessionsLoop := fun _ _ => .error ""
    newUsageLoop := fun _ _ => .error "" }

/-- One source with a log export of the given settings. -/
def exportConfig (settings : SortedMap String String) : Config :=
  { emitWorkers := 1
    governance :=
      { perMetricCardinalityBudget := 10000, maxDPM := 1, maxCatchupPerTick := 1
        maxStreamLabelKeys := 15 }
    identity := { serviceNamespace := "bridge", deploymentEnvironment := "prod" }
    sources := [{
      type := "portkey", enabled := true, sourceInstance := "portkey", baseURL := "https://api"
      authHeader := "x-portkey-api-key", authValue := "key", allowPrivate := false, rps := 1
      burst := 3
      loops := SortedMap.empty.insert "logs_export" { LoopConfig.zero with
        enabled := true, cadence := minute, settings } }] }

/-- The settings a log export needs. -/
def requiredSettings : SortedMap String String :=
  (SortedMap.empty.insert "signed_url_allow_hosts" "objects").insert "workspace_id" "ws"

/-- What the guard says about a record, loop by loop. -/
def verdictsOf (cfg : Config) (raw : RawRecord) : Option (List (Option Bool)) :=
  (build plainPlatform noMetricLoops cfg).toOption.map fun app =>
    app.loops.map fun l => l.loop.strip.map fun strip =>
      (app.guard.okLog (l.loop.key plainPlatform.sha256).string (strip raw 0)).1

theorem flattened_content_key_refused :
    verdictsOf
      (exportConfig (requiredSettings.insert "extra_record_fields" "gen_ai.prompt.0.content"))
      (SortedMap.empty.insert "gen_ai.prompt.0.content" (.str "text".toList)) =
        some [some false] ∧
    verdictsOf (exportConfig (requiredSettings.insert "trace_id_field" "name"))
      (SortedMap.empty.insert "name" (.str "text".toList)) = some [some false] := by
  decide +kernel

theorem built_records_pass_required :
    ∃ app, build plainPlatform noMetricLoops (exportConfig requiredSettings) = .ok app ∧
      app.loops.length = 1 ∧
      ∀ l ∈ app.loops, ∀ strip, l.loop.strip = some strip → ∀ raw fallbackTS,
        app.guard.keysOk (.record (l.loop.key plainPlatform.sha256).string
          (strip raw fallbackTS) : GuardItem Nat) = true := by
  have hloops : (build plainPlatform noMetricLoops (exportConfig requiredSettings)).toOption.map
      (fun app => app.loops.map fun l => l.cfg.namedRecordFields) = some [[]] := by
    decide +kernel
  obtain ⟨app, hbuild, hnamed⟩ := ok_of_toOption_map hloops
  refine ⟨app, hbuild, by simpa using congrArg List.length hnamed, ?_⟩
  refine (built_records_pass_iff hbuild).mpr fun l hl e _ k hk => ?_
  have hl := List.mem_map_of_mem (f := fun l : LoopConfigured => l.cfg.namedRecordFields) hl
  rw [hnamed, List.mem_singleton] at hl
  rw [hl] at hk
  cases hk

end GenaiBridge
