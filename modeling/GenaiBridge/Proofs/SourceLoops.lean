/-
The loops that the sources of an accepted configuration make.

The instances of the sources are distinct, and a source makes one loop of each name, but
for the log export, which it makes once for each use case.  So any two loops differ in
the instance, in the name of the loop, or in the slug of their use cases.
-/
import GenaiBridge.Bridge.SampleLoops
import GenaiBridge.Proofs.AnalyticsBatch
import GenaiBridge.Proofs.App

namespace GenaiBridge

open Lib (bind_ok mapError_ok mapError_bind_ok mem_of_mapM_ok)

/-! ### Slugs -/

/-- The texts of slugs. -/
structure IsSlug (s : String) : Prop where
  nonempty : s ≠ ""
  chars : ∀ c ∈ s.toList, isSlugChar c = true ∨ c = '_'

theorem isSlug_of_slugifyUseCase {label slug : String} (h : slugifyUseCase label = .ok slug) :
    IsSlug slug := by
  rw [slugifyUseCase_eq] at h
  by_cases hempty : slugOf label = ""
  · rw [if_pos hempty] at h
    cases h
  · rw [if_neg hempty] at h
    obtain rfl := Except.ok.inj h
    obtain ⟨ws, -, hws, hslug⟩ := slugForm_slugOf hempty
    refine ⟨hempty, fun c hc => ?_⟩
    rcases Lib.mem_join (hslug ▸ hc) with rfl | ⟨w, hw, hmem⟩
    · exact .inr rfl
    · exact .inl ((hws w hw).all c hmem)

/-! ### The loops of a source -/

/-- What tells two loops apart: where they belong, or the use case of a log export. -/
inductive Loop.Apart (sha256 : String → String) (a b : Loop) : Prop
  | place (h : (a.key sha256).sourceInstance ≠ (b.key sha256).sourceInstance ∨
      (a.key sha256).loop ≠ (b.key sha256).loop) : Apart sha256 a b
  | useCase (e e' : LogsExportLoop RawRecord) (ha : a = .logsExport e) (hb : b = .logsExport e')
      (hindexed : e.indexed = e'.indexed) (hslug : IsSlug e.useCase) (hslug' : IsSlug e'.useCase)
      (hne : e.useCase ≠ e'.useCase) : Apart sha256 a b

/-- The loops of one name of a source. -/
structure NamedLoops (sha256 : String → String) (sourceInstance name : String)
    (loops : List Loop) : Prop where
  key : ∀ l ∈ loops, (l.key sha256).sourceInstance = sourceInstance ∧ (l.key sha256).loop = name
  apart : loops.Pairwise (Loop.Apart sha256)

/-- The loops that a source makes. -/
structure SourceLoops (P : Platform) (sc : SourceConfig) (loops : List Loop) : Prop where
  sourceInstance : ∀ l ∈ loops, (l.key P.sha256).sourceInstance = sc.sourceInstance
  slash : ∀ l ∈ loops, '/' ∉ (l.key P.sha256).loop.toList
  apart : loops.Pairwise (Loop.Apart P.sha256)
  made : ∀ m, .metrics m ∈ loops ↔ ∃ l : SampleLoop, l.MadeFrom P sc ∧ m = l.metricLoop P.sha256

variable {P : Platform}

theorem NamedLoops.empty {sourceInstance name : String} :
    NamedLoops P.sha256 sourceInstance name [] :=
  ⟨fun _ hl => absurd hl List.not_mem_nil, List.Pairwise.nil⟩

theorem NamedLoops.single {sourceInstance name : String} {l : Loop}
    (hinst : (l.key P.sha256).sourceInstance = sourceInstance)
    (hname : (l.key P.sha256).loop = name) : NamedLoops P.sha256 sourceInstance name [l] := by
  refine ⟨?_, List.pairwise_singleton _ _⟩
  intro l' hl'
  rw [List.mem_singleton.mp hl']
  exact ⟨hinst, hname⟩

theorem NamedLoops.disjoint {sourceInstance name name' : String} {loops loops' : List Loop}
    (h : NamedLoops P.sha256 sourceInstance name loops)
    (h' : NamedLoops P.sha256 sourceInstance name' loops') (hne : name ≠ name') :
    ∀ a ∈ loops, ∀ b ∈ loops', a.Apart P.sha256 b := by
  intro a ha b hb
  refine .place (Or.inr ?_)
  rw [(h.key a ha).2, (h'.key b hb).2]
  exact hne

/-- **Loops of three names** are those of a source. -/
theorem NamedLoops.source {sc : SourceConfig} {n₁ n₂ n₃ : String} {l₁ l₂ l₃ : List Loop}
    (h₁ : NamedLoops P.sha256 sc.sourceInstance n₁ l₁)
    (h₂ : NamedLoops P.sha256 sc.sourceInstance n₂ l₂)
    (h₃ : NamedLoops P.sha256 sc.sourceInstance n₃ l₃)
    (hslash : ∀ n ∈ [n₁, n₂, n₃], '/' ∉ n.toList) (hne : [n₁, n₂, n₃].Nodup)
    (hmade : ∀ m, .metrics m ∈ l₁ ++ l₂ ++ l₃ ↔
      ∃ l : SampleLoop, l.MadeFrom P sc ∧ m = l.metricLoop P.sha256) :
    SourceLoops P sc (l₁ ++ l₂ ++ l₃) := by
  have hkey : ∀ l ∈ l₁ ++ l₂ ++ l₃, (l.key P.sha256).sourceInstance = sc.sourceInstance ∧
      (l.key P.sha256).loop ∈ [n₁, n₂, n₃] := by
    intro l hl
    rcases List.mem_append.mp hl with hl | hl
    · rcases List.mem_append.mp hl with hl | hl
      · exact ⟨(h₁.key l hl).1, by simp [(h₁.key l hl).2]⟩
      · exact ⟨(h₂.key l hl).1, by simp [(h₂.key l hl).2]⟩
    · exact ⟨(h₃.key l hl).1, by simp [(h₃.key l hl).2]⟩
  simp only [List.nodup_cons, List.mem_cons, List.not_mem_nil, or_false, not_or] at hne
  obtain ⟨⟨h12, h13⟩, h23, -⟩ := hne
  refine ⟨fun l hl => (hkey l hl).1, fun l hl => hslash _ (hkey l hl).2, ?_, hmade⟩
  refine List.pairwise_append.mpr ⟨?_, h₃.apart, ?_⟩
  · exact List.pairwise_append.mpr ⟨h₁.apart, h₂.apart, h₁.disjoint h₂ h12⟩
  · intro a ha b hb
    rcases List.mem_append.mp ha with ha | ha
    · exact h₁.disjoint h₃ h13 a ha b hb
    · exact h₂.disjoint h₃ h23 a ha b hb

/-- A loop that is made if its configuration is enabled. -/
theorem namedLoops_optional {α : Type} {lp : Option LoopConfig}
    {new : LoopConfig → Except SourceError α} {f : α → Loop} {loops : List Loop}
    {sourceInstance name : String}
    (h : optionalLoop lp (fun lc => new lc >>= fun a => pure [f a]) = .ok loops)
    (hkey : ∀ lc a, new lc = .ok a → ((f a).key P.sha256).sourceInstance = sourceInstance ∧
      ((f a).key P.sha256).loop = name) :
    NamedLoops P.sha256 sourceInstance name loops ∧
      ∀ x, x ∈ loops ↔ ∃ lc a, lp = some lc ∧ new lc = .ok a ∧ x = f a := by
  cases lp with
  | none =>
    obtain rfl := Except.ok.inj h
    exact ⟨.empty, by simp⟩
  | some lc =>
    obtain ⟨a, ha, hloops⟩ := bind_ok h
    obtain rfl := Except.ok.inj hloops
    refine ⟨.single (hkey lc a ha).1 (hkey lc a ha).2, ?_⟩
    intro x
    rw [List.mem_singleton]
    constructor
    · intro hx
      exact ⟨lc, a, rfl, ha, hx⟩
    · rintro ⟨lc', a', hlc, ha', hx⟩
      obtain rfl := Option.some.inj hlc
      rw [ha] at ha'
      rw [hx, Except.ok.inj ha']

/-! ### Portkey -/

theorem sourceInstance_newAnalyticsLoop {sourceInstance : String} {lp : LoopConfig}
    {ucs : List ResolvedUseCase} {l : AnalyticsLoop}
    (h : newAnalyticsLoop sourceInstance lp ucs = .ok l) : l.sourceInstance = sourceInstance := by
  unfold newAnalyticsLoop at h
  dsimp only at h
  split at h
  · cases h
  · split at h
    · cases h
    · split_ifs at h
      all_goals
        obtain rfl := Except.ok.inj h
        rfl

theorem newGroupsLoop_ok {sc : SourceConfig} {lp : LoopConfig} {ucs : List ResolvedUseCase}
    {m : MetricLoop} : (metricLoops P).newGroupsLoop sc lp ucs = .ok m ↔
      ∃ l, newGroupsLoop P.parseDuration sc.sourceInstance lp ucs = .ok l ∧
        m = (SampleLoop.groups l).metricLoop P.sha256 :=
  mapError_bind_ok

theorem sourceInstance_newGroupsLoop {parseDuration : String → Option Int} {sourceInstance : String}
    {lp : LoopConfig} {ucs : List ResolvedUseCase} {l : GroupsLoop}
    (h : newGroupsLoop parseDuration sourceInstance lp ucs = .ok l) :
    l.sourceInstance = sourceInstance := by
  obtain ⟨gs, -, h⟩ := bind_ok h
  obtain rfl := Except.ok.inj h
  rfl

/-- **The fan-out of the log export**: its loops differ in their slugs. -/
theorem namedLoops_export {sc : SourceConfig} {ucs : List ResolvedUseCase}
    (hucs : resolveUseCases sc = .ok ucs) {loops : List Loop}
    (h : optionalLoop (sc.enabledLoop "logs_export") (fun lp =>
      (if ucs = [] then [⟨"", ""⟩] else ucs).mapM fun uc => do
        let l ← (newLogsExportLoop P.parseDuration sc.sourceInstance sc.allowPrivate lp uc
          fun ls => (logFieldPolicy ls uc).linePolicy P.unmarshal).mapError .logsExport
        return .logsExport l) = .ok loops) :
    NamedLoops P.sha256 sc.sourceInstance "logs_export" loops ∧
      ∀ l ∈ loops, ∃ e, l = .logsExport e := by
  cases hlp : sc.enabledLoop "logs_export" with
  | none =>
    rw [hlp] at h
    obtain rfl := Except.ok.inj h
    exact ⟨.empty, by simp⟩
  | some lp =>
    rw [hlp] at h
    have hpasses : (if ucs = [] then [⟨"", ""⟩] else ucs).Pairwise fun p q : ResolvedUseCase =>
        IsSlug p.slug ∧ IsSlug q.slug ∧ p.slug ≠ q.slug := by
      by_cases hnone : ucs = []
      · rw [if_pos hnone]
        exact List.pairwise_singleton _ _
      · rw [if_neg hnone]
        obtain ⟨hpair, hslugs⟩ := resolveUseCases_slugs hucs
        refine hpair.imp_of_mem ?_
        intro p q hp hq hne
        obtain ⟨label, hlabel⟩ := hslugs p hp
        obtain ⟨label', hlabel'⟩ := hslugs q hq
        exact ⟨isSlug_of_slugifyUseCase hlabel, isSlug_of_slugifyUseCase hlabel', hne⟩
    have hmade : ∀ (uc : ResolvedUseCase) (l : Loop), (do
        let l ← (newLogsExportLoop P.parseDuration sc.sourceInstance sc.allowPrivate lp uc
          fun ls => (logFieldPolicy ls uc).linePolicy P.unmarshal).mapError
            SourceError.logsExport
        return Loop.logsExport l) = .ok l →
        ∃ e ls, l = .logsExport e ∧ e.sourceInstance = sc.sourceInstance ∧ e.useCase = uc.slug ∧
          applyLogsSettings P.parseDuration defaultLogsSettings lp.settings = .ok ls ∧
          e.indexed = (defaultIndexedFields ++ ls.extraIndexedFields).dedup := by
      intro uc l hl
      obtain ⟨e, he, hl⟩ := bind_ok hl
      obtain ⟨ls, hls, -, -, huse, hindexed⟩ := newLogsExportLoop_ok (mapError_ok he)
      exact ⟨e, ls, (Except.ok.inj hl).symm, sourceInstance_newLogsExportLoop (mapError_ok he),
        huse, hls, hindexed⟩
    have hall := Lib.forall₂_of_mapM_ok h
    refine ⟨⟨?_, ?_⟩, ?_⟩
    · intro l hl
      obtain ⟨uc, -, huc⟩ := mem_of_mapM_ok h l hl
      obtain ⟨e, ls, rfl, hinst, -⟩ := hmade uc l huc
      exact ⟨hinst, rfl⟩
    · refine Lib.pairwise_of_forall₂ ?_ hall hpasses
      intro uc a uc' b ha hb hslugs
      obtain ⟨hslug, hslug', hne⟩ := hslugs
      obtain ⟨e, ls, rfl, -, huse, hls, hindexed⟩ := hmade uc a ha
      obtain ⟨e', ls', rfl, -, huse', hls', hindexed'⟩ := hmade uc' b hb
      rw [hls] at hls'
      obtain rfl := Except.ok.inj hls'
      exact .useCase e e' rfl rfl (hindexed.trans hindexed'.symm) (huse ▸ hslug) (huse' ▸ hslug')
        (by rwa [huse, huse'])
    · intro l hl
      obtain ⟨uc, -, huc⟩ := mem_of_mapM_ok h l hl
      obtain ⟨e, ls, rfl, -⟩ := hmade uc l huc
      exact ⟨e, rfl⟩

theorem sourceLoops_of_newPortkey {sc : SourceConfig} (htype : sc.type = "portkey")
    {loops : List Loop} (h : newPortkey P (metricLoops P) sc = .ok loops) :
    SourceLoops P sc loops := by
  have hnames : ∀ n ∈ ["analytics", "groups", "logs_export"], '/' ∉ n.toList := by decide
  have hne : ["analytics", "groups", "logs_export"].Nodup := by decide
  unfold newPortkey at h
  by_cases hoff : (sc.enabledLoop "analytics").isNone ∧ (sc.enabledLoop "groups").isNone ∧
      (sc.enabledLoop "logs_export").isNone
  · rw [if_pos hoff] at h
    obtain rfl := Except.ok.inj h
    refine NamedLoops.source .empty .empty .empty hnames hne ?_
    intro m
    refine iff_of_false (by simp) ?_
    rintro ⟨l, hmade, -⟩
    cases hmade with
    | analytics lp ucs l htype hcfg => simp [hcfg] at hoff
    | groups lp ucs l htype hcfg => simp [hcfg] at hoff
    | sessions lp l htype' => simp [htype] at htype'
    | usage lp l htype' => simp [htype] at htype'
  · rw [if_neg hoff] at h
    obtain ⟨ucs, hucs, h⟩ := bind_ok h
    obtain ⟨analytics, hanalytics, h⟩ := bind_ok h
    obtain ⟨groups, hgroups, h⟩ := bind_ok h
    obtain ⟨logs, hlogs, h⟩ := bind_ok h
    obtain rfl := Except.ok.inj h
    have hucs := mapError_ok hucs
    obtain ⟨hnamed₁, hmem₁⟩ := @namedLoops_optional P _ _ _
      (fun l : AnalyticsLoop => .metrics ⟨l.key P.sha256, l.seriesNames⟩) _ sc.sourceInstance
      "analytics" hanalytics
      fun lc l hl => ⟨sourceInstance_newAnalyticsLoop (mapError_ok hl), rfl⟩
    obtain ⟨hnamed₂, hmem₂⟩ := @namedLoops_optional P _ _ _ Loop.metrics _ sc.sourceInstance
      "groups" hgroups (by
        intro lc m hm
        obtain ⟨l, hl, rfl⟩ := newGroupsLoop_ok.mp (mapError_ok hm)
        exact ⟨sourceInstance_newGroupsLoop hl, rfl⟩)
    obtain ⟨hnamed₃, hexport⟩ := namedLoops_export hucs hlogs
    refine NamedLoops.source hnamed₁ hnamed₂ hnamed₃ hnames hne ?_
    intro m
    rw [List.mem_append, List.mem_append, hmem₁, hmem₂]
    constructor
    · rintro ((⟨lc, l, hcfg, hl, hm⟩ | ⟨lc, m', hcfg, hm', hm⟩) | hm)
      · obtain rfl := Loop.metrics.inj hm
        exact ⟨.analytics l, .analytics lc ucs l htype hcfg hucs (mapError_ok hl), rfl⟩
      · obtain rfl := Loop.metrics.inj hm
        obtain ⟨l, hl, rfl⟩ := newGroupsLoop_ok.mp (mapError_ok hm')
        exact ⟨.groups l, .groups lc ucs l htype hcfg hucs hl, rfl⟩
      · obtain ⟨e, he⟩ := hexport _ hm
        cases he
    · rintro ⟨l, hmade, rfl⟩
      cases hmade with
      | analytics lp ucs' l htype hcfg hucs' hnew =>
        rw [hucs] at hucs'
        obtain rfl := Except.ok.inj hucs'
        exact Or.inl (Or.inl ⟨lp, l, hcfg, by rw [hnew]; rfl, rfl⟩)
      | groups lp ucs' l htype hcfg hucs' hnew =>
        rw [hucs] at hucs'
        obtain rfl := Except.ok.inj hucs'
        exact Or.inl (Or.inr ⟨lp, _, hcfg, by rw [newGroupsLoop_ok.mpr ⟨l, hnew, rfl⟩]; rfl, rfl⟩)
      | sessions lp l htype' => simp [htype] at htype'
      | usage lp l htype' => simp [htype] at htype'

/-! ### LangSmith -/

theorem newSessionsLoop_ok {sc : SourceConfig} {lp : LoopConfig} {m : MetricLoop} :
    (metricLoops P).newSessionsLoop sc lp = .ok m ↔
      ∃ l, newSessionsLoop P.parseDuration sc lp = .ok l ∧
        m = (SampleLoop.sessions l).metricLoop P.sha256 :=
  mapError_bind_ok

theorem newUsageLoop_ok {sc : SourceConfig} {lp : LoopConfig} {m : MetricLoop} :
    (metricLoops P).newUsageLoop sc lp = .ok m ↔
      ∃ l, newUsageLoop P.parseDuration sc lp = .ok l ∧
        m = (SampleLoop.usage l).metricLoop P.sha256 :=
  mapError_bind_ok

theorem sourceInstance_newSessionsLoop {parseDuration : String → Option Int} {sc : SourceConfig}
    {lp : LoopConfig} {l : SessionsLoop} (h : newSessionsLoop parseDuration sc lp = .ok l) :
    l.sourceInstance = sc.sourceInstance := by
  obtain ⟨cfg, -, h⟩ := bind_ok h
  obtain ⟨snapshot, -, h⟩ := bind_ok h
  obtain rfl := Except.ok.inj h
  rfl

theorem sourceInstance_newUsageLoop {parseDuration : String → Option Int} {sc : SourceConfig}
    {lp : LoopConfig} {l : UsageLoop} (h : newUsageLoop parseDuration sc lp = .ok l) :
    l.sourceInstance = sc.sourceInstance := by
  obtain ⟨cfg, -, h⟩ := bind_ok h
  obtain ⟨snapshot, -, h⟩ := bind_ok h
  obtain rfl := Except.ok.inj h
  rfl

theorem sourceLoops_of_newLangsmith {sc : SourceConfig} (htype : sc.type = "langsmith")
    {loops : List Loop} (h : newLangsmith P (metricLoops P) sc = .ok loops) :
    SourceLoops P sc loops := by
  have hnames : ∀ n ∈ ["sessions", "runs", "usage"], '/' ∉ n.toList := by decide
  have hne : ["sessions", "runs", "usage"].Nodup := by decide
  unfold newLangsmith at h
  by_cases hoff : (sc.enabledLoop "sessions").isNone ∧ (sc.enabledLoop "runs").isNone ∧
      (sc.enabledLoop "usage").isNone
  · rw [if_pos hoff] at h
    obtain rfl := Except.ok.inj h
    refine NamedLoops.source .empty .empty .empty hnames hne ?_
    intro m
    refine iff_of_false (by simp) ?_
    rintro ⟨l, hmade, -⟩
    cases hmade with
    | analytics lp ucs l htype' => simp [htype] at htype'
    | groups lp ucs l htype' => simp [htype] at htype'
    | sessions lp l htype hcfg => simp [hcfg] at hoff
    | usage lp l htype hcfg => simp [hcfg] at hoff
  · rw [if_neg hoff] at h
    obtain ⟨_, -, h⟩ := bind_ok h
    obtain ⟨_, -, h⟩ := bind_ok h
    obtain ⟨sessions, hsessions, h⟩ := bind_ok h
    obtain ⟨runs, hruns, h⟩ := bind_ok h
    obtain ⟨usage, husage, h⟩ := bind_ok h
    obtain rfl := Except.ok.inj h
    obtain ⟨hnamed₁, hmem₁⟩ := @namedLoops_optional P _ _ _ Loop.metrics _ sc.sourceInstance
      "sessions" hsessions (by
        intro lc m hm
        obtain ⟨l, hl, rfl⟩ := newSessionsLoop_ok.mp (mapError_ok hm)
        exact ⟨sourceInstance_newSessionsLoop hl, rfl⟩)
    obtain ⟨hnamed₂, hmem₂⟩ := @namedLoops_optional P _ _ _ Loop.runs _ sc.sourceInstance
      "runs" hruns fun lc r hr => ⟨sourceInstance_newRunsLoop (mapError_ok hr), rfl⟩
    obtain ⟨hnamed₃, hmem₃⟩ := @namedLoops_optional P _ _ _ Loop.metrics _ sc.sourceInstance
      "usage" husage (by
        intro lc m hm
        obtain ⟨l, hl, rfl⟩ := newUsageLoop_ok.mp (mapError_ok hm)
        exact ⟨sourceInstance_newUsageLoop hl, rfl⟩)
    refine NamedLoops.source hnamed₁ hnamed₂ hnamed₃ hnames hne ?_
    intro m
    rw [List.mem_append, List.mem_append, hmem₁, hmem₂, hmem₃]
    constructor
    · rintro ((⟨lc, m', hcfg, hm', hm⟩ | ⟨lc, r, hcfg, hr, hm⟩) | ⟨lc, m', hcfg, hm', hm⟩)
      · obtain rfl := Loop.metrics.inj hm
        obtain ⟨l, hl, rfl⟩ := newSessionsLoop_ok.mp (mapError_ok hm')
        exact ⟨.sessions l, .sessions lc l htype hcfg hl, rfl⟩
      · cases hm
      · obtain rfl := Loop.metrics.inj hm
        obtain ⟨l, hl, rfl⟩ := newUsageLoop_ok.mp (mapError_ok hm')
        exact ⟨.usage l, .usage lc l htype hcfg hl, rfl⟩
    · rintro ⟨l, hmade, rfl⟩
      cases hmade with
      | analytics lp ucs l htype' => simp [htype] at htype'
      | groups lp ucs l htype' => simp [htype] at htype'
      | sessions lp l htype hcfg hnew =>
        exact Or.inl (Or.inl ⟨lp, _, hcfg, by rw [newSessionsLoop_ok.mpr ⟨l, hnew, rfl⟩]; rfl,
          rfl⟩)
      | usage lp l htype hcfg hnew =>
        exact Or.inr ⟨lp, _, hcfg, by rw [newUsageLoop_ok.mpr ⟨l, hnew, rfl⟩]; rfl, rfl⟩

/-! ### The loops that are built -/

theorem sourceLoops_of_buildLoops {cfg : Config} {sc : SourceConfig} {loops : List LoopConfigured}
    (h : buildLoops P (metricLoops P) cfg sc = .ok loops) :
    SourceLoops P sc (loops.map (·.loop)) := by
  obtain ⟨built, hbuilt, h⟩ := bind_ok h
  dsimp only at h
  split at h
  · cases h
  · have hloops : loops.map (·.loop) = built := by
      have hall := Lib.forall₂_of_mapM_ok h
      refine List.ext_getElem (by simp [hall.length_eq]) ?_
      intro i hi hi'
      obtain ⟨_, -, hget⟩ := bind_ok (hall.get hi' (by simpa using hi))
      rw [List.getElem_map]
      exact congrArg LoopConfigured.loop (Except.ok.inj hget).symm
    rw [hloops]
    have hsrc := mapError_ok hbuilt
    unfold buildSource at hsrc
    by_cases hportkey : sc.type = "portkey"
    · rw [if_pos hportkey] at hsrc
      exact sourceLoops_of_newPortkey hportkey hsrc
    · rw [if_neg hportkey] at hsrc
      by_cases hlangsmith : sc.type = "langsmith"
      · rw [if_pos hlangsmith] at hsrc
        exact sourceLoops_of_newLangsmith hlangsmith hsrc
      · rw [if_neg hlangsmith] at hsrc
        cases hsrc

/-- Where the loops of an accepted configuration come from. -/
structure LoopsOf (P : Platform) (cfg : Config) (app : App) : Prop where
  slash : ∀ l ∈ app.loops, '/' ∉ (l.loop.key P.sha256).sourceInstance.toList ∧
    '/' ∉ (l.loop.key P.sha256).loop.toList
  apart : app.loops.Pairwise fun a b => a.loop.Apart P.sha256 b.loop
  made : ∀ m, (∃ l ∈ app.loops, l.loop = .metrics m) ↔
    ∃ l : SampleLoop, l.Made P cfg ∧ m = l.metricLoop P.sha256

/-- **The loops of an accepted configuration** are apart. -/
theorem loopsOf_build {cfg : Config} {app : App} (h : build P (metricLoops P) cfg = .ok app) :
    LoopsOf P cfg app := by
  obtain ⟨hvalid, -, ⟨perSource, hsources, hloops⟩, -⟩ := build_ok h
  obtain ⟨-, hvalid⟩ := List.append_eq_nil_iff.mp hvalid
  obtain ⟨hslash, hnodup⟩ := nodup_instances hvalid
  have hall := Lib.forall₂_of_mapM_ok hsources
  have hmem : ∀ l ∈ app.loops, ∃ sc ∈ cfg.sources, sc.enabled = true ∧
      ∃ loops, buildLoops P (metricLoops P) cfg sc = .ok loops ∧ l ∈ loops := by
    intro l hl
    rw [hloops] at hl
    obtain ⟨loops, hr, hl⟩ := List.mem_flatten.mp hl
    obtain ⟨sc, hsc, hbuild⟩ := Lib.exists_input hall loops hr
    obtain ⟨hsc, hen⟩ := List.mem_filter.mp hsc
    exact ⟨sc, hsc, hen, loops, hbuild, hl⟩
  refine ⟨?_, ?_, ?_⟩
  · intro l hl
    obtain ⟨sc, hsc, hen, loops, hbuild, hl⟩ := hmem l hl
    have hsource := sourceLoops_of_buildLoops hbuild
    have hl := List.mem_map_of_mem (f := LoopConfigured.loop) hl
    exact ⟨hsource.sourceInstance _ hl ▸ (hslash sc hsc hen).1, hsource.slash _ hl⟩
  · rw [hloops]
    refine List.pairwise_flatten.mpr ⟨?_, ?_⟩
    · intro loops hr
      obtain ⟨sc, -, hbuild⟩ := Lib.exists_input hall loops hr
      exact List.pairwise_map.mp (sourceLoops_of_buildLoops hbuild).apart
    · refine Lib.pairwise_of_forall₂ ?_ hall (List.pairwise_map.mp hnodup)
      intro sc loops sc' loops' hbuild hbuild' hne a ha b hb
      refine .place (Or.inl ?_)
      rw [(sourceLoops_of_buildLoops hbuild).sourceInstance _ (List.mem_map_of_mem ha),
        (sourceLoops_of_buildLoops hbuild').sourceInstance _ (List.mem_map_of_mem hb)]
      exact hne
  · intro m
    constructor
    · rintro ⟨l, hl, hm⟩
      obtain ⟨sc, hsc, hen, loops, hbuild, hl⟩ := hmem l hl
      have hl := List.mem_map_of_mem (f := LoopConfigured.loop) hl
      rw [hm] at hl
      obtain ⟨sl, hmade, heq⟩ := ((sourceLoops_of_buildLoops hbuild).made m).mp hl
      exact ⟨sl, ⟨sc, hsc, hen, hmade⟩, heq⟩
    · rintro ⟨sl, ⟨sc, hsc, hen, hmade⟩, rfl⟩
      obtain ⟨loops, hr, hbuild⟩ := Lib.exists_result hall sc (List.mem_filter.mpr ⟨hsc, hen⟩)
      obtain ⟨l, hl, hm⟩ := List.mem_map.mp
        (((sourceLoops_of_buildLoops hbuild).made _).mpr ⟨sl, hmade, rfl⟩)
      refine ⟨l, ?_, hm⟩
      rw [hloops]
      exact List.mem_flatten.mpr ⟨loops, hr, hl⟩

end GenaiBridge
