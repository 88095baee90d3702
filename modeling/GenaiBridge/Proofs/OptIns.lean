/-
What a loop opts into stays with that loop.

Two configurations that differ in the content fields one logs loop releases give guards
that agree on everything but the records of that loop.  They allow the same label keys,
since those come from other settings, and a logs loop is denied by its own block alone,
which no two of the loops share unless they were made from it.
-/
import GenaiBridge.Proofs.App

namespace GenaiBridge

open Lib (SortedMap)

/-! ### Guards that agree -/

namespace Guard

/-- Two guards that treat the samples alike, and the records under the loop keys of a set. -/
structure AgreeOn (keys : Set String) (g g' : Guard) : Prop where
  allow : g.allow = g'.allow
  deny : g.deny = g'.deny
  budget : g.budget = g'.budget
  seen : g.seen = g'.seen
  denyByLoop : ∀ key ∈ keys, g.denyByLoop key = g'.denyByLoop key

variable {V : Type} {keys : Set String} {g g' : Guard}

theorem AgreeOn.withinBudget (h : AgreeOn keys g g') : ∀ series sig,
    (g.withinBudget series sig).1 = (g'.withinBudget series sig).1 ∧
      AgreeOn keys (g.withinBudget series sig).2 (g'.withinBudget series sig).2 := by
  intro series sig
  unfold Guard.withinBudget
  rw [h.budget, h.seen]
  by_cases hoff : g'.budget ≤ 0
  · rw [if_pos hoff, if_pos hoff]
    exact ⟨rfl, h⟩
  · rw [if_neg hoff, if_neg hoff]
    by_cases hknown : sig ∈ g'.seen series
    · rw [if_pos hknown, if_pos hknown]
      exact ⟨rfl, h⟩
    · rw [if_neg hknown, if_neg hknown]
      by_cases hspent : g'.budget ≤ (g'.seen series).card
      · rw [if_pos hspent, if_pos hspent]
        exact ⟨rfl, h.allow, h.deny, rfl, rfl, h.denyByLoop⟩
      · rw [if_neg hspent, if_neg hspent]
        exact ⟨rfl, h.allow, h.deny, rfl, rfl, h.denyByLoop⟩

theorem AgreeOn.ok (h : AgreeOn keys g g') : ∀ s : Sample V,
    (g.ok s).1 = (g'.ok s).1 ∧ AgreeOn keys (g.ok s).2 (g'.ok s).2 := by
  intro s
  unfold Guard.ok
  rw [h.allow, h.deny]
  split
  · exact ⟨rfl, h⟩
  · exact h.withinBudget _ _

theorem AgreeOn.okLog (h : AgreeOn keys g g') : ∀ key ∈ keys, ∀ lr,
    (g.okLog key lr).1 = (g'.okLog key lr).1 ∧
      AgreeOn keys (g.okLog key lr).2 (g'.okLog key lr).2 := by
  intro key hkey lr
  unfold Guard.okLog
  rw [h.allow, h.deny, h.denyByLoop key hkey]
  dsimp only
  split
  · exact ⟨rfl, h⟩
  · split
    · exact ⟨rfl, h⟩
    · exact h.withinBudget _ _

/-- They keep the same samples, and drop as many. -/
theorem AgreeOn.sanitizeLoop (h : AgreeOn keys g g') : ∀ samples : List (Sample V),
    (g.sanitizeLoop samples).1 = (g'.sanitizeLoop samples).1 ∧
      (g.sanitizeLoop samples).2.1 = (g'.sanitizeLoop samples).2.1 := by
  intro samples
  induction samples generalizing g g' with
  | nil => exact ⟨rfl, rfl⟩
  | cons s samples ih =>
    obtain ⟨hverdict, hnext⟩ := h.ok s
    obtain ⟨hkept, hdropped⟩ := ih hnext
    unfold Guard.sanitizeLoop
    rw [hverdict]
    dsimp only
    split
    · exact ⟨congrArg (s :: ·) hkept, hdropped⟩
    · exact ⟨hkept, congrArg (· + 1) hdropped⟩

/-- They keep the same records of a loop of the set, and drop as many. -/
theorem AgreeOn.sanitizeLogs (h : AgreeOn keys g g') : ∀ key ∈ keys, ∀ logs,
    (g.sanitizeLogs key logs).1 = (g'.sanitizeLogs key logs).1 ∧
      (g.sanitizeLogs key logs).2.1 = (g'.sanitizeLogs key logs).2.1 := by
  intro key hkey logs
  induction logs generalizing g g' with
  | nil => exact ⟨rfl, rfl⟩
  | cons lr logs ih =>
    obtain ⟨hverdict, hnext⟩ := h.okLog key hkey { lr with body := "" }
    obtain ⟨hkept, hdropped⟩ := ih hnext
    unfold Guard.sanitizeLogs
    dsimp only
    rw [hverdict]
    split
    · exact ⟨congrArg (_ :: ·) hkept, hdropped⟩
    · exact ⟨hkept, congrArg (· + 1) hdropped⟩

/-! ### The floor -/

theorem floor_of_sanitizeLoop (g : Guard) : ∀ samples : List (Sample V),
    ∀ s ∈ (g.sanitizeLoop samples).1, ∀ k ∈ s.labels.keys, isContentFloorKey k = false := by
  intro samples s hs k hk
  obtain ⟨-, hkeys⟩ := mem_sanitizeLoop hs
  simp only [keysOk, Bool.not_eq_true', List.any_eq_false, Bool.or_eq_true, not_or,
    Bool.not_eq_true] at hkeys
  exact (hkeys k hk).1.2

theorem floor_of_sanitizeLogs (g : Guard) : ∀ key logs, ∀ lr ∈ (g.sanitizeLogs key logs).1,
    ∀ k ∈ lr.indexedAttributes.keys ++ lr.recordAttributes.keys, isContentFloorKey k = false := by
  intro key logs lr hlr k hk
  obtain ⟨-, hkeys⟩ := mem_sanitizeLogs Unit hlr
  simp only [keysOk, Bool.and_eq_true, Bool.not_eq_true', List.any_eq_false, Bool.or_eq_true,
    not_or, Bool.not_eq_true] at hkeys
  exact (hkeys.1 k hk).2

end Guard

/-! ### Two configurations -/

/-- The configuration of one loop, within a configuration. -/
structure Block (cfg : Config) where
  before : List SourceConfig
  source : SourceConfig
  later : List SourceConfig
  name : String
  loop : LoopConfig
  sources_eq : cfg.sources = before ++ source :: later
  loop_eq : source.loops.get? name = some loop

/-- Configurations of a loop that differ at most in the content fields it releases. -/
structure LoopConfig.SameButOptIns (lc lc' : LoopConfig) : Prop where
  rest : lc' = { lc with settings := lc'.settings }
  settings : ∀ knob, knob ≠ "extra_record_fields" → knob ≠ "metadata_record_fields" →
    lc'.settings.get? knob = lc.settings.get? knob

namespace Block

variable {P : Platform} {M : MetricLoops} {cfg : Config}

/-- The source with the block replaced. -/
def replacedSource (A : Block cfg) (lc : LoopConfig) : SourceConfig :=
  { A.source with loops := A.source.loops.insert A.name lc }

/-- The configuration with the block replaced. -/
def replace (A : Block cfg) (lc : LoopConfig) : Config :=
  { cfg with sources := A.before ++ A.replacedSource lc :: A.later }

/-- A logs loop made from the block. -/
def Builds (P : Platform) (A : Block cfg) (l : Loop) : Prop :=
  (l.key P.sha256).loop = A.name ∧ ∃ lc, Constructed P A.source lc l

theorem source_mem (A : Block cfg) : A.source ∈ cfg.sources := by
  rw [A.sources_eq]
  simp

/-- A source of the new configuration is one of the old, or holds the block. -/
theorem mem_replace {A : Block cfg} {lc : LoopConfig} {sc : SourceConfig}
    (h : sc ∈ (A.replace lc).sources) : sc ∈ cfg.sources ∨ sc = A.replacedSource lc := by
  rw [A.sources_eq]
  rcases List.mem_append.mp h with h | h
  · exact Or.inl (List.mem_append_left _ h)
  · rcases List.mem_cons.mp h with h | h
    · exact Or.inr h
    · exact Or.inl (List.mem_append_right _ (List.mem_cons_of_mem _ h))

theorem enabledLoop_of_ne (A : Block cfg) (lc : LoopConfig) {name : String} (h : name ≠ A.name) :
    (A.replacedSource lc).enabledLoop name = A.source.enabledLoop name := by
  unfold SourceConfig.enabledLoop replacedSource
  rw [SortedMap.get?_insert_of_ne _ _ h]

/-- The settings that are not content opt-ins read the same in both. -/
theorem settingFields_replaced (A : Block cfg) {lc : LoopConfig} (hlc : A.loop.SameButOptIns lc)
    {knob : String} (hrecord : knob ≠ "extra_record_fields")
    (hmeta : knob ≠ "metadata_record_fields") (name : String) :
    ((A.replacedSource lc).enabledLoop name).map (·.settingFields knob) =
      (A.source.enabledLoop name).map (·.settingFields knob) := by
  by_cases hname : name = A.name
  · have henabled : lc.enabled = A.loop.enabled := by rw [hlc.rest]
    have hfields : lc.settingFields knob = A.loop.settingFields knob := by
      unfold LoopConfig.settingFields
      rw [hlc.settings knob hrecord hmeta]
    unfold SourceConfig.enabledLoop replacedSource
    rw [hname, SortedMap.get?_insert_self, A.loop_eq]
    cases hen : A.loop.enabled with
    | true => simp [Option.filter, henabled, hen, hfields]
    | false => simp [Option.filter, henabled, hen]
  · rw [A.enabledLoop_of_ne lc hname]

theorem mem_optedInIndexedFields_replace (A : Block cfg) {lc : LoopConfig}
    (hlc : A.loop.SameButOptIns lc) (k : String) :
    k ∈ optedInIndexedFields (A.replace lc) ↔ k ∈ optedInIndexedFields cfg := by
  have hpromotes : ∀ sc : SourceConfig, (∃ name c, sc.enabledLoop name = some c ∧
      k ∈ c.settingFields "extra_indexed_fields") ↔ ∃ name fields,
        (sc.enabledLoop name).map (·.settingFields "extra_indexed_fields") = some fields ∧
          k ∈ fields := by
    intro sc
    simp
  rw [mem_optedInIndexedFields, mem_optedInIndexedFields, A.sources_eq]
  simp only [hpromotes, replace, List.mem_append, List.mem_cons, or_and_right, exists_or,
    exists_eq_left, A.settingFields_replaced hlc (by decide : "extra_indexed_fields" ≠ _)
      (by decide : "extra_indexed_fields" ≠ _)]
  rfl

theorem mem_allowKeys_replace (A : Block cfg) {lc : LoopConfig} (hlc : A.loop.SameButOptIns lc)
    (k : String) : k ∈ allowKeys (A.replace lc) ↔ k ∈ allowKeys cfg := by
  unfold allowKeys operatorPromoted
  simp only [List.mem_eraseDups, List.mem_append, A.mem_optedInIndexedFields_replace hlc]
  rfl

/-- A loop that was not made from the block has the same configuration in both. -/
theorem cfg_eq (A : Block cfg) {lc : LoopConfig} {app app' : App} (h : Built P cfg app)
    (h' : Built P (A.replace lc) app') {l l' : LoopConfigured} (hl : l ∈ app.loops)
    (hl' : l' ∈ app'.loops) (hlogs : l.loop.indexedKeys.isSome)
    (hlogs' : l'.loop.indexedKeys.isSome)
    (hkey : l.loop.key P.sha256 = l'.loop.key P.sha256) (hnot : ¬A.Builds P l.loop) :
    l.cfg = l'.cfg := by
  obtain ⟨sc, hsc, hen, hc⟩ := h.constructed l hl hlogs
  obtain ⟨sc', hsc', hen', hc'⟩ := h'.constructed l' hl' hlogs'
  obtain ⟨hinst, -, hcfg⟩ := hc.key
  obtain ⟨hinst', -, hcfg'⟩ := hc'.key
  obtain ⟨-, hsources⟩ := List.append_eq_nil_iff.mp h.valid
  obtain ⟨-, hdistinct⟩ := instances_of_validateSources hsources
  rw [hkey] at hinst hcfg
  have hsame : sc.sourceInstance = sc'.sourceInstance := hinst.symm.trans hinst'
  have hboth : sc.enabledLoop (l'.loop.key P.sha256).loop =
      sc'.enabledLoop (l'.loop.key P.sha256).loop := by
    rcases mem_replace hsc' with hold | rfl
    · rw [hdistinct sc hsc sc' hold hen hen' hsame]
    · -- the two loops are of the source that holds the block, under another name
      obtain rfl := hdistinct sc hsc A.source A.source_mem hen hen' hsame
      have hname : (l'.loop.key P.sha256).loop ≠ A.name := by
        intro hname
        exact hnot ⟨hkey ▸ hname, _, hc⟩
      exact (A.enabledLoop_of_ne lc hname).symm
  rw [hboth, hcfg'] at hcfg
  exact (Option.some.inj hcfg).symm

end Block

/-- What the guard denies under a key that no logs loop has. -/
theorem Built.denyByLoop_none {P : Platform} {cfg : Config} {app : App} (h : Built P cfg app)
    {key : String} (hnone : ∀ l ∈ app.loops, l.loop.indexedKeys.isSome →
      (l.loop.key P.sha256).string ≠ key) : app.guard.denyByLoop key = none := by
  have hget : (contentDenyByLoop P.sha256 app.loops).get? key = none := by
    unfold contentDenyByLoop
    rw [SortedMap.get?_foldl_insert_of_ne]
    · rfl
    · intro l hl
      obtain ⟨hl, hlogs⟩ := List.mem_filter.mp hl
      exact hnone l hl hlogs
  rw [h.guard]
  show Option.map _ _ = _
  rw [hget]
  rfl

/-- What a loop is known by: its key, and whether it is a logs loop. -/
def LoopConfigured.identity (sha256 : String → String) (l : LoopConfigured) :
    CheckpointKey × Bool :=
  (l.loop.key sha256, l.loop.indexedKeys.isSome)

/-- Two builds of the same loops, with the same keys. -/
def App.SameLoops (sha256 : String → String) (app app' : App) : Prop :=
  app.loops.map (·.identity sha256) = app'.loops.map (·.identity sha256)

section

variable {P : Platform} {M : MetricLoops} {cfg : Config}

/-- The keys that no loop of the block has. -/
def Block.otherKeys (P : Platform) (A : Block cfg) (app : App) : Set String :=
  { key | ∀ l ∈ app.loops, A.Builds P l.loop → (l.loop.key P.sha256).string ≠ key }

theorem App.SameLoops.find {sha256 : String → String} {app app' : App}
    (h : app.SameLoops sha256 app') : ∀ l ∈ app.loops, ∃ l' ∈ app'.loops,
      l.loop.key sha256 = l'.loop.key sha256 ∧
        l.loop.indexedKeys.isSome = l'.loop.indexedKeys.isSome := by
  intro l hl
  have hmem := List.mem_map_of_mem (f := LoopConfigured.identity sha256) hl
  rw [h] at hmem
  obtain ⟨l', hl', hid⟩ := List.mem_map.mp hmem
  obtain ⟨hkey, hlogs⟩ := Prod.mk.inj hid
  exact ⟨l', hl', hkey.symm, hlogs.symm⟩

theorem Block.denyByLoop_eq (A : Block cfg) {lc : LoopConfig} {app app' : App}
    (h : Built P cfg app) (h' : Built P (A.replace lc) app') (hsame : app.SameLoops P.sha256 app') :
    ∀ key ∈ A.otherKeys P app, app.guard.denyByLoop key = app'.guard.denyByLoop key := by
  intro key hother
  by_cases hloop : ∃ l ∈ app.loops, l.loop.indexedKeys.isSome ∧ (l.loop.key P.sha256).string = key
  · obtain ⟨l, hl, hlogs, rfl⟩ := hloop
    obtain ⟨l', hl', hkey, hkind⟩ := hsame.find l hl
    have hlogs' : l'.loop.indexedKeys.isSome := hkind ▸ hlogs
    have hnot : ¬A.Builds P l.loop := fun hbuilds => hother l hl hbuilds rfl
    rw [h.denyByLoop hl hlogs, hkey, h'.denyByLoop hl' hlogs',
      A.cfg_eq h h' hl hl' hlogs hlogs' hkey hnot]
  · have hnone : ∀ l ∈ app.loops, l.loop.indexedKeys.isSome →
        (l.loop.key P.sha256).string ≠ key := by
      intro l hl hlogs hkey
      exact hloop ⟨l, hl, hlogs, hkey⟩
    have hnone' : ∀ l' ∈ app'.loops, l'.loop.indexedKeys.isSome →
        (l'.loop.key P.sha256).string ≠ key := by
      intro l' hl' hlogs'
      obtain ⟨l, hl, hkey, hkind⟩ := App.SameLoops.find hsame.symm l' hl'
      rw [hkey]
      exact hnone l hl (hkind ▸ hlogs')
    rw [h.denyByLoop_none hnone, h'.denyByLoop_none hnone']

/-- The guards of the two configurations agree on everything but the block's own loops. -/
theorem Block.agreeOn (A : Block cfg) {lc : LoopConfig} (hlc : A.loop.SameButOptIns lc)
    {app app' : App} (h : Built P cfg app) (h' : Built P (A.replace lc) app')
    (hsame : app.SameLoops P.sha256 app') (seen : String → Finset String) :
    Guard.AgreeOn (A.otherKeys P app) { app.guard with seen } { app'.guard with seen } := by
  refine ⟨?_, ?_, ?_, rfl, A.denyByLoop_eq h h' hsame⟩
  · show app.guard.allow = app'.guard.allow
    rw [h.guard, h'.guard]
    funext k
    show (allowKeys cfg).contains k = (allowKeys (A.replace lc)).contains k
    rw [Bool.eq_iff_iff, List.contains_iff_mem, List.contains_iff_mem]
    exact (A.mem_allowKeys_replace hlc k).symm
  · show app.guard.deny = app'.guard.deny
    rw [h.guard, h'.guard]
    rfl
  · show app.guard.budget = app'.guard.budget
    rw [h.guard, h'.guard]
    rfl

/-- **Content opt-ins do not leak.**  Changing the content fields that the loops of one block
release changes no verdict on a sample, nor on a record under the key of any other loop; and
nothing that carries a key of the content floor is ever kept. -/
theorem opt_ins_do_not_leak {V : Type} {app : App} (h : build P M cfg = .ok app)
    (seen : String → Finset String) :
    let g := { app.guard with seen }
    (∀ (A : Block cfg) lc app', A.loop.SameButOptIns lc → build P M (A.replace lc) = .ok app' →
      app.SameLoops P.sha256 app' →
      let g' := { app'.guard with seen }
      (∀ b : Batch V, (g.sanitize b).1 = (g'.sanitize b).1 ∧
        (g.sanitize b).2.1 = (g'.sanitize b).2.1) ∧
      ∀ key ∈ A.otherKeys P app, ∀ logs,
        (g.sanitizeLogs key logs).1 = (g'.sanitizeLogs key logs).1 ∧
        (g.sanitizeLogs key logs).2.1 = (g'.sanitizeLogs key logs).2.1) ∧
    (∀ b : Batch V, ∀ s ∈ (g.sanitize b).1.samples, ∀ k ∈ s.labels.keys,
      isContentFloorKey k = false) ∧
    ∀ key logs, ∀ lr ∈ (g.sanitizeLogs key logs).1,
      ∀ k ∈ lr.indexedAttributes.keys ++ lr.recordAttributes.keys, isContentFloorKey k = false := by
  intro g
  refine ⟨?_, ?_, g.floor_of_sanitizeLogs⟩
  · intro A lc app' hlc h' hsame g'
    have hagree := A.agreeOn hlc (built_of_build h) (built_of_build h') hsame seen
    refine ⟨?_, hagree.sanitizeLogs⟩
    intro b
    obtain ⟨hkept, hdropped⟩ := hagree.sanitizeLoop b.samples
    exact ⟨congrArg (fun samples => { b with samples }) hkept, hdropped⟩
  · intro b
    exact g.floor_of_sanitizeLoop b.samples

end

/-- Two sources, each with a log export. -/
def twoExports : Config :=
  { exportConfig requiredSettings with
    sources := (exportConfig requiredSettings).sources.flatMap fun sc =>
      [sc, { sc with sourceInstance := "second" }] }

/-- The log export of the first. -/
def firstExport : Block twoExports :=
  { before := []
    source := (exportConfig requiredSettings).sources.head (by decide)
    later := [{ (exportConfig requiredSettings).sources.head (by decide) with
      sourceInstance := "second" }]
    name := "logs_export"
    loop := { LoopConfig.zero with
      enabled := true, cadence := minute, settings := requiredSettings }
    sources_eq := rfl
    loop_eq := SortedMap.get?_insert_self .. }

/-- It releases a field. -/
def releasesError : LoopConfig :=
  { firstExport.loop with settings := requiredSettings.insert "extra_record_fields" "error" }

/-- A record that carries the field. -/
def errorRecord : LogRecord :=
  { timestamp := 0, body := "", severity := "", indexedAttributes := .empty
    recordAttributes := SortedMap.empty.insert "error" "timeout", traceID := [] }

/-- What the guard says of that record, loop by loop. -/
def errorVerdicts (app : App) : List Bool :=
  app.loops.map fun l => (app.guard.okLog (l.loop.key plainPlatform.sha256).string errorRecord).1

/-- The loops of each of the two builds, and the verdicts. -/
def comparedBuilds : Option (List (CheckpointKey × Bool) × List (CheckpointKey × Bool) ×
    List Bool × List Bool) := do
  let app ← (build plainPlatform noMetricLoops twoExports).toOption
  let app' ← (build plainPlatform noMetricLoops (firstExport.replace releasesError)).toOption
  return (app.loops.map (·.identity plainPlatform.sha256),
    app'.loops.map (·.identity plainPlatform.sha256), errorVerdicts app, errorVerdicts app')

/-- The loops of both. -/
def exportIdentities : List (CheckpointKey × Bool) :=
  ["portkey", "second"].map fun sourceInstance =>
    (⟨sourceInstance, "logs_export", fingerprint id ["ai_model", "ai_org"] "logs_export"⟩, true)

theorem opt_ins_do_not_leak_second :
    ∃ app app', build plainPlatform noMetricLoops twoExports = .ok app ∧
      build plainPlatform noMetricLoops (firstExport.replace releasesError) = .ok app' ∧
      errorVerdicts app = [false, false] ∧ errorVerdicts app' = [true, false] ∧
      ∀ l ∈ app.loops, (l.loop.key plainPlatform.sha256).sourceInstance = "second" → ∀ logs,
        (app.guard.sanitizeLogs (l.loop.key plainPlatform.sha256).string logs).1 =
          (app'.guard.sanitizeLogs (l.loop.key plainPlatform.sha256).string logs).1 := by
  have hcompared : comparedBuilds =
      some (exportIdentities, exportIdentities, [false, false], [true, false]) := by
    decide +kernel
  have hkeys : ∀ i ∈ exportIdentities, ∀ j ∈ exportIdentities,
      i.1.string = j.1.string → i.1.sourceInstance = j.1.sourceInstance := by
    decide +kernel
  unfold comparedBuilds at hcompared
  cases hbuild : build plainPlatform noMetricLoops twoExports with
  | error err =>
    rw [hbuild] at hcompared
    cases hcompared
  | ok app =>
    cases hbuild' : build plainPlatform noMetricLoops (firstExport.replace releasesError) with
    | error err =>
      rw [hbuild, hbuild'] at hcompared
      cases hcompared
    | ok app' =>
      rw [hbuild, hbuild'] at hcompared
      have hfacts := Option.some.inj hcompared
      simp only [Prod.mk.injEq] at hfacts
      obtain ⟨hids, hids', hverdicts, hverdicts'⟩ := hfacts
      refine ⟨app, app', rfl, rfl, hverdicts, hverdicts', ?_⟩
      intro l hl hsecond logs
      have hknob : firstExport.loop.SameButOptIns releasesError := by
        refine ⟨rfl, ?_⟩
        intro knob hrecord _
        exact SortedMap.get?_insert_of_ne _ _ hrecord
      have hother : (l.loop.key plainPlatform.sha256).string ∈
          firstExport.otherKeys plainPlatform app := by
        intro first hfirst hbuilds heq
        obtain ⟨-, lc, hc⟩ := hbuilds
        have hmem : ∀ x ∈ app.loops, x.identity plainPlatform.sha256 ∈ exportIdentities := by
          intro x hx
          rw [← hids]
          exact List.mem_map_of_mem hx
        have hinst := hkeys _ (hmem first hfirst) _ (hmem l hl) heq
        rw [show (l.identity plainPlatform.sha256).1.sourceInstance = "second" from hsecond,
          show (first.identity plainPlatform.sha256).1.sourceInstance = "portkey" from
            hc.key.1] at hinst
        exact absurd hinst (by decide)
      have hfresh : { app'.guard with seen := app.guard.seen } = app'.guard := by
        rw [(built_of_build hbuild').guard, (built_of_build hbuild).guard]
        rfl
      have hsame := (((opt_ins_do_not_leak (V := Nat) hbuild app.guard.seen).1 firstExport
        releasesError app' hknob hbuild' (hids.trans hids'.symm)).2 _ hother logs).1
      rwa [hfresh] at hsame

end GenaiBridge
