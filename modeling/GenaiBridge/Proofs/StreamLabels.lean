/-
The labels of a log stream stay within their budget.

The resource attributes of a `ResourceLogs` become the labels of a stream, and a stream
with too many is dropped by the backend.  Four pieces have to agree for that not to happen:
the count `Build` makes of a loop's indexed keys, the tier `strip` puts a field in, what the
guard passes on, and the merge of the identity with the indexed attributes.
-/
import GenaiBridge.Proofs.App
import GenaiBridge.Proofs.LogEncoding
import Mathlib.Data.List.Perm.Subperm

namespace GenaiBridge

open Lib (SortedMap bind_ok mem_of_mapM_ok ok_of_toOption_map)

/-! ### The count of `Build` -/

theorem checkStreamLabels_ok {cfg : Config} {sha256 : String → String} {lp : Loop}
    {keys : List String} (hkeys : lp.indexedKeys = some keys)
    (h : checkStreamLabels cfg sha256 lp = .ok ()) :
    (cfg.identity.productIdentity.keys.length + keys.length : Int) ≤
      cfg.governance.streamLabelCeiling := by
  unfold checkStreamLabels at h
  rw [hkeys] at h
  dsimp only at h
  by_contra hmore
  rw [if_pos (not_le.mp hmore)] at h
  cases h

variable {P : Platform} {M : MetricLoops} {cfg : Config} {app : App}

theorem checked_of_build (h : build P M cfg = .ok app) :
    ∀ l ∈ app.loops, checkStreamLabels cfg P.sha256 l.loop = .ok () := by
  intro l hl
  obtain ⟨-, -, ⟨perSource, hsources, hloops⟩, -⟩ := build_ok h
  rw [hloops] at hl
  obtain ⟨loops, hmem, hl⟩ := List.mem_flatten.mp hl
  obtain ⟨sc, -, hbuild⟩ := mem_of_mapM_ok hsources loops hmem
  obtain ⟨built, -, hbuild⟩ := bind_ok hbuild
  dsimp only at hbuild
  split at hbuild
  · cases hbuild
  · obtain ⟨lp, -, hlp⟩ := mem_of_mapM_ok hbuild l hl
    obtain ⟨_, hcheck, hlp⟩ := bind_ok hlp
    cases hlp
    exact hcheck

/-! ### The tier of a field -/

/-- **A logs loop indexes nothing that it does not declare.** -/
theorem Constructed.declares {sc : SourceConfig} {lc : LoopConfig} {l : Loop}
    (h : Constructed P sc lc l) {strip : RawRecord → Int → LogRecord}
    (hstrip : l.strip = some strip) :
    ∃ keys, l.indexedKeys = some keys ∧
      ∀ raw fallbackTS, ∀ k ∈ (strip raw fallbackTS).indexedAttributes.keys, k ∈ keys := by
  cases h with
  | logsExport e uc hcfg hnew =>
    obtain ⟨ls, -, -, hpolicy, -, hindexed⟩ := newLogsExportLoop_ok hnew
    cases hstrip
    refine ⟨e.indexedKeys, rfl, ?_⟩
    intro raw fallbackTS k hk
    rw [hpolicy] at hk
    obtain ⟨entry, hentry, rfl⟩ := List.mem_map.mp hk
    have hnamed := List.mem_append.mpr (indexed_of_strip hentry).1
    unfold LogsExportLoop.indexedKeys
    rw [hindexed]
    exact (List.perm_insertionSort _ _).mem_iff.mpr (List.mem_dedup.mpr hnamed)
  | runs r hcfg hnew =>
    cases hstrip
    refine ⟨r.indexedKeys, rfl, ?_⟩
    intro raw fallbackTS k hk
    obtain ⟨v, hv⟩ := SortedMap.mem_keys.mp hk
    rw [RunsFieldPolicy.get?_indexedAttributes_strip] at hv
    have hkeep := of_decide_eq_true (tierValue_eq_some hv).1
    exact (List.perm_insertionSort _ _).mem_iff.mpr (List.mem_dedup.mpr hkeep)

/-! ### The labels of a stream -/

/-- The labels of a resource are the keys of the two maps it is merged of, so there are no more
than these have. -/
theorem labels_of_sortedKVs_mergeAttrs {o : Lib.MapOrder} {identity indexed : Labels}
    {keys : List String} (hkeys : ∀ k ∈ indexed.keys, k ∈ keys) :
    (sortedKVs o (mergeAttrs o identity indexed)).length ≤ identity.keys.length + keys.length ∧
      ∀ kv ∈ sortedKVs o (mergeAttrs o identity indexed),
        kv.key ∈ identity.keys ∨ kv.key ∈ keys := by
  have hmerged : ∀ k ∈ (mergeAttrs o identity indexed).keys, k ∈ identity.keys ∨ k ∈ keys := by
    intro k hk
    exact (mem_keys_mergeAttrs.mp hk).imp_right (hkeys k)
  rw [sortedKVs_eq]
  refine ⟨?_, ?_⟩
  · have hsub : (mergeAttrs o identity indexed).keys ⊆ identity.keys ++ keys := fun k hk =>
      List.mem_append.mpr (hmerged k hk)
    have hle := (List.subperm_of_subset (SortedMap.nodup_keys _) hsub).length_le
    simpa [SortedMap.keys] using hle
  · intro kv hkv
    obtain ⟨entry, hentry, rfl⟩ := List.mem_map.mp hkv
    exact hmerged _ (List.mem_map_of_mem hentry)

/-- **The label budget.**  Whatever the guard has seen before, the messages of records that a logs
loop of an accepted configuration stripped, and the guard kept, have no more resource attributes
than the ceiling, and each is one of the identity or one that the loop declares. -/
theorem stream_labels_within_budget (h : build P M cfg = .ok app) :
    ∀ l ∈ app.loops, ∀ strip, l.loop.strip = some strip →
      ∃ keys, l.loop.indexedKeys = some keys ∧
        ∀ (o : Lib.MapOrder) (g : Guard) (raws : List (RawRecord × Int)) (logs : List LogRecord),
          logs ⊆ (g.sanitizeLogs (l.loop.key P.sha256).string
            (raws.map fun e => strip e.1 e.2)).1 →
          ∀ rl ∈ resourceLogs o cfg.identity.productIdentity logs,
            (rl.attributes.length : Int) ≤ cfg.governance.streamLabelCeiling ∧
            ∀ kv ∈ rl.attributes,
              kv.key ∈ cfg.identity.productIdentity.keys ∨ kv.key ∈ keys := by
  intro l hl strip hstrip
  have hlogs : l.loop.indexedKeys.isSome := by
    cases hloop : l.loop with
    | metrics m =>
      rw [hloop] at hstrip
      cases hstrip
    | logsExport e => rfl
    | runs r => rfl
  obtain ⟨sc, -, -, hmade⟩ := (built_of_build h).constructed l hl hlogs
  obtain ⟨keys, hkeys, hdeclared⟩ := hmade.declares hstrip
  refine ⟨keys, hkeys, ?_⟩
  intro o g raws logs hkept rl hrl
  have hbudget := checkStreamLabels_ok hkeys (checked_of_build h l hl)
  obtain ⟨r, hr, hattributes⟩ := attributes_of_mem_resourceLogs hrl
  have hindexed : ∀ k ∈ r.indexedAttributes.keys, k ∈ keys := by
    obtain ⟨⟨lr, hlr, rfl⟩, -⟩ := Guard.mem_sanitizeLogs Unit (hkept hr)
    obtain ⟨raw, -, rfl⟩ := List.mem_map.mp hlr
    exact hdeclared raw.1 raw.2
  obtain ⟨hlength, hlabels⟩ :=
    @labels_of_sortedKVs_mergeAttrs o cfg.identity.productIdentity _ _ hindexed
  rw [hattributes]
  exact ⟨by omega, hlabels⟩

/-- A log export with room for the identity and the three fields it indexes. -/
def tightConfig : Config :=
  { exportConfig requiredSettings with
    governance := { (exportConfig requiredSettings).governance with maxStreamLabelKeys := 6 } }

/-- A record that has all of these fields, and others. -/
def fullRecord : RawRecord :=
  ⟨[("ai_model", .str "m".toList), ("ai_org", .str "o".toList), ("id", .str "1".toList),
    ("request", .str "text".toList), ("response_status_code", .str "200".toList)], by decide⟩

/-- The labels of the streams that a record ends in, loop by loop. -/
def streamLabels (app : App) (identity : Labels) (raw : RawRecord) :
    List (Option (List (List String))) :=
  app.loops.map fun l => l.loop.strip.map fun strip =>
    (resourceLogs .stored identity (app.guard.sanitizeLogs
      (l.loop.key plainPlatform.sha256).string [strip raw 0]).1).map fun rl =>
        rl.attributes.map KeyValue.key

theorem stream_labels_within_budget_tight :
    ∃ app, build plainPlatform noMetricLoops tightConfig = .ok app ∧
      streamLabels app tightConfig.identity.productIdentity fullRecord =
        [some [["ai_model", "ai_org", "deployment.environment.name", "response_status_code",
          "service.name", "service.namespace"]]] ∧
      ∀ l ∈ app.loops, ∀ strip, l.loop.strip = some strip →
        ∀ rl ∈ resourceLogs .stored tightConfig.identity.productIdentity
          (app.guard.sanitizeLogs (l.loop.key plainPlatform.sha256).string
            [strip fullRecord 0]).1,
          rl.attributes.length ≤ 6 := by
  have hlabels : (build plainPlatform noMetricLoops tightConfig).toOption.map
      (fun app => streamLabels app tightConfig.identity.productIdentity fullRecord) =
        some [some [["ai_model", "ai_org", "deployment.environment.name", "response_status_code",
          "service.name", "service.namespace"]]] := by
    decide +kernel
  obtain ⟨app, hbuild, hlabels⟩ := ok_of_toOption_map hlabels
  refine ⟨app, hbuild, hlabels, ?_⟩
  intro l hl strip hstrip rl hrl
  obtain ⟨keys, -, hbudget⟩ := stream_labels_within_budget hbuild l hl strip hstrip
  have hlength := (hbudget .stored app.guard [(fullRecord, 0)] _ (fun _ hr => hr) rl hrl).1
  have hceiling : tightConfig.governance.streamLabelCeiling = 6 := rfl
  omega

end GenaiBridge
