/-
What the settings of an accepted log export satisfy.

The defaults are positive, every setting that replaces one is checked when it is
parsed, and the validation bounds the page size.
-/
import GenaiBridge.Bridge.LogsSettings
import GenaiBridge.Lib.Fallible

namespace GenaiBridge

open Lib (bind_ok)

/-- The bounds every parsed setting keeps. -/
structure LogsSettings.Positive (ls : LogsSettings) : Prop where
  window : 0 < ls.window
  settle : 0 ≤ ls.settle
  maxBackfill : 0 < ls.maxBackfill
  pageSize : 0 < ls.pageSize
  maxPagesPerWindow : 0 < ls.maxPagesPerWindow
  chunkMaxRecords : 0 < ls.chunkMaxRecords
  jobPollTimeout : 0 < ls.jobPollTimeout

theorem positive_defaultLogsSettings : defaultLogsSettings.Positive :=
  ⟨by decide, by decide, by decide, by decide, by decide, by decide, by decide⟩

theorem parsePositiveDuration_ok {parseDuration : String → Option Int} {setting value : String}
    {d : Int} (h : parsePositiveDuration parseDuration setting value = .ok d) : 0 < d := by
  unfold parsePositiveDuration at h
  split at h
  · cases h
  · split at h
    · cases h
    · cases h
      omega

theorem parseNonNegDuration_ok {parseDuration : String → Option Int} {setting value : String}
    {d : Int} (h : parseNonNegDuration parseDuration setting value = .ok d) : 0 ≤ d := by
  unfold parseNonNegDuration at h
  split at h
  · cases h
  · split at h
    · cases h
    · cases h
      omega

theorem parsePositiveInt_ok {setting value : String} {n : Int}
    (h : parsePositiveInt setting value = .ok n) : 0 < n := by
  unfold parsePositiveInt at h
  split at h
  · cases h
  · split at h
    · cases h
    · cases h
      omega

theorem LogsSettings.Positive.apply {parseDuration : String → Option Int} {ls ls' : LogsSettings}
    {k v : String} (hp : ls.Positive) (h : applyLogsSetting parseDuration ls k v = .ok ls') :
    ls'.Positive := by
  unfold applyLogsSetting at h
  split at h
  · obtain ⟨d, hd, h⟩ := bind_ok h
    cases h
    exact { hp with window := parsePositiveDuration_ok hd }
  · obtain ⟨d, hd, h⟩ := bind_ok h
    cases h
    exact { hp with settle := parseNonNegDuration_ok hd }
  · obtain ⟨d, hd, h⟩ := bind_ok h
    cases h
    exact { hp with maxBackfill := parsePositiveDuration_ok hd }
  · obtain ⟨d, hd, h⟩ := bind_ok h
    cases h
    exact { hp with jobPollTimeout := parsePositiveDuration_ok hd }
  · obtain ⟨d, hd, h⟩ := bind_ok h
    cases h
    exact { hp with }
  · obtain ⟨n, hn, h⟩ := bind_ok h
    cases h
    exact { hp with pageSize := parsePositiveInt_ok hn }
  · obtain ⟨n, hn, h⟩ := bind_ok h
    cases h
    exact { hp with maxPagesPerWindow := parsePositiveInt_ok hn }
  · obtain ⟨n, hn, h⟩ := bind_ok h
    cases h
    exact { hp with chunkMaxRecords := parsePositiveInt_ok hn }
  -- the other settings are texts
  all_goals
    cases h
    exact { hp with }

theorem positive_foldlM {parseDuration : String → Option Int} (entries : List (String × String)) :
    ∀ {ls ls' : LogsSettings}, ls.Positive →
      entries.foldlM (fun ls e => applyLogsSetting parseDuration ls e.1 e.2) ls = .ok ls' →
      ls'.Positive := by
  intro ls ls' hp h
  exact Lib.foldlM_invariant (fun _ _ _ hstep hp => hp.apply hstep) h hp

/-! ### The fields that are named -/

/-- What one setting does to the fields that are named. -/
structure LogsSettings.Names (ls ls' : LogsSettings) (k v : String) : Prop where
  extraRecordFields : ls'.extraRecordFields =
    if k = "extra_record_fields" then splitCSV v else ls.extraRecordFields
  extraIndexedFields : ls'.extraIndexedFields =
    if k = "extra_indexed_fields" then splitCSV v else ls.extraIndexedFields
  metadataRecordFields : ls'.metadataRecordFields =
    if k = "metadata_record_fields" then splitCSV v else ls.metadataRecordFields
  metadataTraceIDField : ls'.metadataTraceIDField =
    if k = "metadata_trace_id_field" then v else ls.metadataTraceIDField
  traceIDField : ls'.traceIDField = if k = "trace_id_field" then v else ls.traceIDField

private theorem names_applyLogsSetting {parseDuration : String → Option Int}
    {ls ls' : LogsSettings} {k v : String} (h : applyLogsSetting parseDuration ls k v = .ok ls') :
    ls.Names ls' k v := by
  unfold applyLogsSetting at h
  split at h
  -- the settings with a value to parse name no field
  iterate 8
    · obtain ⟨d, -, h⟩ := bind_ok h
      cases h
      exact ⟨by simp, by simp, by simp, by simp, by simp⟩
  iterate 8
    · cases h
      exact ⟨by simp, by simp, by simp, by simp, by simp⟩
  · cases h
    constructor <;> simp_all

/-- The fields of an accepted configuration are what its settings name. -/
theorem names_applyLogsSettings {parseDuration : String → Option Int} {ls : LogsSettings}
    {s : Lib.SortedMap String String}
    (h : applyLogsSettings parseDuration defaultLogsSettings s = .ok ls) :
    ls.extraRecordFields = (s.get? "extra_record_fields").elim ["cache_status"] splitCSV ∧
    ls.extraIndexedFields = (s.get? "extra_indexed_fields").elim [] splitCSV ∧
    ls.metadataRecordFields = (s.get? "metadata_record_fields").elim [] splitCSV ∧
    ls.metadataTraceIDField = (s.get? "metadata_trace_id_field").elim "" id ∧
    ls.traceIDField = (s.get? "trace_id_field").elim "" id := by
  obtain ⟨applied, hfold, h⟩ := bind_ok h
  obtain ⟨_, -, h⟩ := bind_ok h
  cases h
  refine ⟨?_, ?_, ?_, ?_, ?_⟩
  · exact Lib.SortedMap.foldlM_at_key (π := LogsSettings.extraRecordFields)
      (fun _ _ _ h => by simpa using (names_applyLogsSetting h).extraRecordFields)
      (fun _ _ _ _ hk h => by simpa [hk] using (names_applyLogsSetting h).extraRecordFields) s hfold
  · exact Lib.SortedMap.foldlM_at_key (π := LogsSettings.extraIndexedFields)
      (fun _ _ _ h => by simpa using (names_applyLogsSetting h).extraIndexedFields)
      (fun _ _ _ _ hk h => by simpa [hk] using (names_applyLogsSetting h).extraIndexedFields) s
      hfold
  · exact Lib.SortedMap.foldlM_at_key (π := LogsSettings.metadataRecordFields)
      (fun _ _ _ h => by simpa using (names_applyLogsSetting h).metadataRecordFields)
      (fun _ _ _ _ hk h => by simpa [hk] using (names_applyLogsSetting h).metadataRecordFields) s
      hfold
  · exact Lib.SortedMap.foldlM_at_key (π := LogsSettings.metadataTraceIDField)
      (fun _ _ _ h => by simpa using (names_applyLogsSetting h).metadataTraceIDField)
      (fun _ _ _ _ hk h => by simpa [hk] using (names_applyLogsSetting h).metadataTraceIDField) s
      hfold
  · exact Lib.SortedMap.foldlM_at_key (π := LogsSettings.traceIDField)
      (fun _ _ _ h => by simpa using (names_applyLogsSetting h).traceIDField)
      (fun _ _ _ _ hk h => by simpa [hk] using (names_applyLogsSetting h).traceIDField) s hfold

/-! ### The loop -/

theorem validateLogsSettings_pageSize {ls : LogsSettings} (h : validateLogsSettings ls = .ok ()) :
    ls.pageSize ≤ portkeyPageSizeMax := by
  by_contra hgt
  unfold validateLogsSettings at h
  simp only [not_le.mp hgt, if_true] at h
  split at h <;> cases h

/-- The bounds of an accepted loop. -/
structure LogsExportLoop.Accepted {R : Type} (l : LogsExportLoop R) : Prop where
  window : 0 < l.window
  settle : 0 ≤ l.settle
  maxBackfill : 0 < l.maxBackfill
  pageSize : 0 < l.pageSize
  pageSize_le : l.pageSize ≤ portkeyPageSizeMax
  maxPagesPerWindow : 0 < l.maxPagesPerWindow
  chunkMaxRecords : 0 < l.chunkMaxRecords
  jobPollTimeout : 0 < l.jobPollTimeout

/-- **An accepted loop is within its bounds.** -/
theorem accepted_newLogsExportLoop {R : Type} {parseDuration : String → Option Int}
    {sourceInstance : String} {allowPrivate : Bool} {lp : LoopConfig} {uc : ResolvedUseCase}
    {policy : LogsSettings → LinePolicy R} {l : LogsExportLoop R}
    (h : newLogsExportLoop parseDuration sourceInstance allowPrivate lp uc policy = .ok l) :
    l.Accepted := by
  unfold newLogsExportLoop at h
  split at h
  · cases h
  · obtain ⟨ls, hls, h⟩ := bind_ok h
    obtain ⟨applied, hfold, hls⟩ := bind_ok hls
    obtain ⟨_, hvalid, hls⟩ := bind_ok hls
    cases hls
    cases h
    have hp := positive_foldlM _ positive_defaultLogsSettings hfold
    exact ⟨hp.window, hp.settle, hp.maxBackfill, hp.pageSize, validateLogsSettings_pageSize hvalid,
      hp.maxPagesPerWindow, hp.chunkMaxRecords, hp.jobPollTimeout⟩

end GenaiBridge
