/-
What the settings of an accepted runs loop satisfy.

As for the log export, every setting that replaces a default is checked when it is
parsed.  The validation adds that the settle time is less than the window, and bounds
what fields can be opted in.
-/
import GenaiBridge.Bridge.Runs
import GenaiBridge.Proofs.LogsSettings

namespace GenaiBridge

open Lib (bind_ok guard_ok mapError_ok)

/-- The bounds every parsed setting keeps. -/
structure RunsSettings.Positive (rs : RunsSettings) : Prop where
  window : 0 < rs.window
  settle : 0 ≤ rs.settle
  maxBackfill : 0 < rs.maxBackfill
  maxPagesPerWindow : 0 < rs.maxPagesPerWindow
  maxPagesPerWindow_le : rs.maxPagesPerWindow ≤ maxInt64

theorem positive_defaultRunsSettings : defaultRunsSettings.Positive :=
  ⟨by decide, by decide, by decide, by decide, by decide⟩

theorem parseRunsPositiveDuration_ok {parseDuration : String → Option Int} {v : String} {d : Int}
    (h : parseRunsPositiveDuration parseDuration v = .ok d) : 0 < d := by
  unfold parseRunsPositiveDuration at h
  split at h
  · cases h
  · split at h
    · cases h
    · cases h
      omega

theorem parseRunsNonNegDuration_ok {parseDuration : String → Option Int} {v : String} {d : Int}
    (h : parseRunsNonNegDuration parseDuration v = .ok d) : 0 ≤ d := by
  unfold parseRunsNonNegDuration at h
  split at h
  · cases h
  · split at h
    · cases h
    · cases h
      omega

theorem parseRunsPositiveInt_ok {v : String} {n : Int} (h : parseRunsPositiveInt v = .ok n) :
    0 < n ∧ n ≤ maxInt64 := by
  unfold parseRunsPositiveInt at h
  split at h
  · cases h
  · rename_i hatoi
    obtain ⟨-, hrange⟩ := Option.filter_eq_some_iff.mp hatoi
    split at h
    · cases h
    · cases h
      simp only [decide_eq_true_eq] at hrange
      omega

theorem RunsSettings.Positive.apply {parseDuration : String → Option Int} {rs rs' : RunsSettings}
    {k v : String} (hp : rs.Positive) (h : applyRunsValue parseDuration rs k v = .ok rs') :
    rs'.Positive := by
  unfold applyRunsValue at h
  split at h
  · cases h
    exact { hp with }
  · cases h
    exact { hp with }
  · obtain ⟨n, hn, h⟩ := bind_ok h
    cases h
    exact { hp with }
  · obtain ⟨d, hd, h⟩ := bind_ok h
    cases h
    exact { hp with window := parseRunsPositiveDuration_ok hd }
  · obtain ⟨d, hd, h⟩ := bind_ok h
    cases h
    exact { hp with settle := parseRunsNonNegDuration_ok hd }
  · obtain ⟨d, hd, h⟩ := bind_ok h
    cases h
    exact { hp with maxBackfill := parseRunsPositiveDuration_ok hd }
  · obtain ⟨d, hd, h⟩ := bind_ok h
    cases h
    exact { hp with }
  · obtain ⟨n, hn, h⟩ := bind_ok h
    cases h
    exact { hp with }
  · obtain ⟨n, hn, h⟩ := bind_ok h
    cases h
    obtain ⟨hpos, hle⟩ := parseRunsPositiveInt_ok hn
    exact { hp with maxPagesPerWindow := hpos, maxPagesPerWindow_le := hle }
  · obtain ⟨n, hn, h⟩ := bind_ok h
    cases h
    exact { hp with }
  · obtain ⟨b, hb, h⟩ := bind_ok h
    cases h
    exact { hp with }
  -- the other settings are texts
  all_goals
    cases h
    exact { hp with }

theorem RunsSettings.Positive.foldlM {parseDuration : String → Option Int}
    (entries : List (String × String)) :
    ∀ {rs rs' : RunsSettings}, rs.Positive →
      entries.foldlM (fun rs e =>
        (applyRunsValue parseDuration rs e.1 e.2).mapError (RunsSettingsError.setting e.1 e.2)) rs =
          .ok rs' →
      rs'.Positive := by
  intro rs rs' hp h
  exact Lib.foldlM_invariant (fun _ _ _ hstep hp => hp.apply (mapError_ok hstep)) h hp

/-! ### The fields that are named -/

private theorem names_applyRunsValue {parseDuration : String → Option Int} {rs rs' : RunsSettings}
    {k v : String} (h : applyRunsValue parseDuration rs k v = .ok rs') :
    rs'.extraRecordFields = (if k = "extra_record_fields" then splitCSV v
      else rs.extraRecordFields) ∧
    rs'.extraIndexedFields = (if k = "extra_indexed_fields" then splitCSV v
      else rs.extraIndexedFields) := by
  unfold applyRunsValue at h
  split at h
  iterate 2
    · cases h
      exact ⟨by simp, by simp⟩
  -- the settings with a value to parse name no field
  iterate 9
    · obtain ⟨d, -, h⟩ := bind_ok h
      cases h
      exact ⟨by simp, by simp⟩
  iterate 3
    · cases h
      exact ⟨by simp, by simp⟩
  · cases h
    constructor <;> simp_all

/-- The fields of an accepted configuration are what its settings name. -/
theorem names_applyRunsSettings {parseDuration : String → Option Int} {rs : RunsSettings}
    {s : Lib.SortedMap String String}
    (h : applyRunsSettings parseDuration defaultRunsSettings s = .ok rs) :
    rs.extraRecordFields = (s.get? "extra_record_fields").elim
      defaultRunsSettings.extraRecordFields splitCSV ∧
    rs.extraIndexedFields = (s.get? "extra_indexed_fields").elim [] splitCSV := by
  obtain ⟨applied, hfold, h⟩ := bind_ok h
  obtain ⟨_, -, h⟩ := bind_ok h
  cases h
  constructor
  · exact Lib.SortedMap.foldlM_at_key (π := RunsSettings.extraRecordFields)
      (fun _ _ _ h => by simpa using (names_applyRunsValue (mapError_ok h)).1)
      (fun _ _ _ _ hk h => by simpa [hk] using (names_applyRunsValue (mapError_ok h)).1) s hfold
  · exact Lib.SortedMap.foldlM_at_key (π := RunsSettings.extraIndexedFields)
      (fun _ _ _ h => by simpa using (names_applyRunsValue (mapError_ok h)).2)
      (fun _ _ _ _ hk h => by simpa [hk] using (names_applyRunsValue (mapError_ok h)).2) s hfold

/-! ### The validation -/

private theorem refuseRunsFields_ok {refused : String → Bool} {err : String → RunsSettingsError}
    {fields : List String} (h : refuseRunsFields refused err fields = .ok ()) :
    ∀ f ∈ fields, refused f = false := by
  unfold refuseRunsFields at h
  split at h
  · cases h
  · rename_i hnone
    intro f hf
    simpa using List.find?_eq_none.mp hnone f hf

/-- What the validation adds. -/
structure RunsSettings.Valid (rs : RunsSettings) : Prop where
  settle : rs.settle < rs.window
  record_denied : ∀ f ∈ rs.extraRecordFields, f ∉ hardDeniedRunsFields
  indexed_denied : ∀ f ∈ rs.extraIndexedFields, f ∉ hardDeniedRunsFields
  record_select : ∀ f ∈ rs.extraRecordFields, f ∈ validLangsmithSelectEnum
  indexed_select : ∀ f ∈ rs.extraIndexedFields, f ∈ validLangsmithSelectEnum

theorem valid_of_validateRunsSettings {rs : RunsSettings} (h : validateRunsSettings rs = .ok ()) :
    rs.Valid := by
  unfold validateRunsSettings at h
  obtain ⟨-, h⟩ := guard_ok h
  obtain ⟨-, h⟩ := guard_ok h
  obtain ⟨-, h⟩ := guard_ok h
  obtain ⟨hsettle, h⟩ := guard_ok h
  obtain ⟨_, hrecord, h⟩ := bind_ok h
  obtain ⟨_, hindexed, h⟩ := bind_ok h
  obtain ⟨_, hselect, h⟩ := bind_ok h
  refine ⟨by omega, ?_, ?_, ?_, ?_⟩
  · simpa using refuseRunsFields_ok hrecord
  · simpa using refuseRunsFields_ok hindexed
  · simpa using refuseRunsFields_ok hselect
  · simpa using refuseRunsFields_ok h

/-- The bounds of an accepted loop. -/
structure RunsLoop.Accepted (l : RunsLoop) : Prop where
  window : 0 < l.window
  settle : 0 ≤ l.settle
  settle_lt : l.settle < l.window
  maxBackfill : 0 < l.maxBackfill
  maxPagesPerWindow : 0 < l.maxPagesPerWindow
  maxPagesPerWindow_le : l.maxPagesPerWindow ≤ maxInt64

/-- **An accepted loop is built from settings that are within their bounds.** -/
theorem newRunsLoop_ok {parseDuration : String → Option Int} {sourceInstance : String}
    {lp : LoopConfig} {l : RunsLoop} (h : newRunsLoop parseDuration sourceInstance lp = .ok l) :
    ∃ rs, applyRunsSettings parseDuration defaultRunsSettings lp.settings = .ok rs ∧
      rs.Positive ∧ rs.Valid ∧ l.window = rs.window ∧ l.settle = rs.settle ∧
      l.maxBackfill = rs.maxBackfill ∧ l.maxPagesPerWindow = rs.maxPagesPerWindow ∧
      l.policy = runsFieldPolicy rs := by
  unfold newRunsLoop at h
  split at h
  · cases h
  · obtain ⟨rs, hrs, h⟩ := bind_ok h
    obtain ⟨applied, hfold, hvalid⟩ := bind_ok hrs
    obtain ⟨_, hvalid, happlied⟩ := bind_ok hvalid
    cases happlied
    cases h
    exact ⟨rs, hrs, positive_defaultRunsSettings.foldlM _ hfold,
      valid_of_validateRunsSettings hvalid, rfl, rfl, rfl, rfl, rfl⟩

theorem accepted_newRunsLoop {parseDuration : String → Option Int} {sourceInstance : String}
    {lp : LoopConfig} {l : RunsLoop} (h : newRunsLoop parseDuration sourceInstance lp = .ok l) :
    l.Accepted := by
  obtain ⟨rs, -, hp, hv, hwindow, hsettle, hbackfill, hpages, -⟩ := newRunsLoop_ok h
  exact ⟨hwindow ▸ hp.window, hsettle ▸ hp.settle, by rw [hsettle, hwindow]; exact hv.settle,
    hbackfill ▸ hp.maxBackfill, hpages ▸ hp.maxPagesPerWindow, hpages ▸ hp.maxPagesPerWindow_le⟩

end GenaiBridge
