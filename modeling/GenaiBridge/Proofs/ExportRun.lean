/-
The log export advances only over windows it has read.

A run is a sequence of calls of `Collect` from the position in memory, each of which
may be written or not, with takeovers of the stored position in between.  Every step
keeps the cursor true to what was done of the window, phase by phase, and the step that
moves the time is the one that completes a window.
-/
import GenaiBridge.Proofs.ExportWindow
import GenaiBridge.Proofs.LogWindows

namespace GenaiBridge

/-! ### One step -/

namespace LogsExportLoop

variable {R : Type} {l : LogsExportLoop R} {h : List ExportAttempt} {t : Int}
  {prior c : ExportCursor} {w : Watermark}

/-- What a step leaves behind: a cursor that says what was done; the time as it was, or at the end of
a window that was read; and no offsets if it is the first step of a download. -/
structure Kept (l : LogsExportLoop R) (h : List ExportAttempt) (prior : ExportCursor) (t : Int)
    (w : Watermark) : Prop where
  cursor : l.CursorOk h w.time (decodeCursor w.cursor)
  time : w.time = t ∨ l.ReadUpTo h t w.time
  entry : (decodeCursor w.cursor).phase = .downloading → prior.phase ≠ .downloading →
    (decodeCursor w.cursor).pageOffsetDone = 0 ∧ (decodeCursor w.cursor).pageByteOffset = 0

private theorem kept_unchanged (hc : l.CursorOk h w.time (decodeCursor w.cursor)) :
    l.Kept h (decodeCursor w.cursor) w.time w :=
  ⟨hc, Or.inl rfl, fun hphase hne => absurd hphase hne⟩

private theorem kept_idle (htime : w.time = t ∨ l.ReadUpTo h t w.time)
    (hidle : (decodeCursor w.cursor).phase = .idle) : l.Kept h prior t w :=
  ⟨Or.inl hidle, htime, fun hphase => by simp [hidle] at hphase⟩

theorem decodeCursor_resetIdle (t : Int) :
    (decodeCursor (resetIdle t).cursor).phase = .idle := by
  show (decodeCursor (ExportCursor.encode _)).phase = .idle
  rw [decodeCursor_encode ⟨rfl, by decide, inInt64_zero, inInt64_zero, inInt64_zero, inInt64_zero,
    inInt64_zero⟩]

private theorem kept_reset : l.Kept h prior t (resetIdle t) :=
  kept_idle (Or.inl rfl) (decodeCursor_resetIdle t)

private theorem kept_advance (hwf : c.WellFormed) (hc : l.CursorOk h t c)
    (hentry : c.phase = .downloading → prior.phase ≠ .downloading →
      c.pageOffsetDone = 0 ∧ c.pageByteOffset = 0) :
    l.Kept h prior t (advanceCursor t c) := by
  have hdecode : decodeCursor (advanceCursor t c).cursor = c := decodeCursor_encode hwf
  exact ⟨by rw [hdecode]; exact hc, Or.inl rfl, by rw [hdecode]; exact hentry⟩

/-! #### The span of the window -/

theorem persistLifecycleLink_spec (env : ExportEnv) (w : Watermark) (prior : ExportCursor) :
    (persistLifecycleLink env w prior).time = w.time ∧
    ∃ traceID spanID, decodeCursor (persistLifecycleLink env w prior).cursor =
      { decodeCursor w.cursor with lifecycleTraceID := traceID, lifecycleSpanID := spanID } := by
  unfold persistLifecycleLink
  dsimp only
  split
  · exact ⟨rfl, _, _, rfl⟩
  · refine ⟨rfl, ?_⟩
    have hwf := decodeCursor_wellFormed w.cursor
    have hlink : ∀ traceID spanID, ({ decodeCursor w.cursor with
        lifecycleTraceID := traceID, lifecycleSpanID := spanID } : ExportCursor).WellFormed :=
      fun _ _ => ⟨hwf.phase, hwf.named, hwf.page, hwf.pages, hwf.totalRecords, hwf.pageOffsetDone,
        hwf.pageByteOffset⟩
    split
    · exact ⟨_, _, decodeCursor_encode (hlink _ _)⟩
    · exact ⟨_, _, decodeCursor_encode hwf⟩

/-- A call whose step stores a cursor, where no span is to be remembered. -/
theorem collect_of_step {env : ExportEnv} {since : Watermark} {c' : ExportCursor} {t' : Int}
    {calls : List ExportCall} {logs : List LogRecord} (hspan : env.span = none)
    (hfresh : lifecycleSpanContext env c = none) (hc : decodeCursor since.cursor = c)
    (hc' : c'.WellFormed)
    (hstep : l.step env since c = ⟨calls, .ok (logs, advanceCursor t' c')⟩) :
    l.collect env since = ⟨calls, .ok (logs, advanceCursor t' c')⟩ := by
  have hlink : persistLifecycleLink env (advanceCursor t' c') c = advanceCursor t' c' := by
    unfold persistLifecycleLink advanceCursor
    dsimp only
    rw [decodeCursor_encode hc', hspan, hfresh]
    split <;> rfl
  unfold collect
  dsimp only
  rw [hc, hstep]
  show ExportStep.mk calls (.ok (logs, persistLifecycleLink env (advanceCursor t' c') c)) = _
  rw [hlink]

private theorem CursorOk.link (hc : l.CursorOk h t c) (traceID spanID : String) :
    l.CursorOk h t { c with lifecycleTraceID := traceID, lifecycleSpanID := spanID } := by
  rcases hc with hidle | ⟨m, M, hbounds, htm, hmM, hphase⟩
  · exact Or.inl hidle
  · refine Or.inr ⟨m, M, hbounds, htm, hmM, hphase.imp_right fun hr => ?_⟩
    refine ⟨hr.page_nonneg, hr.page_lt, hr.sized, hr.pagesDone, ?_⟩
    cases hr.phase with
    | created phase offset bytes job => exact .created phase offset bytes job
    | polling phase offset bytes nonempty job => exact .polling phase offset bytes nonempty job
    | downloading phase nonempty a as sub job chunks =>
      exact .downloading phase nonempty a as sub job chunks

private theorem Kept.link (hk : l.Kept h prior t w) (env : ExportEnv) :
    l.Kept h prior t (persistLifecycleLink env w prior) := by
  obtain ⟨htime, traceID, spanID, hdecode⟩ := persistLifecycleLink_spec env w prior
  refine ⟨?_, by rw [htime]; exact hk.time, ?_⟩
  · rw [htime, hdecode]
    exact hk.cursor.link traceID spanID
  · rw [hdecode]
    exact hk.entry

/-! #### From phase to phase -/

variable {env : ExportEnv} {since : Watermark} {calls : List ExportCall} {logs : List LogRecord}
  {a : ExportAttempt}

private theorem windowBoundsFor_spec (hl : l.Accepted) (henv : l.EnvOk env) {winMin winMax : Int}
    (hb : l.windowBoundsFor t env.now = (winMin, winMax, true)) :
    t ≤ winMin ∧ 0 ≤ winMin ∧ winMin < winMax ∧ winMax ≤ env.now := by
  rw [windowBoundsFor_eq] at hb
  obtain ⟨rfl, hrest⟩ := Prod.mk.inj hb
  obtain ⟨rfl, hlt⟩ := Prod.mk.inj hrest
  obtain ⟨htm, h0, hnow⟩ := windowStart_spec hl.settle henv.backfill
  exact ⟨htm, h0, of_decide_eq_true hlt, hnow⟩

private theorem pages_spec (hl : l.Accepted) {total : Int} (hpos : 0 < total)
    (htotal : total < 2 ^ 62) :
    (wrap64 (total + l.pageSize - 1)).tdiv l.pageSize = (total + l.pageSize - 1) / l.pageSize ∧
    0 < (total + l.pageSize - 1) / l.pageSize ∧
    (total + l.pageSize - 1) / l.pageSize ≤ total := by
  have hsize := hl.pageSize
  have hmax := hl.pageSize_le
  unfold portkeyPageSizeMax at hmax
  have hwrap : wrap64 (total + l.pageSize - 1) = total + l.pageSize - 1 :=
    wrap64_of_mem (by unfold minInt64; omega) (by unfold maxInt64; omega)
  rw [hwrap, Int.tdiv_eq_ediv_of_nonneg (by omega)]
  refine ⟨rfl, ?_, Int.ediv_le_of_le_mul hsize ?_⟩
  · have := Int.le_ediv_of_mul_le hsize (show 1 * l.pageSize ≤ total + l.pageSize - 1 by omega)
    omega
  · nlinarith

private theorem newWindow_wellFormed {phase : Phase} {jobID winMin winMax : String}
    {pages total : Int} (hphase : Phase.ofName phase.name = phase) (hnamed : phase.name ≠ "")
    (hpages : 0 < pages ∧ pages ≤ total) (htotal : total < 2 ^ 62) :
    ({ phase, jobID, winMin, winMax, pages, totalRecords := total } : ExportCursor).WellFormed := by
  have hin : ∀ n, 0 < n → n ≤ total → InInt64 n := by
    intro n h0 h1
    unfold InInt64 minInt64 maxInt64
    omega
  exact ⟨hphase, hnamed, inInt64_zero, hin pages hpages.1 hpages.2,
    hin total (by omega) (le_refl _), inInt64_zero, inInt64_zero⟩

/-- **A new window**: nothing happens, it has no records, or its first job was created. -/
private theorem kept_stepIdle (hl : l.Accepted) (henv : l.EnvOk env)
    (hc : l.CursorOk h since.time (decodeCursor since.cursor))
    (hstep : l.stepIdle env since = ⟨calls, .ok (logs, w)⟩) (hlanded : a.landed = true)
    (hcalls : a.event.calls = calls) :
    l.Kept (h ++ [a]) (decodeCursor since.cursor) since.time w := by
  unfold stepIdle at hstep
  rcases hb : l.windowBoundsFor since.time env.now with ⟨winMin, winMax, settled⟩
  simp only [hb] at hstep
  cases settled with
  | false =>
    obtain ⟨-, hres⟩ := ExportStep.mk.inj hstep
    obtain ⟨-, rfl⟩ := Prod.mk.inj (Except.ok.inj hres)
    exact kept_unchanged (hc.mono a)
  | true =>
    obtain ⟨htm, h0, hlt, hnow⟩ := windowBoundsFor_spec hl henv hb
    simp only [Bool.not_true, Bool.false_eq_true, if_false, createExport] at hstep
    cases hcreate : env.create (l.exportRequest winMin winMax 0) with
    | error err =>
      simp only [hcreate] at hstep
      cases (ExportStep.mk.inj hstep).2
    | ok created =>
      obtain ⟨jobID, total⟩ := created
      simp only [hcreate] at hstep
      have hmem : ∀ {rest}, ExportCall.create winMin winMax 0 (.ok (jobID, total)) :: rest = calls →
          Reported (h ++ [a]) winMin winMax total := fun heq =>
        ⟨a, by simp, hlanded, jobID, by simp [hcalls, ← heq]⟩
      have htotal := henv.total _ _ _ hcreate
      split_ifs at hstep with hnone hlarge
      · -- no records: the time moves to the end of the window
        obtain ⟨hcs, hres⟩ := ExportStep.mk.inj hstep
        obtain ⟨-, rfl⟩ := Prod.mk.inj (Except.ok.inj hres)
        refine kept_idle (Or.inr ⟨winMin, htm, hlt, Or.inl ⟨total, ?_, hmem hcs⟩⟩) rfl
        by_contra hpos
        obtain ⟨hpages, hpos', -⟩ := pages_spec hl (not_le.mp hpos) htotal
        rcases hnone with hle | hzero
        · exact hpos hle
        · omega
      · obtain ⟨hpages, hpos, hle⟩ := pages_spec hl (by omega) htotal
        obtain ⟨-, hres⟩ := ExportStep.mk.inj hstep
        obtain ⟨-, rfl⟩ := Prod.mk.inj (Except.ok.inj hres)
        refine kept_advance ?_ (Or.inr ⟨winMin, winMax, ?_, htm, hlt, Or.inl rfl⟩) (by simp)
        · exact newWindow_wellFormed rfl (by simp [Phase.name]) (by rw [hpages]; omega) htotal
        · exact windowBounds_format h0 hlt hnow henv.year rfl rfl
      · obtain ⟨hpages, hpos, hle⟩ := pages_spec hl (by omega) htotal
        obtain ⟨hcs, hres⟩ := ExportStep.mk.inj hstep
        obtain ⟨-, rfl⟩ := Prod.mk.inj (Except.ok.inj hres)
        refine kept_advance ?_ (Or.inr ⟨winMin, winMax, ?_, htm, hlt, Or.inr ?_⟩) (by simp)
        · exact newWindow_wellFormed rfl (by simp [Phase.name]) (by rw [hpages]; omega) htotal
        · exact windowBounds_format h0 hlt hnow henv.year rfl rfl
        · refine ⟨le_refl _, by rw [hpages]; exact hpos, ⟨total, hmem hcs, by omega, hpages⟩,
            fun page h0 hlt => absurd hlt (not_lt.mpr h0), .created rfl rfl rfl fun _ => ?_⟩
          exact ⟨a, by simp, hlanded, total, by simp [hcalls, ← hcs]⟩

private theorem CursorOk.reading (hc : l.CursorOk h t c) (hidle : c.phase ≠ .idle)
    (hblocked : c.phase ≠ .blocked) :
    ∃ m M, c.windowBounds = some (m, M) ∧ t ≤ m ∧ m < M ∧ l.Reading h m M c := by
  rcases hc with h | ⟨m, M, hbounds, htm, hmM, h | hr⟩
  · exact absurd h hidle
  · exact absurd h hblocked
  · exact ⟨m, M, hbounds, htm, hmM, hr⟩

private theorem InPhase.of_created {m M : Int} (hp : InPhase h m M c) (hphase : c.phase = .created) :
    c.pageOffsetDone = 0 ∧ c.pageByteOffset = 0 ∧
      (c.jobID ≠ "" → ∃ a ∈ h, Creates m M c.page c.jobID a) := by
  cases hp with
  | created _ offset bytes job => exact ⟨offset, bytes, job⟩
  | polling phase => cases phase.symm.trans hphase
  | downloading phase => cases phase.symm.trans hphase

private theorem InPhase.of_polling {m M : Int} (hp : InPhase h m M c) (hphase : c.phase = .polling) :
    c.pageOffsetDone = 0 ∧ c.pageByteOffset = 0 ∧ c.jobID ≠ "" ∧
      ∃ a ∈ h, Creates m M c.page c.jobID a := by
  cases hp with
  | created phase => cases phase.symm.trans hphase
  | polling _ offset bytes nonempty job => exact ⟨offset, bytes, nonempty, job⟩
  | downloading phase => cases phase.symm.trans hphase

private theorem InPhase.of_downloading {m M : Int} (hp : InPhase h m M c)
    (hphase : c.phase = .downloading) :
    c.jobID ≠ "" ∧ ∃ b as, (b :: as).Sublist h ∧ Creates m M c.page c.jobID b ∧
      Chunks c.jobID as c.pageOffsetDone c.pageByteOffset := by
  cases hp with
  | created phase => cases phase.symm.trans hphase
  | polling phase => cases phase.symm.trans hphase
  | downloading _ nonempty b as sub job chunks => exact ⟨nonempty, b, as, sub, job, chunks⟩

/-- A blocked window: the next call finds another one. -/
private theorem kept_stepBlocked (hstep : l.stepBlocked env since c = ⟨calls, .ok (logs, w)⟩) :
    l.Kept h prior since.time w := by
  unfold stepBlocked at hstep
  dsimp only at hstep
  split at hstep
  · cases (ExportStep.mk.inj hstep).2
  · obtain ⟨-, hres⟩ := ExportStep.mk.inj hstep
    obtain ⟨-, rfl⟩ := Prod.mk.inj (Except.ok.inj hres)
    exact kept_reset

/-- The job of the page was created: the cursor holds it. -/
private theorem kept_jobCreated (hwf : c.WellFormed) (hphase : c.phase = .created) {m M : Int}
    (hbounds : c.windowBounds = some (m, M)) (htm : t ≤ m) (hmM : m < M) (hr : l.Reading h m M c)
    {jobID : String} (hjob : ∃ b ∈ h, Creates m M c.page jobID b) :
    l.Kept h c t (advanceCursor t { c with jobID }) := by
  obtain ⟨hoffset, hbytes, -⟩ := hr.phase.of_created hphase
  refine kept_advance ?_ (Or.inr ⟨m, M, hbounds, htm, hmM, Or.inr ?_⟩) ?_
  · exact ⟨hwf.phase, hwf.named, hwf.page, hwf.pages, hwf.totalRecords, hwf.pageOffsetDone,
      hwf.pageByteOffset⟩
  · exact ⟨hr.page_nonneg, hr.page_lt, hr.sized, hr.pagesDone,
      .created hphase hoffset hbytes fun _ => hjob⟩
  · intro hdown
    exact absurd (hphase.symm.trans hdown) (by simp)

/-- The job of the page was started. -/
private theorem kept_started (hwf : c.WellFormed) (hphase : c.phase = .created) {m M : Int}
    (hbounds : c.windowBounds = some (m, M)) (htm : t ≤ m) (hmM : m < M) (hr : l.Reading h m M c)
    (hjob : c.jobID ≠ "") : l.Kept h c t (advanceCursor t (l.startedCursor env c)) := by
  obtain ⟨hoffset, hbytes, hcreated⟩ := hr.phase.of_created hphase
  refine kept_advance ?_ (Or.inr ⟨m, M, hbounds, htm, hmM, Or.inr ?_⟩) ?_
  · exact ⟨rfl, by simp [startedCursor, Phase.name], hwf.page, hwf.pages, hwf.totalRecords,
      hwf.pageOffsetDone, hwf.pageByteOffset⟩
  · exact ⟨hr.page_nonneg, hr.page_lt, hr.sized, hr.pagesDone,
      .polling rfl hoffset hbytes hjob (hcreated hjob)⟩
  · intro hdown
    cases hdown

/-- **A page to be created or started.** -/
private theorem kept_stepCreated (hwf : c.WellFormed) (hphase : c.phase = .created)
    (hc : l.CursorOk h since.time c) (hstep : l.stepCreated env since c = ⟨calls, .ok (logs, w)⟩)
    (hlanded : a.landed = true) (hcalls : a.event.calls = calls) :
    l.Kept (h ++ [a]) c since.time w := by
  obtain ⟨m, M, hbounds, htm, hmM, hr⟩ :=
    hc.reading (by rw [hphase]; simp) (by rw [hphase]; simp)
  replace hr := hr.mono a
  unfold stepCreated at hstep
  split at hstep
  · simp only [hbounds, createExport] at hstep
    cases hcreate : env.create (l.exportRequest m M c.page) with
    | error err =>
      simp only [hcreate] at hstep
      cases (ExportStep.mk.inj hstep).2
    | ok created =>
      obtain ⟨jobID, total⟩ := created
      simp only [hcreate] at hstep
      obtain ⟨hcs, hres⟩ := ExportStep.mk.inj hstep
      obtain ⟨-, rfl⟩ := Prod.mk.inj (Except.ok.inj hres)
      refine kept_jobCreated hwf hphase hbounds htm hmM hr
        ⟨a, by simp, hlanded, total, ?_⟩
      rw [hcalls, ← hcs]
      exact List.mem_cons_self
  · rename_i hjob
    have hkept := @kept_started _ l (h ++ [a]) since.time c env hwf hphase m M hbounds htm hmM hr
      hjob
    dsimp only at hstep
    split at hstep
    · obtain ⟨-, hres⟩ := ExportStep.mk.inj hstep
      obtain ⟨-, rfl⟩ := Prod.mk.inj (Except.ok.inj hres)
      exact hkept
    · split at hstep
      · cases (ExportStep.mk.inj hstep).2
      · cases (ExportStep.mk.inj hstep).2
      · obtain ⟨-, hres⟩ := ExportStep.mk.inj hstep
        obtain ⟨-, rfl⟩ := Prod.mk.inj (Except.ok.inj hres)
        exact hkept

theorem stepPolling_ok (hstep : stepPolling env since c = ⟨calls, .ok (logs, w)⟩) :
    w = advanceCursor since.time { c with phase := .downloading, pageOffsetDone := 0 } ∨
    w = advanceCursor since.time { c with phase := .created } ∨
    w = since ∨ w = resetIdle since.time := by
  unfold stepPolling at hstep
  dsimp only at hstep
  repeat' split at hstep
  all_goals
    obtain ⟨-, hres⟩ := ExportStep.mk.inj hstep
    simp only [Except.ok.injEq, Prod.mk.injEq, reduceCtorEq] at hres
  all_goals simp [hres.2]

/-- **A job in progress**: it goes on, its object can be downloaded, or it is given up. -/
private theorem kept_stepPolling (hwf : c.WellFormed) (hcur : decodeCursor since.cursor = c)
    (hphase : c.phase = .polling) (hc : l.CursorOk h since.time c)
    (hstep : stepPolling env since c = ⟨calls, .ok (logs, w)⟩) :
    l.Kept (h ++ [a]) c since.time w := by
  obtain ⟨m, M, hbounds, htm, hmM, hr⟩ :=
    hc.reading (by rw [hphase]; simp) (by rw [hphase]; simp)
  replace hr := hr.mono a
  obtain ⟨hoffset, hbytes, hjob, b, hb, hcreates⟩ := hr.phase.of_polling hphase
  rcases stepPolling_ok hstep with rfl | rfl | rfl | rfl
  · -- the object is downloaded from its start
    have hchunks : Chunks c.jobID [] 0 c.pageByteOffset := by
      rw [hbytes]
      exact .none
    refine kept_advance ?_ (Or.inr ⟨m, M, hbounds, htm, hmM, Or.inr ?_⟩) fun _ _ => ⟨rfl, hbytes⟩
    · exact ⟨rfl, by simp [Phase.name], hwf.page, hwf.pages, hwf.totalRecords, inInt64_zero,
        hwf.pageByteOffset⟩
    · exact ⟨hr.page_nonneg, hr.page_lt, hr.sized, hr.pagesDone,
        .downloading rfl hjob b [] (List.singleton_sublist.mpr hb) hcreates hchunks⟩
  · -- the start of the job was lost
    refine kept_advance ?_ (Or.inr ⟨m, M, hbounds, htm, hmM, Or.inr ?_⟩) fun hdown => by cases hdown
    · exact ⟨rfl, by simp [Phase.name], hwf.page, hwf.pages, hwf.totalRecords, hwf.pageOffsetDone,
        hwf.pageByteOffset⟩
    · exact ⟨hr.page_nonneg, hr.page_lt, hr.sized, hr.pagesDone,
        .created rfl hoffset hbytes fun _ => ⟨b, hb, hcreates⟩⟩
  · rw [← hcur]
    exact kept_unchanged (hcur ▸ hc.mono a)
  · exact kept_reset

/-- A step of the download that succeeds downloads one chunk. -/
theorem stepDownloading_ok {m M : Int} (hbounds : c.windowBounds = some (m, M))
    (hstep : l.stepDownloading env since c = ⟨calls, .ok (logs, w)⟩) :
    ∃ url chunk, logs = chunk.recs ∧
      calls = [.downloadURL c.jobID (.ok url),
        .downloadChunk url c.pageOffsetDone c.pageByteOffset (.ok chunk)] ∧
      ((∃ c', chunkedCursor c chunk = some c' ∧ w = advanceCursor since.time c') ∨
        chunkedCursor c chunk = none ∧ w = { time := M }) := by
  unfold stepDownloading at hstep
  simp only [hbounds] at hstep
  split at hstep
  · cases (ExportStep.mk.inj hstep).2
  · rename_i url hurl
    split at hstep
    · cases (ExportStep.mk.inj hstep).2
    · split at hstep
      · cases (ExportStep.mk.inj hstep).2
      · split at hstep
        · cases (ExportStep.mk.inj hstep).2
        · rename_i chunk hchunk
          rw [hurl, hchunk] at hstep
          split at hstep
          · rename_i c' hc'
            obtain ⟨hcs, hres⟩ := ExportStep.mk.inj hstep
            obtain ⟨hlogs, hw⟩ := Prod.mk.inj (Except.ok.inj hres)
            exact ⟨url, chunk, hlogs.symm, hcs.symm, Or.inl ⟨c', hc', hw.symm⟩⟩
          · rename_i hnone
            obtain ⟨hcs, hres⟩ := ExportStep.mk.inj hstep
            obtain ⟨hlogs, hw⟩ := Prod.mk.inj (Except.ok.inj hres)
            exact ⟨url, chunk, hlogs.symm, hcs.symm, Or.inr ⟨hnone, hw.symm⟩⟩

/-- **A chunk of the page**: the page goes on, the next one is to be created, or the window is
complete. -/
private theorem kept_stepDownloading (hwf : c.WellFormed) (hphase : c.phase = .downloading)
    (hc : l.CursorOk h since.time c)
    (hstep : l.stepDownloading env since c = ⟨calls, .ok (logs, w)⟩) (hlanded : a.landed = true)
    (hcalls : a.event.calls = calls) (hlogs : a.event.logs = logs) :
    l.Kept (h ++ [a]) c since.time w := by
  obtain ⟨m, M, hbounds, htm, hmM, hr⟩ :=
    hc.reading (by rw [hphase]; simp) (by rw [hphase]; simp)
  obtain ⟨hjob, b, as, hsub, hcreates, hchunks⟩ := hr.phase.of_downloading hphase
  obtain ⟨url, chunk, hrecs, hcs, hnext⟩ := stepDownloading_ok hbounds hstep
  have hreads : Reads c.jobID c.pageOffsetDone c.pageByteOffset chunk a :=
    ⟨hlanded, hlogs.trans hrecs, url, hcalls.trans hcs⟩
  have hsub' : (b :: (as ++ [a])).Sublist (h ++ [a]) :=
    (hsub.append (List.Sublist.refl [a]) : ((b :: as) ++ [a]).Sublist (h ++ [a]))
  replace hr := hr.mono a
  -- with this chunk the page is done, if it is the last one
  have hdone : chunk.eof = true → ∀ page, 0 ≤ page → page < c.page + 1 →
      PageDone (h ++ [a]) m M page := by
    intro heof page h0 hlt
    by_cases hpage : page < c.page
    · exact hr.pagesDone page h0 hpage
    · obtain rfl : page = c.page := by omega
      exact ⟨c.jobID, b, as, a, _, _, chunk, hsub', hcreates, hchunks, hreads, heof⟩
  rcases hnext with ⟨c', hc', rfl⟩ | ⟨hnone, rfl⟩
  · have hwf' := chunkedCursor_wellFormed hwf hc'
    rcases chunkedCursor_cases c chunk with ⟨hmore, heq⟩ | ⟨heof, hlt, heq⟩ | ⟨-, -, heq⟩
    · obtain rfl := Option.some.inj (heq.symm.trans hc')
      refine kept_advance hwf' (Or.inr ⟨m, M, hbounds, htm, hmM, Or.inr ?_⟩)
        fun _ hne => absurd hphase hne
      exact ⟨hr.page_nonneg, hr.page_lt, hr.sized, hr.pagesDone,
        .downloading hphase hjob b (as ++ [a]) hsub' hcreates (.more hchunks hreads hmore)⟩
    · obtain rfl := Option.some.inj (heq.symm.trans hc')
      refine kept_advance hwf' (Or.inr ⟨m, M, hbounds, htm, hmM, Or.inr ?_⟩)
        fun hdown => by cases hdown
      have hnonneg := hr.page_nonneg
      exact ⟨by dsimp only; omega, hlt, hr.sized, hdone heof,
        .created rfl rfl rfl fun hne => absurd rfl hne⟩
    · cases heq.symm.trans hc'
  · rcases chunkedCursor_cases c chunk with ⟨-, heq⟩ | ⟨-, -, heq⟩ | ⟨heof, hle, -⟩
    · cases heq.symm.trans hnone
    · cases heq.symm.trans hnone
    · refine kept_idle (Or.inr ⟨m, htm, hmM, Or.inr ⟨c.pages, hr.sized, ?_, ?_⟩⟩) rfl
      · have h0 := hr.page_nonneg
        have hlt := hr.page_lt
        omega
      · intro page h0 hlt
        exact hdone heof page h0 (by omega)

/-- **Every call of `Collect` keeps the cursor true**, whatever its phase. -/
theorem kept_collect (hl : l.Accepted) (henv : l.EnvOk env)
    (hc : l.CursorOk h since.time (decodeCursor since.cursor))
    (hcollect : l.collect env since = ⟨calls, .ok (logs, w)⟩) (hlanded : a.landed = true)
    (hcalls : a.event.calls = calls) (hlogs : a.event.logs = logs) :
    l.Kept (h ++ [a]) (decodeCursor since.cursor) since.time w := by
  unfold collect at hcollect
  obtain ⟨hcs, hres⟩ := ExportStep.mk.inj hcollect
  rcases hstep : l.step env since (decodeCursor since.cursor) with ⟨calls', result⟩
  rw [hstep] at hcs hres
  obtain rfl : calls' = calls := hcs
  cases result with
  | error err => cases hres
  | ok r =>
    obtain ⟨logs', w'⟩ := r
    obtain ⟨rfl, rfl⟩ := Prod.mk.inj (Except.ok.inj hres)
    refine Kept.link ?_ env
    have hwf := decodeCursor_wellFormed since.cursor
    unfold step at hstep
    split at hstep
    · exact kept_stepCreated hwf ‹_› hc hstep hlanded hcalls
    · exact kept_stepPolling hwf rfl ‹_› hc hstep
    · exact kept_stepDownloading hwf ‹_› hc hstep hlanded hcalls hlogs
    · exact kept_stepBlocked hstep
    · exact kept_stepIdle hl henv hc hstep hlanded hcalls
    · exact kept_stepIdle hl henv hc hstep hlanded hcalls

/-! ### Runs -/

/-- A cursor as it is kept: idle, or a window whose bounds can be read, with a page in flight that
is one of its pages. -/
def Persisted (c : ExportCursor) : Prop :=
  c.phase = .idle ∨
    ∃ m M, c.windowBounds = some (m, M) ∧ m < M ∧
      (c.phase = .blocked ∨
        0 ≤ c.page ∧ c.page < c.pages ∧
        (c.phase = .polling ∨ c.phase = .downloading → c.jobID ≠ "") ∧
        (c.phase ≠ .downloading → c.pageOffsetDone = 0 ∧ c.pageByteOffset = 0))

/-- A change of position: the time stands still or moves to the end of a window that was read, and a
download starts without offsets. -/
structure Moved (l : LogsExportLoop R) (h : List ExportAttempt) (p q : Position) : Prop where
  time : q.time = p.time ∨ l.ReadUpTo h p.time q.time
  entry : (decodeCursor q.cursor).phase = .downloading →
    (decodeCursor p.cursor).phase ≠ .downloading →
    (decodeCursor q.cursor).pageOffsetDone = 0 ∧ (decodeCursor q.cursor).pageByteOffset = 0

theorem CursorOk.persisted (hc : l.CursorOk h t c) : Persisted c := by
  rcases hc with hidle | ⟨m, M, hbounds, -, hmM, hblocked | hr⟩
  · exact Or.inl hidle
  · exact Or.inr ⟨m, M, hbounds, hmM, Or.inl hblocked⟩
  · refine Or.inr ⟨m, M, hbounds, hmM, Or.inr ⟨hr.page_nonneg, hr.page_lt, ?_, ?_⟩⟩
    · rintro (hpolling | hdownloading)
      · exact (hr.phase.of_polling hpolling).2.2.1
      · exact (hr.phase.of_downloading hdownloading).1
    · intro hne
      cases hr.phase with
      | created _ offset bytes => exact ⟨offset, bytes⟩
      | polling _ offset bytes => exact ⟨offset, bytes⟩
      | downloading phase => exact absurd phase hne

theorem Moved.mono {p q : Position} (hm : l.Moved h p q) (a : ExportAttempt) :
    l.Moved (h ++ [a]) p q :=
  ⟨hm.time.imp_right fun hr => hr.mono a, hm.entry⟩

private theorem Moved.time_le {p q : Position} (hm : l.Moved h p q) : p.time ≤ q.time := by
  rcases hm.time with heq | ⟨m, htm, hmw, -⟩ <;> omega

theorem kept_proposes (hl : l.Accepted) {p q : Position} {e : ExportEvent}
    (hc : l.CursorOk h p.time (decodeCursor p.cursor)) (hp : l.Proposes l.EnvOk p e q) :
    l.CursorOk (h ++ [⟨p, e, q, true⟩]) q.time (decodeCursor q.cursor) ∧
      l.Moved (h ++ [⟨p, e, q, true⟩]) p q := by
  obtain ⟨env, since, w, henv, rfl, rfl, hcollect⟩ := hp
  have hkept := @kept_collect _ l h w env since _ _ ⟨since.position, e, w.position, true⟩ hl henv hc
    hcollect rfl rfl rfl
  exact ⟨hkept.cursor, hkept.time, hkept.entry⟩

/-- **The log export advances only over windows it has read.**  From any time and an empty cursor,
through any answers, failed or unseen writes and takeovers of the stored position: the time stands
still or moves to the end of a window that has no records or all of whose pages were read; it never
goes back; the stored cursor is one that can be gone on from. -/
theorem export_reads_every_window {parseDuration : String → Option Int} {sourceInstance : String}
    {allowPrivate : Bool} {lp : LoopConfig} {uc : ResolvedUseCase}
    {policy : LogsSettings → LinePolicy R}
    (haccepted : newLogsExportLoop parseDuration sourceInstance allowPrivate lp uc policy = .ok l)
    (t₀ : Int) {s s' : Lib.Checkpointed Position ExportEvent}
    (hrun : Lib.Checkpointed.Run (l.Proposes l.EnvOk) Position.admits (.start ⟨t₀, ""⟩) s)
    (hstep : Lib.Checkpointed.Step (l.Proposes l.EnvOk) Position.admits s s') :
    (s'.memory = s.memory ∨ l.Moved s'.history s.memory s'.memory) ∧
    (s'.stored = s.stored ∨ l.Moved s'.history s.memory s'.stored) ∧
    s.memory.time ≤ s'.memory.time ∧ s.stored.time ≤ s'.stored.time ∧
    Persisted (decodeCursor s'.memory.cursor) ∧ Persisted (decodeCursor s'.stored.cursor) := by
  have hl := accepted_newLogsExportLoop haccepted
  have init : l.CursorOk [] (⟨t₀, ""⟩ : Position).time (decodeCursor "") := Or.inl rfl
  have hmemory := Lib.Checkpointed.Run.moves
    (P := fun h p => l.CursorOk h p.time (decodeCursor p.cursor)) (M := l.Moved) init
    (fun hc => hc.mono _) (fun hc hp => (kept_proposes hl hc hp).1) (fun hm => hm.mono _)
    (fun hc hp => (kept_proposes hl hc hp).2) hrun hstep
  have hstored := Lib.Checkpointed.Run.stored_moves
    (P := fun h p => l.CursorOk h p.time (decodeCursor p.cursor)) (M := l.Moved) init
    (fun hc => hc.mono _) (fun hc hp => (kept_proposes hl hc hp).1)
    (fun hc hp => (kept_proposes hl hc hp).2) hrun hstep
  have hcursors := Lib.Checkpointed.Run.holds
    (P := fun h p => l.CursorOk h p.time (decodeCursor p.cursor)) init
    (fun hc => hc.mono _) (fun hc hp => (kept_proposes hl hc hp).1) (hrun.tail hstep)
  refine ⟨hmemory, hstored, ?_, stored_time_le_of_step hstep, hcursors.1.persisted,
    hcursors.2.persisted⟩
  rcases hmemory with heq | hmoved
  · rw [heq]
  · exact hmoved.time_le

/-! ### The default settings -/

/-- A configuration with the default settings. -/
def defaultExport : LoopConfig :=
  { enabled := true, cadence := minute, window := 0, bucketSettle := 0, bootstrapLookback := 0
    maxBackfill := 0, graphs := [], metricPrefix := ""
    settings := ⟨[("signed_url_allow_hosts", "objects"), ("workspace_id", "ws")], by decide⟩ }

/-- The loop it builds, for a policy that reads no line. -/
def defaultLoop : LogsExportLoop Empty :=
  { sourceInstance := "portkey"
    workspaceID := "ws"
    window := hour
    settle := 10 * minute
    maxBackfill := 24 * hour
    pageSize := 50000
    maxPagesPerWindow := 50
    chunkMaxRecords := 5000
    downloader :=
      { downloadMaxBytes := 0, maxLineBytes := 0
        policy := ⟨fun _ => none, fun r _ => r.elim, ""⟩ }
    allowPrivate := false
    jobPollTimeout := 30 * minute
    requestedData := mergeSortedUnique [defaultLogsSettings.requestedData, ["cache_status"], [], [""]]
    signedURLAllowHosts := ["objects"]
    indexed := defaultIndexedFields
    useCase := ""
    apiKeyIDs := "" }

theorem defaultLoop_accepted :
    newLogsExportLoop (fun _ => none) "portkey" false defaultExport ⟨"", ""⟩
      (fun _ => defaultLoop.downloader.policy) = .ok defaultLoop := by
  have happly : applyLogsSettings (fun _ => none) defaultLogsSettings defaultExport.settings =
      .ok { defaultLogsSettings with signedURLAllowHosts := ["objects"], workspaceID := "ws" } := by
    decide +kernel
  unfold newLogsExportLoop
  rw [if_neg (by decide), happly]
  rfl

/-- An API that finds no records. -/
def emptyEnv (now : Int) : ExportEnv :=
  { now
    nowStarted := now
    create := fun _ => .ok ("job", 0)
    start := fun _ => .error (.status 500)
    poll := fun _ => .error (.status 500)
    downloadURL := fun _ => .error (.status 500)
    cancel := fun _ => .error (.status 500)
    parseURL := fun _ => .error ""
    get := fun _ _ => .failed ""
    span := none
    spanFromHex := fun _ _ => none
    casing := ⟨Char.toLower, Char.toLower⟩ }

/-! ### A page in two chunks -/

/-- A step that downloads a chunk. -/
theorem stepDownloading_chunk {env : ExportEnv} {since : Watermark} {m M : Int} {url : String}
    {chunk : Chunk} (hbounds : c.windowBounds = some (m, M))
    (hminted : env.downloadURL c.jobID = .ok url) (hne : url ≠ "")
    (hvalid : l.validateSignedURLHost env.casing (env.parseURL url) = .ok ())
    (hchunk : l.downloader.downloadChunk (env.get url c.pageByteOffset) c.pageOffsetDone
      c.pageByteOffset l.chunkMaxRecords M = .ok chunk) :
    l.stepDownloading env since c =
      ⟨[.downloadURL c.jobID (.ok url),
          .downloadChunk url c.pageOffsetDone c.pageByteOffset (.ok chunk)],
        .ok (chunk.recs, match chunkedCursor c chunk with
          | some c' => advanceCursor since.time c'
          | none => { time := M })⟩ := by
  unfold stepDownloading
  rw [hbounds, hminted]
  dsimp only
  rw [if_neg hne, hvalid]
  dsimp only
  rw [hchunk]
  dsimp only
  cases chunkedCursor c chunk with
  | some c' => rfl
  | none => rfl

/-- Noon of 2026-06-01. -/
def noon : Int := 63915912000000000000

/-- A configuration with chunks of two records. -/
def pagedExport : LoopConfig :=
  { defaultExport with
    settings := ⟨[("chunk_max_records", "2"), ("signed_url_allow_hosts", "objects"),
      ("workspace_id", "ws")], by decide⟩ }

/-- A line is the body of its record. -/
def plainLines : LinePolicy (List UInt8) :=
  { unmarshal := some
    strip := fun line ts =>
      ⟨ts, String.ofList (line.map fun b => Char.ofNat b.toNat), "", .empty, .empty, []⟩
    traceIDAttrKey := "" }

/-- The loop it builds. -/
def pagedLoop : LogsExportLoop (List UInt8) :=
  { defaultLoop with
    chunkMaxRecords := 2
    downloader := { downloadMaxBytes := 0, maxLineBytes := 0, policy := plainLines } }

theorem pagedLoop_accepted :
    newLogsExportLoop (fun _ => none) "portkey" false pagedExport ⟨"", ""⟩ (fun _ => plainLines) =
      .ok pagedLoop := by
  have happly : applyLogsSettings (fun _ => none) defaultLogsSettings pagedExport.settings =
      .ok { defaultLogsSettings with
        chunkMaxRecords := 2, signedURLAllowHosts := ["objects"], workspaceID := "ws" } := by
    decide +kernel
  unfold newLogsExportLoop
  rw [if_neg (by decide), happly]
  rfl

/-- An API that has a page of the lines `a`, `b` and `c` for every window, and honours one range. -/
def pageEnv (now : Int) : ExportEnv :=
  { emptyEnv now with
    create := fun _ => .ok ("job", 3)
    start := fun _ => .ok ()
    poll := fun _ => .ok .success
    downloadURL := fun _ => .ok "https://objects/page"
    parseURL := fun _ => .ok ("https", "objects")
    get := fun _ byteOffset =>
      if byteOffset = 4 then .answered 206 "bytes 4-5/6" ⟨[[99, 10]], by decide, .eof, false⟩
      else .answered 200 "" ⟨[[97, 10, 98, 10, 99, 10]], by decide, .eof, false⟩ }

theorem envOk_pageEnv {now : Int} (hnow : noon ≤ now ∧ now ≤ noon + 24 * hour) :
    pagedLoop.EnvOk (pageEnv now) := by
  have hlast : Lib.Rfc3339.year (noon + 24 * hour) ≤ 9999 := by decide +kernel
  refine ⟨(Lib.Rfc3339.year_mono hnow.2).trans hlast, ?_, ?_⟩
  · exact (by decide : pagedLoop.maxBackfill ≤ noon).trans hnow.1
  · rintro request jobID total h
    cases h
    decide

/-- The cursor of the window from noon on, at a phase and after some lines and bytes of its page. -/
def pageCursor (phase : Phase) (pollDeadline : String) (lines bytes : Int) : ExportCursor :=
  { phase, jobID := "job", winMin := formatCursorTime noon, winMax := formatCursorTime (noon + hour)
    pages := 1, totalRecords := 3, pageOffsetDone := lines, pageByteOffset := bytes, pollDeadline }

section

variable {phase : Phase} {pollDeadline : String} {now : Int}

theorem windowBounds_pageCursor {lines bytes : Int} :
    (pageCursor phase pollDeadline lines bytes).windowBounds = some (noon, noon + hour) := by
  have hmin : parseCursorTime (formatCursorTime noon) = some noon :=
    parse_formatCursorTime (by decide +kernel) (by decide +kernel)
  have hmax : parseCursorTime (formatCursorTime (noon + hour)) = some (noon + hour) :=
    parse_formatCursorTime (by decide +kernel) (by decide +kernel)
  unfold ExportCursor.windowBounds pageCursor
  rw [hmin, hmax]

theorem pageCursor_wellFormed {lines bytes : Int} (hphase : Phase.ofName phase.name = phase)
    (hnamed : phase.name ≠ "") (hlines : InInt64 lines) (hbytes : InInt64 bytes) :
    (pageCursor phase pollDeadline lines bytes).WellFormed :=
  ⟨hphase, hnamed, inInt64_zero, show InInt64 1 from ⟨by decide, by decide⟩,
    show InInt64 3 from ⟨by decide, by decide⟩, hlines, hbytes⟩

end

/-- The record of a line. -/
def pageRecord (body : String) : LogRecord := ⟨noon + hour, body, "", .empty, .empty, []⟩

/-- The chunks of the page. -/
def chunkAB : Chunk :=
  ⟨[.record (pageRecord "a") false, .record (pageRecord "b") false], 2, 4, false⟩

def chunkC : Chunk := ⟨[.record (pageRecord "c") false], 1, 6, true⟩

/-- The calls for a chunk. -/
def chunkCalls (lines bytes : Int) (chunk : Chunk) : List ExportCall :=
  [.downloadURL "job" (.ok "https://objects/page"),
    .downloadChunk "https://objects/page" lines bytes (.ok chunk)]

private theorem wellFormed_page {phase : Phase} (h : phase = .created ∨ phase = .polling ∨ phase = .downloading)
    (pollDeadline : String) :
    (pageCursor phase pollDeadline 0 0).WellFormed := by
  rcases h with rfl | rfl | rfl <;>
    exact pageCursor_wellFormed rfl (by decide) inInt64_zero inInt64_zero

private theorem wellFormed_halfPage (pollDeadline : String) :
    (pageCursor .downloading pollDeadline 2 4).WellFormed :=
  pageCursor_wellFormed rfl (by decide) ⟨by decide, by decide⟩ ⟨by decide, by decide⟩

/-- **The calls of `Collect` that read the page**: one creates its job, one starts it, one finds it
done, and two download it. -/
theorem collect_pageEnv (now pollDeadline) :
    pagedLoop.collect (pageEnv (noon + 3 * hour)) { time := noon } =
      ⟨[.create noon (noon + hour) 0 (.ok ("job", 3))],
        .ok ([], advanceCursor noon (pageCursor .created "" 0 0))⟩ ∧
    pagedLoop.collect (pageEnv now) (advanceCursor noon (pageCursor .created "" 0 0)) =
      ⟨[.start "job" (.ok ())],
        .ok ([], advanceCursor noon (pageCursor .polling (formatCursorTime (now + 30 * minute)) 0 0))⟩ ∧
    pagedLoop.collect (pageEnv now) (advanceCursor noon (pageCursor .polling pollDeadline 0 0)) =
      ⟨[.poll "job" (.ok .success)],
        .ok ([], advanceCursor noon (pageCursor .downloading pollDeadline 0 0))⟩ ∧
    pagedLoop.collect (pageEnv now) (advanceCursor noon (pageCursor .downloading pollDeadline 0 0)) =
      ⟨chunkCalls 0 0 chunkAB,
        .ok (chunkAB.recs, advanceCursor noon (pageCursor .downloading pollDeadline 2 4))⟩ ∧
    pagedLoop.collect (pageEnv now) (advanceCursor noon (pageCursor .downloading pollDeadline 2 4)) =
      ⟨chunkCalls 2 4 chunkC, .ok (chunkC.recs, { time := noon + hour })⟩ := by
  have hdecode : ∀ {c : ExportCursor}, c.WellFormed → decodeCursor (advanceCursor noon c).cursor = c :=
    decodeCursor_encode
  -- the answers to a download do not depend on the clock
  have hhost : pagedLoop.validateSignedURLHost (pageEnv 0).casing (.ok ("https", "objects")) =
      .ok () := by
    decide +kernel
  have hfirst : pagedLoop.downloader.downloadChunk ((pageEnv 0).get "https://objects/page" 0) 0 0 2
      (noon + hour) = .ok chunkAB := by
    decide +kernel
  have hsecond : pagedLoop.downloader.downloadChunk ((pageEnv 0).get "https://objects/page" 4) 2 4 2
      (noon + hour) = .ok chunkC := by
    decide +kernel
  refine ⟨?_, ?_, ?_, ?_, ?_⟩
  · refine collect_of_step rfl rfl rfl (wellFormed_page (Or.inl rfl) _) ?_
    rfl
  · exact collect_of_step rfl rfl (hdecode (wellFormed_page (Or.inl rfl) _))
      (wellFormed_page (Or.inr (Or.inl rfl)) _) rfl
  · exact collect_of_step rfl rfl (hdecode (wellFormed_page (Or.inr (Or.inl rfl)) _))
      (wellFormed_page (Or.inr (Or.inr rfl)) _) rfl
  · exact collect_of_step rfl rfl (hdecode (wellFormed_page (Or.inr (Or.inr rfl)) _))
      (wellFormed_halfPage _)
      (stepDownloading_chunk windowBounds_pageCursor rfl (by decide) hhost hfirst)
  · unfold collect
    dsimp only
    have hstep : pagedLoop.step (pageEnv now)
        (advanceCursor noon (pageCursor .downloading pollDeadline 2 4))
        (pageCursor .downloading pollDeadline 2 4) =
        ⟨chunkCalls 2 4 chunkC, .ok (chunkC.recs, { time := noon + hour })⟩ :=
      stepDownloading_chunk windowBounds_pageCursor rfl (by decide) hhost hsecond
    rw [hdecode (wellFormed_halfPage _), hstep]
    rfl

/-- The text the poll deadline has after the job was started at one past three. -/
def pageDeadline : String := formatCursorTime (noon + 3 * hour + minute + 30 * minute)

/-- The positions the page goes through, with the calls that lead to them. -/
def pageTrail : List (ExportEvent × Position) :=
  [(⟨[.create noon (noon + hour) 0 (.ok ("job", 3))], []⟩,
      ⟨noon, (pageCursor .created "" 0 0).encode⟩),
    (⟨[.start "job" (.ok ())], []⟩, ⟨noon, (pageCursor .polling pageDeadline 0 0).encode⟩),
    (⟨[.poll "job" (.ok .success)], []⟩, ⟨noon, (pageCursor .downloading pageDeadline 0 0).encode⟩),
    (⟨chunkCalls 0 0 chunkAB, chunkAB.recs⟩,
      ⟨noon, (pageCursor .downloading pageDeadline 2 4).encode⟩),
    (⟨chunkCalls 2 4 chunkC, chunkC.recs⟩, ⟨noon + hour, ""⟩)]

/-- **The page is read by calls at three, one past three, and so on.** -/
theorem trail_page :
    Lib.Checkpointed.Trail (pagedLoop.Proposes pagedLoop.EnvOk) Position.admits ⟨noon, ""⟩
      pageTrail := by
  have hclock : ∀ k : Int, 0 ≤ k ∧ k ≤ 4 → pagedLoop.EnvOk (pageEnv (noon + 3 * hour + k * minute)) := by
    intro k hk
    apply envOk_pageEnv
    unfold hour minute
    omega
  have hnext : ∀ {c c' : ExportCursor}, c.WellFormed → c'.WellFormed → c' ≠ c →
      Position.admits ⟨noon, c.encode⟩ ⟨noon, c'.encode⟩ := by
    intro c c' hc hc' hne
    refine Or.inr ⟨rfl, fun heq => hne ?_⟩
    rw [← decodeCursor_encode hc, ← decodeCursor_encode hc', show c'.encode = c.encode from heq]
  obtain ⟨hcreate, hstart, -, -, -⟩ := collect_pageEnv (noon + 3 * hour + 1 * minute) ""
  have hpoll := (collect_pageEnv (noon + 3 * hour + 2 * minute) pageDeadline).2.2.1
  have hfirst := (collect_pageEnv (noon + 3 * hour + 3 * minute) pageDeadline).2.2.2.1
  have hsecond := (collect_pageEnv (noon + 3 * hour + 4 * minute) pageDeadline).2.2.2.2
  have hcreated := wellFormed_page (Or.inl rfl) ""
  have hpolling := wellFormed_page (Or.inr (Or.inl rfl)) pageDeadline
  have hdownloading := wellFormed_page (Or.inr (Or.inr rfl)) pageDeadline
  refine ⟨⟨_, _, _, hclock 0 (by decide), rfl, rfl, hcreate⟩,
    Or.inr ⟨rfl, ExportCursor.encode_ne_empty _⟩,
    ⟨_, _, _, hclock 1 (by decide), rfl, rfl, hstart⟩, hnext hcreated hpolling (fun h => ?_),
    ⟨_, _, _, hclock 2 (by decide), rfl, rfl, hpoll⟩, hnext hpolling hdownloading (fun h => ?_),
    ⟨_, _, _, hclock 3 (by decide), rfl, rfl, hfirst⟩,
    hnext hdownloading (wellFormed_halfPage _) (fun h => ?_),
    ⟨_, _, _, hclock 4 (by decide), rfl, rfl, hsecond⟩, Or.inl (by decide), trivial⟩
  · cases congrArg ExportCursor.phase h
  · cases congrArg ExportCursor.phase h
  · cases congrArg ExportCursor.pageOffsetDone h

/-- A window with one page of three records, which two calls download and which are written one after
the other: with the second the time moves to the end of the window. -/
theorem export_reads_every_window_twoChunks :
    ∃ s s' : Lib.Checkpointed Position ExportEvent,
      Lib.Checkpointed.Run (pagedLoop.Proposes pagedLoop.EnvOk) Position.admits
        (.start ⟨noon, ""⟩) s ∧
      Lib.Checkpointed.Step (pagedLoop.Proposes pagedLoop.EnvOk) Position.admits s s' ∧
      s'.history.map (fun a => (a.event.logs.map LogRecord.body, a.landed)) =
        [([], true), ([], true), ([], true), (["a", "b"], true), (["c"], true)] ∧
      s.memory.time = noon ∧ s'.memory = ⟨noon + hour, ""⟩ ∧
      pagedLoop.ReadUpTo s'.history noon (noon + hour) ∧
      Persisted (decodeCursor s'.stored.cursor) := by
  obtain ⟨h₁, a₁, h₂, a₂, h₃, a₃, h₄, a₄, h₅, a₅, -⟩ := trail_page
  let half : Position := Lib.Checkpointed.last ⟨noon, ""⟩ (pageTrail.take 4)
  have hrun := @Lib.Checkpointed.Run.of_trail _ _ _ _ (pageTrail.take 4) ⟨noon, ""⟩ []
    ⟨h₁, a₁, h₂, a₂, h₃, a₃, h₄, a₄, trivial⟩
  have hstep := @Lib.Checkpointed.Step.committed _ _ _ _
    ⟨half, half, [] ++ Lib.Checkpointed.written ⟨noon, ""⟩ (pageTrail.take 4)⟩ _ _ h₅ a₅
  obtain ⟨hmemory, -, -, -, -, hpersisted⟩ :=
    export_reads_every_window pagedLoop_accepted noon hrun hstep
  refine ⟨_, _, hrun, hstep, by decide, rfl, rfl, ?_, hpersisted⟩
  rcases hmemory with heq | hmoved
  · cases congrArg Position.time heq
  · exact hmoved.time.resolve_left (by decide)

/-- **A window that starts before the watermark**: half an hour into year 1 the first window starts
half an hour before it. -/
theorem export_window_before_year_one :
    ∃ s' : Lib.Checkpointed Position ExportEvent,
      Lib.Checkpointed.Step (defaultLoop.Proposes fun env =>
        0 ≤ env.now ∧ Lib.Rfc3339.year env.now ≤ 9999 ∧
        ∀ request jobID total, env.create request = .ok (jobID, total) → total < 2 ^ 62)
        Position.admits (.start ⟨0, ""⟩) s' ∧
      s'.memory.time = 20 * minute ∧ ¬defaultLoop.ReadUpTo s'.history 0 s'.memory.time := by
  have hcollect : defaultLoop.collect (emptyEnv (30 * minute)) {} =
      ⟨[.create (-(30 * minute)) (20 * minute) 0 (.ok ("job", 0))], .ok ([], { time := 20 * minute })⟩ :=
    rfl
  refine ⟨_, .committed (e := ⟨_, _⟩) ⟨emptyEnv (30 * minute), {}, { time := 20 * minute },
    ⟨by decide, by decide +kernel, ?_⟩, rfl, rfl, hcollect⟩ (Or.inl (by decide)), rfl, ?_⟩
  · rintro request jobID total h
    cases h
    decide
  · -- the only window that was asked for starts before 0
    have hnone : ∀ m w total, 0 ≤ m → ¬Reported [⟨⟨0, ""⟩, ⟨[.create (-(30 * minute)) (20 * minute) 0
        (.ok ("job", 0))], []⟩, ⟨20 * minute, ""⟩, true⟩] m w total := by
      rintro m w total h0 ⟨a, ha, -, jobID, hcall⟩
      obtain rfl := List.mem_singleton.mp ha
      obtain ⟨rfl, -⟩ := ExportCall.create.inj (List.mem_singleton.mp hcall)
      exact absurd h0 (by decide)
    rintro ⟨m, h0, -, ⟨total, -, hr⟩ | ⟨pages, ⟨total, hr, -⟩, -⟩⟩
    · exact hnone m _ total h0 hr
    · exact hnone m _ total h0 hr

end LogsExportLoop

end GenaiBridge
