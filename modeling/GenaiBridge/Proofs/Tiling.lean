/-
The windows of the log loops tile time.

Each call of `Collect` is a call of a process that reads time window by window: the cursor
holds the window in progress, and a call that moves the time completes it.  What differs
between the two loops is the backfill floor.  A window of the runs loop that begins at the
floor fires the hook; one of the log export does not.
-/
import GenaiBridge.Lib.Windows
import GenaiBridge.Proofs.ExportRun
import GenaiBridge.Proofs.RunsRun

namespace GenaiBridge

open Lib (WindowCall)

/-- `onDataIncomplete` was called for a span that max_backfill skips. -/
def ExportCall.countsSkip : ExportCall → Bool
  | .incomplete reason => reason.text = "backfill_skipped"
  | _ => false

def RunsCall.countsSkip : RunsCall → Bool
  | .incomplete reason => reason.text = "backfill_skipped"
  | _ => false

/-! ### The log export -/

namespace LogsExportLoop

variable {R : Type} (l : LogsExportLoop R)

/-- The window a position holds. -/
def held (p : Position) : Option (Int × Int) := (decodeCursor p.cursor).windowBounds

/-- A call of `Collect`: it fails or its position is not taken over, or the next call goes on from
what it returns. -/
def Calls (c : WindowCall Position) : Prop :=
  ∃ env since, c.since = since.position ∧ c.now = env.now ∧ c.begun = l.begins env.now since ∧
    c.reported = (l.collect env since).calls.any ExportCall.countsSkip ∧
    (c.next = c.since ∨
      ∃ logs w, (l.collect env since).result = .ok (logs, w) ∧ c.next = w.position)

/-- The call that goes on from a watermark and comes to another. -/
private def callTo (now : Int) (since : Watermark) (reported : Bool) (w : Watermark) :
    WindowCall Position :=
  ⟨since.position, now, l.begins now since, reported, w.position⟩

variable {l} {now : Int} {since w : Watermark} {reported : Bool} {cur : ExportCursor}

private theorem follows_same : (l.callTo now since reported since).Follows Position.time held :=
  .stays rfl fun _ hb => Or.inl hb

private theorem follows_reset :
    (l.callTo now since reported (resetIdle since.time)).Follows Position.time held := by
  refine .stays rfl fun b hb => ?_
  have hnone := windowBounds_encode (c := { phase := .idle }) hb
  cases hnone

private theorem follows_advance
    (hwindow : ∀ b, cur.windowBounds = some b →
      held since.position = some b ∨ l.begins now since = some b) :
    (l.callTo now since reported (advanceCursor since.time cur)).Follows Position.time held :=
  .stays rfl fun b hb => hwindow b (windowBounds_encode hb)

private theorem follows_complete {m M : Int}
    (hwindow : held since.position = some (m, M) ∨ l.begins now since = some (m, M)) :
    (l.callTo now since reported { time := M }).Follows Position.time held :=
  .completes hwindow rfl rfl

variable {env : ExportEnv} {calls : List ExportCall} {logs : List LogRecord}

private theorem follows_stepIdle
    (hbegins : l.begins env.now since = l.opens since.time env.now)
    (hstep : l.stepIdle env since = ⟨calls, .ok (logs, w)⟩) :
    (l.callTo env.now since reported w).Follows Position.time held := by
  unfold opens at hbegins
  unfold stepIdle at hstep
  rcases hb : l.windowBoundsFor since.time env.now with ⟨winMin, winMax, settled⟩
  simp only [hb] at hstep hbegins
  cases settled with
  | false =>
    obtain ⟨-, hres⟩ := ExportStep.mk.inj hstep
    obtain ⟨-, rfl⟩ := Prod.mk.inj (Except.ok.inj hres)
    exact follows_same
  | true =>
    rw [if_pos rfl] at hbegins
    -- the cursor of the window that is begun holds no other one
    have hwindow : ∀ {c : ExportCursor}, c.winMin = formatCursorTime winMin →
        c.winMax = formatCursorTime winMax → ∀ b, c.windowBounds = some b →
        l.begins env.now since = some b := by
      intro c hmin hmax b hbounds
      unfold ExportCursor.windowBounds at hbounds
      rw [hmin, hmax] at hbounds
      split at hbounds
      · rename_i m M hm hM
        obtain rfl := eq_of_parse_formatCursorTime hm
        obtain rfl := eq_of_parse_formatCursorTime hM
        rw [hbegins, hbounds]
      · cases hbounds
    simp only [Bool.not_true, Bool.false_eq_true, if_false, createExport] at hstep
    cases hcreate : env.create (l.exportRequest winMin winMax 0) with
    | error err =>
      simp only [hcreate] at hstep
      cases (ExportStep.mk.inj hstep).2
    | ok created =>
      simp only [hcreate] at hstep
      split_ifs at hstep with hnone hlarge
      all_goals
        obtain ⟨-, hres⟩ := ExportStep.mk.inj hstep
        obtain ⟨-, rfl⟩ := Prod.mk.inj (Except.ok.inj hres)
      · exact follows_complete (Or.inr hbegins)
      all_goals
        refine follows_advance fun b hbounds => Or.inr (hwindow ?_ ?_ b hbounds)
        · rfl
        · rfl

private theorem follows_stepBlocked (hstep : l.stepBlocked env since cur = ⟨calls, .ok (logs, w)⟩) :
    (l.callTo env.now since reported w).Follows Position.time held := by
  unfold stepBlocked at hstep
  dsimp only at hstep
  split at hstep
  · cases (ExportStep.mk.inj hstep).2
  · obtain ⟨-, hres⟩ := ExportStep.mk.inj hstep
    obtain ⟨-, rfl⟩ := Prod.mk.inj (Except.ok.inj hres)
    exact follows_reset

section InProgress

variable (hcur : decodeCursor since.cursor = cur)
include hcur

private theorem follows_window {c : ExportCursor} (hbounds : c.windowBounds = cur.windowBounds) :
    (l.callTo env.now since reported (advanceCursor since.time c)).Follows Position.time held := by
  refine follows_advance fun b hb => Or.inl ?_
  rw [hbounds, ← hcur] at hb
  exact hb

private theorem follows_stepCreated (hstep : l.stepCreated env since cur = ⟨calls, .ok (logs, w)⟩) :
    (l.callTo env.now since reported w).Follows Position.time held := by
  unfold stepCreated at hstep
  split at hstep
  · split at hstep
    · obtain ⟨-, hres⟩ := ExportStep.mk.inj hstep
      obtain ⟨-, rfl⟩ := Prod.mk.inj (Except.ok.inj hres)
      exact follows_reset
    · split at hstep
      · cases (ExportStep.mk.inj hstep).2
      · obtain ⟨-, hres⟩ := ExportStep.mk.inj hstep
        obtain ⟨-, rfl⟩ := Prod.mk.inj (Except.ok.inj hres)
        exact follows_window hcur rfl
  · dsimp only at hstep
    split at hstep
    · obtain ⟨-, hres⟩ := ExportStep.mk.inj hstep
      obtain ⟨-, rfl⟩ := Prod.mk.inj (Except.ok.inj hres)
      exact follows_window hcur rfl
    · split at hstep
      · cases (ExportStep.mk.inj hstep).2
      · cases (ExportStep.mk.inj hstep).2
      · obtain ⟨-, hres⟩ := ExportStep.mk.inj hstep
        obtain ⟨-, rfl⟩ := Prod.mk.inj (Except.ok.inj hres)
        exact follows_window hcur rfl

private theorem follows_stepPolling (hstep : stepPolling env since cur = ⟨calls, .ok (logs, w)⟩) :
    (l.callTo env.now since reported w).Follows Position.time held := by
  rcases stepPolling_ok hstep with rfl | rfl | rfl | rfl
  · exact follows_window hcur rfl
  · exact follows_window hcur rfl
  · exact follows_same
  · exact follows_reset

private theorem follows_stepDownloading
    (hstep : l.stepDownloading env since cur = ⟨calls, .ok (logs, w)⟩) :
    (l.callTo env.now since reported w).Follows Position.time held := by
  rcases hbounds : cur.windowBounds with _ | ⟨m, M⟩
  · unfold stepDownloading at hstep
    rw [hbounds] at hstep
    obtain ⟨-, hres⟩ := ExportStep.mk.inj hstep
    obtain ⟨-, rfl⟩ := Prod.mk.inj (Except.ok.inj hres)
    exact follows_reset
  · obtain ⟨url, chunk, -, -, ⟨c, hc, rfl⟩ | ⟨-, rfl⟩⟩ := stepDownloading_ok hbounds hstep
    · refine follows_window hcur ?_
      rcases chunkedCursor_cases cur chunk with ⟨-, heq⟩ | ⟨-, -, heq⟩ | ⟨-, -, heq⟩
      · obtain rfl := Option.some.inj (heq.symm.trans hc)
        rfl
      · obtain rfl := Option.some.inj (heq.symm.trans hc)
        rfl
      · cases heq.symm.trans hc
    · rw [← hcur] at hbounds
      exact follows_complete (Or.inl hbounds)

end InProgress

private theorem follows_link {prior : ExportCursor} {env : ExportEnv}
    (h : (l.callTo now since reported w).Follows Position.time held) :
    (l.callTo now since reported (persistLifecycleLink env w prior)).Follows
      Position.time held := by
  obtain ⟨htime, traceID, spanID, hdecode⟩ := persistLifecycleLink_spec env w prior
  have hheld : held (persistLifecycleLink env w prior).position = held w.position := by
    show (decodeCursor (persistLifecycleLink env w prior).cursor).windowBounds = _
    rw [hdecode]
    rfl
  cases h with
  | stays h hb => exact .stays (htime.trans h) fun b hlinked => hb b (hheld.symm.trans hlinked)
  | completes hwindow h hidle => exact .completes hwindow (htime.trans h) (hheld.trans hidle)

/-- **A call of `Collect` follows its window**, whatever the phase. -/
private theorem follows_collect (hcollect : (l.collect env since).result = .ok (logs, w)) :
    (l.callTo env.now since reported w).Follows Position.time held := by
  unfold collect at hcollect
  dsimp only at hcollect
  rcases hstep : l.step env since (decodeCursor since.cursor) with ⟨calls, result⟩
  rw [hstep] at hcollect
  cases result with
  | error err => cases hcollect
  | ok r =>
    obtain ⟨logs', w'⟩ := r
    obtain ⟨rfl, rfl⟩ := Prod.mk.inj (Except.ok.inj hcollect)
    refine follows_link ?_
    unfold step at hstep
    split at hstep
    · exact follows_stepCreated rfl hstep
    · exact follows_stepPolling rfl hstep
    · exact follows_stepDownloading rfl hstep
    · exact follows_stepBlocked hstep
    all_goals
      rename_i hphase
      refine follows_stepIdle ?_ hstep
      unfold begins
      rw [hphase]

private theorem Calls.follows {c : WindowCall Position} (h : l.Calls c) :
    c.Follows Position.time held := by
  obtain ⟨env, since, hsince, -, hbegun, -, hnext | ⟨logs, w, hcollect, hnext⟩⟩ := h
  · exact .stays (by rw [hnext]) fun b hb => Or.inl (hnext ▸ hb)
  · obtain ⟨s, n, b, r, next⟩ := c
    dsimp only at hsince hbegun hnext
    subst hsince hbegun hnext
    cases @follows_collect _ l since w r env logs hcollect with
    | stays htime hheld => exact .stays htime hheld
    | completes hwindow htime hidle => exact .completes hwindow htime hidle

private theorem Calls.not_reported {c : WindowCall Position} (h : l.Calls c) : c.reported = false := by
  obtain ⟨env, since, -, -, -, hreported, -⟩ := h
  rw [hreported, List.any_eq_false]
  intro call _
  cases call with
  | incomplete reason => cases reason <;> decide
  | _ => simp [ExportCall.countsSkip]

/-- **Where a window starts**: at the watermark if that is within the backfill, and later without
a hook if it is not. -/
private theorem Calls.startsAt_iff {c : WindowCall Position} (h : l.Calls c) {m M : Int}
    (hbegun : c.begun = some (m, M)) :
    c.StartsAt c.since.time m ↔ (c.since.time ≠ 0 → c.now - l.maxBackfill ≤ c.since.time) := by
  have hreported := h.not_reported
  obtain ⟨env, since, hsince, hnow, hbegins, -, -⟩ := h
  have htime : since.time = c.since.time := by rw [hsince]; rfl
  have hm : m = windowStart l.window l.maxBackfill since.time env.now := by
    rw [hbegun] at hbegins
    unfold begins at hbegins
    rw [opens_eq] at hbegins
    split at hbegins
    all_goals first
      | cases hbegins
      | (unfold windowFor at hbegins
         dsimp only at hbegins
         split_ifs at hbegins
         exact (Prod.mk.inj (Option.some.inj hbegins)).1)
  rw [htime, ← hnow] at hm
  unfold WindowCall.StartsAt
  rw [hreported, hm]
  refine forall_congr' fun hne => ?_
  unfold windowStart windowFrom
  rw [if_neg hne]
  simp only [Bool.false_eq_true, and_false, or_false]
  omega

end LogsExportLoop

/-! ### The runs loop -/

namespace RunsLoop

variable (l : RunsLoop)

/-- The window a position holds. -/
def held (p : Position) : Option (Int × Int) :=
  (draining (decodeRunsCursor p.cursor)).map fun w => (w.winMin, w.winMax)

/-- A call of `Collect`, as of the log export. -/
def Calls (c : WindowCall Position) : Prop :=
  ∃ env cache since, c.since = since.position ∧ c.now = env.now ∧
    c.begun = l.begins env.now since ∧
    c.reported = (l.collect env cache since).calls.any RunsCall.countsSkip ∧
    (c.next = c.since ∨
      ∃ logs w, (l.collect env cache since).result = .ok (logs, w) ∧ c.next = w.position)

variable {l}

private theorem held_encode {m M page : Int} {next : String} {b : Int × Int} {t : Int}
    (hpage : InInt64 page)
    (h : held ⟨t, (RunsCursor.mk (formatCursorTime m) (formatCursorTime M) next page).encode⟩ =
      some b) : b = (m, M) := by
  unfold held at h
  dsimp only at h
  rw [decodeRunsCursor_encode hpage] at h
  unfold draining RunsCursor.windowBounds at h
  dsimp only at h
  split_ifs at h
  · cases h
  · split at h
    · rename_i m' M' hm hM
      obtain rfl := eq_of_parse_formatCursorTime hm
      obtain rfl := eq_of_parse_formatCursorTime hM
      exact (Option.some.inj h).symm
    · cases h

private theorem window_of_fetch {now : Int} {since : Watermark} {win : Window}
    (hwin : draining (decodeRunsCursor since.cursor) = some win ∨
      draining (decodeRunsCursor since.cursor) = none ∧
        ∃ hooks winMin winMax, l.beginWindow since.time now = (hooks, some (winMin, winMax)) ∧
          win = ⟨winMin, winMax, "", 0⟩) :
    held since.position = some (win.winMin, win.winMax) ∨
      l.begins now since = some (win.winMin, win.winMax) := by
  rcases hwin with hwin | ⟨hidle, hooks, winMin, winMax, hbegin, rfl⟩
  · refine Or.inl ?_
    show (draining (decodeRunsCursor since.cursor)).map _ = _
    rw [hwin]
    rfl
  · refine Or.inr ?_
    unfold begins
    rw [hidle, hbegin]

private theorem Calls.follows {c : WindowCall Position} (h : l.Calls c) :
    c.Follows Position.time held := by
  obtain ⟨env, cache, since, hsince, -, hbegun, -, hnext | ⟨logs, w, hresult, hnext⟩⟩ := h
  · exact .stays (by rw [hnext]) fun b hb => Or.inl (hnext ▸ hb)
  · rcases hcollect : l.collect env cache since with ⟨calls, cache', result⟩
    rw [hcollect] at hresult
    obtain rfl : result = .ok (logs, w) := hresult
    rcases collect_ok hcollect with ⟨-, rfl⟩ | ⟨win, page, hwin, -, -, -, hw, -⟩
    · exact .stays (by rw [hnext, hsince]) fun b hb => Or.inl (by rw [hsince, ← hnext]; exact hb)
    · have hwindow := window_of_fetch hwin
      rw [← hsince, ← hbegun] at hwindow
      rcases pageWatermark_cases l since win page.next with ⟨-, -, heq⟩ | ⟨-, heq⟩
      · simp only [hw, heq, Watermark.position] at hnext
        refine .stays (by rw [hnext, hsince]; rfl) fun b hb => ?_
        rw [hnext] at hb
        rw [held_encode (inInt64_wrap64 _) hb]
        exact hwindow
      · simp only [hw, heq, Watermark.position] at hnext
        exact .completes hwindow (by rw [hnext]) (by rw [hnext]; rfl)

/-- **Where a window starts**: at the watermark, or later with the hook. -/
private theorem Calls.startsAt {c : WindowCall Position} (h : l.Calls c) {m M : Int}
    (hbegun : c.begun = some (m, M)) : c.StartsAt c.since.time m := by
  obtain ⟨env, cache, since, hsince, -, hbegins, hreported, -⟩ := h
  rw [hbegun] at hbegins
  unfold begins at hbegins
  split at hbegins
  · cases hbegins
  · rename_i hidle
    have hbegin := beginWindow_eq l since.time env.now
    rw [show (l.beginWindow since.time env.now).2 = _ from congrArg Prod.snd hbegin] at hbegins
    dsimp only at hbegins
    split_ifs at hbegins with hlt
    obtain ⟨rfl, rfl⟩ := Prod.mk.inj (Option.some.inj hbegins)
    rw [if_pos hlt] at hbegin
    intro hne
    have htime : since.time = c.since.time := by rw [hsince]; rfl
    rw [← htime] at hne ⊢
    unfold windowStart windowFrom
    rw [if_neg hne]
    by_cases hskip : since.time < env.now - l.maxBackfill
    · refine Or.inr ⟨by omega, ?_⟩
      unfold windowFrom at hbegin
      rw [if_neg hne, if_pos hskip] at hbegin
      rw [hreported]
      unfold collect
      rw [hidle, hbegin]
      rfl
    · exact Or.inl (by omega)

end RunsLoop

/-! ### Both loops -/

/-- **Log windows tile time.**  From any time and an empty cursor, through any clocks, answers,
failed calls and positions that are not taken over: the first window begun after one was
completed starts where that one ended, or later with the hook called for the skip, and the time
only moves over such windows.  For the log export this holds if no window is begun from a
watermark older than the backfill; of one that is, the skip is not counted. -/
theorem log_windows_tile {R : Type} (l : LogsExportLoop R) (runs : RunsLoop) (t₀ : Int)
    (cs : List (WindowCall Position)) (q : Position) :
    (WindowCall.Run runs.Calls ⟨t₀, ""⟩ cs q → WindowCall.Tiled Position.time cs) ∧
    (WindowCall.Run l.Calls ⟨t₀, ""⟩ cs q →
      (∀ c ∈ cs, ∀ b, c.begun = some b → c.since.time ≠ 0 →
        c.now - l.maxBackfill ≤ c.since.time) →
      WindowCall.Tiled Position.time cs) ∧
    ∀ (c : WindowCall Position) (m M : Int), l.Calls c → c.begun = some (m, M) →
      c.since.time ≠ 0 → ((m = c.since.time ∨ c.since.time < m ∧ c.reported = true) ↔
        c.now - l.maxBackfill ≤ c.since.time) := by
  refine ⟨fun hrun => ?_, fun hrun hbackfill => ?_, ?_⟩
  · exact hrun.tiled (fun _ hc => hc.follows) rfl fun c hc m M => (hrun.of_mem hc).startsAt
  · refine hrun.tiled (fun _ hc => hc.follows) rfl fun c hc m M hbegun => ?_
    exact ((hrun.of_mem hc).startsAt_iff hbegun).mpr fun hne => hbackfill c hc _ hbegun hne
  · intro c m M hc hbegun hne
    have hiff := hc.startsAt_iff hbegun
    exact ⟨fun h => hiff.mp (fun _ => h) hne, fun h => hiff.mpr (fun _ => h) hne⟩

/-! ### An hour late, and two days -/

/-- The call whose position is taken over. -/
def LogsExportLoop.taken {R : Type} (l : LogsExportLoop R) (env : ExportEnv) (since : Watermark) :
    WindowCall Position where
  since := since.position
  now := env.now
  begun := l.begins env.now since
  reported := (l.collect env since).calls.any ExportCall.countsSkip
  next := match (l.collect env since).result with
    | .ok (_, w) => w.position
    | .error _ => since.position

theorem LogsExportLoop.calls_taken {R : Type} (l : LogsExportLoop R) (env : ExportEnv)
    (since : Watermark) : l.Calls (l.taken env since) := by
  refine ⟨env, since, rfl, rfl, rfl, rfl, ?_⟩
  cases hresult : (l.collect env since).result with
  | error err => exact Or.inl (by simp [taken, hresult])
  | ok r => exact Or.inr ⟨r.1, r.2, rfl, by simp [taken, hresult]⟩

/-- Two calls of the default loop: at noon of 2026-06-01, which completes the window to ten
minutes before, and a while later. -/
def twoCalls (later : Int) : List (WindowCall Position) :=
  [LogsExportLoop.defaultLoop.taken (LogsExportLoop.emptyEnv 63915912000000000000) {},
    LogsExportLoop.defaultLoop.taken (LogsExportLoop.emptyEnv (63915912000000000000 + later))
      { time := 63915911400000000000 }]

private theorem run_twoCalls (later : Int) :
    ∃ q, WindowCall.Run LogsExportLoop.defaultLoop.Calls ⟨0, ""⟩ (twoCalls later) q := by
  have hsecond := WindowCall.Run.cons (LogsExportLoop.defaultLoop.calls_taken
    (LogsExportLoop.emptyEnv (63915912000000000000 + later)) { time := 63915911400000000000 })
    (.nil _)
  exact ⟨_, .cons (LogsExportLoop.defaultLoop.calls_taken
    (LogsExportLoop.emptyEnv 63915912000000000000) {}) hsecond⟩

/-- An hour later the next window starts where the first one ended. -/
theorem log_windows_tile_next_hour :
    WindowCall.Tiled Position.time (twoCalls hour) ∧
    (twoCalls hour).map WindowCall.begun =
      [some (63915908400000000000, 63915911400000000000),
        some (63915911400000000000, 63915915000000000000)] := by
  obtain ⟨q, hrun⟩ := run_twoCalls hour
  refine ⟨(log_windows_tile LogsExportLoop.defaultLoop RunsLoop.defaultRunsLoop 0 _ q).2.1 hrun ?_,
    by decide +kernel⟩
  intro c hc b _ hne
  simp only [twoCalls, List.mem_cons, List.not_mem_nil, or_false] at hc
  rcases hc with rfl | rfl
  · exact absurd rfl hne
  · decide +kernel

/-- **A skip that is not counted**: two days later the next window of the log export starts at the
backfill floor, and no hook was called. -/
theorem export_skip_uncounted :
    newLogsExportLoop (fun _ => none) "portkey" false LogsExportLoop.defaultExport ⟨"", ""⟩
      (fun _ => LogsExportLoop.defaultLoop.downloader.policy) = .ok LogsExportLoop.defaultLoop ∧
    (∃ q, WindowCall.Run LogsExportLoop.defaultLoop.Calls ⟨0, ""⟩ (twoCalls (48 * hour)) q) ∧
    (twoCalls (48 * hour)).map WindowCall.begun =
      [some (63915908400000000000, 63915911400000000000),
        some (63915998400000000000, 63916002000000000000)] ∧
    (twoCalls (48 * hour)).all (fun c => !c.reported) ∧
    ¬WindowCall.Tiled Position.time (twoCalls (48 * hour)) := by
  refine ⟨LogsExportLoop.defaultLoop_accepted, run_twoCalls _, by decide +kernel,
    by decide +kernel, fun htiled => ?_⟩
  have hnext := htiled.next [] _ [] _ [] 63915998400000000000 63916002000000000000 rfl
    (by decide +kernel) (by simp) (by decide +kernel) (by decide +kernel)
  revert hnext
  decide +kernel

end GenaiBridge
