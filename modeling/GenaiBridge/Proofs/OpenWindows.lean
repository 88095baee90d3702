/-
When an idle log loop begins a window.

Between what has settled and the start of the window there must be something left: the start
is not after the backfill floor's, and without a watermark not after the one a window before
the clock.  The settings decide it, whatever the clock reads, and the two validators ask for
different parts of it.
-/
import GenaiBridge.Proofs.ExportRun
import GenaiBridge.Proofs.RunsScope

namespace GenaiBridge

private theorem windowEnd_gt {window settle start now : Int} (hwindow : 0 < window) :
    start < windowEnd window settle start now ↔ start < now - settle := by
  unfold windowEnd
  omega

/-- From where a window begins when there is something to read: no watermark, or one from before
what has settled. -/
def Behind (settle now t : Int) : Prop := t = 0 ∨ t < now - settle

private theorem windowFor_eq_none {window settle maxBackfill t now : Int} (hwindow : 0 < window)
    (h : now - settle ≤ windowStart window maxBackfill t now) :
    windowFor window settle maxBackfill t now = none :=
  if_neg fun hlt => absurd ((windowEnd_gt hwindow).mp hlt) (not_lt.mpr h)

private theorem lt_of_windowFor {window settle maxBackfill t now : Int} {b : Int × Int}
    (h : windowFor window settle maxBackfill t now = some b) : b.1 < b.2 := by
  unfold windowFor at h
  dsimp only at h
  split_ifs at h with hlt
  obtain rfl := Option.some.inj h
  exact hlt

/-- A loop that is idle and behind begins a window that is not empty. -/
def Opening (idle : Watermark → Prop) (begins : Int → Watermark → Option (Int × Int))
    (settle : Int) : Prop :=
  ∀ (now : Int) (since : Watermark), idle since → Behind settle now since.time →
    ∃ m M, begins now since = some (m, M) ∧ m < M

/-- **A loop opens windows if and only if its settings leave room**, whatever the clock reads. -/
private theorem opening_iff {window settle maxBackfill : Int} (hwindow : 0 < window)
    {idle : Watermark → Prop} {begins : Int → Watermark → Option (Int × Int)}
    (hempty : ∀ t, idle { time := t })
    (hbegins : ∀ now since, idle since →
      begins now since = windowFor window settle maxBackfill since.time now) :
    Opening idle begins settle ↔ settle < window ∧ settle < maxBackfill := by
  constructor
  · intro h
    -- without a watermark the start is the later one of two
    obtain ⟨m, M, hsome, -⟩ := h 0 {} (hempty 0) (Or.inl rfl)
    rw [hbegins _ _ (hempty 0)] at hsome
    unfold windowFor at hsome
    dsimp only at hsome
    split_ifs at hsome with hlt
    rw [windowEnd_gt hwindow, windowStart, windowFrom, if_pos rfl] at hlt
    omega
  · rintro ⟨hroom, hbackfill⟩ now since hidle hbehind
    have hstart : windowStart window maxBackfill since.time now < now - settle := by
      unfold Behind at hbehind
      unfold windowStart windowFrom
      split_ifs <;> omega
    have hlt := (windowEnd_gt hwindow).mpr hstart
    exact ⟨_, _, by rw [hbegins _ _ hidle, windowFor, if_pos hlt], hlt⟩

/-! ### The log export -/

namespace LogsExportLoop

variable {R : Type} (l : LogsExportLoop R)

/-- The cursor is idle, or of a phase that is taken for it. -/
def Idle (since : Watermark) : Prop :=
  (decodeCursor since.cursor).phase = .idle ∨ ∃ name, (decodeCursor since.cursor).phase = .other name

/-- An idle call of `Collect` that is behind creates the export of a window that is not empty. -/
def Opens : Prop :=
  ∀ (env : ExportEnv) (since : Watermark), Idle since → Behind l.settle env.now since.time →
    ∃ m M answer, .create m M 0 answer ∈ (l.collect env since).calls ∧ m < M

/-- The pages of a window, as `stepIdle` computes them from the records reported. -/
def pagesOf (l : LogsExportLoop R) (total : Int) : Int :=
  (wrap64 (total + l.pageSize - 1)).tdiv l.pageSize

/-- The cursor of a parked window. -/
def blockedCursor (l : LogsExportLoop R) (b : Int × Int) (total : Int) : ExportCursor :=
  { phase := .blocked
    winMin := formatCursorTime b.1
    winMax := formatCursorTime b.2
    pages := l.pagesOf total
    totalRecords := total }

/-- **What a call does without a job in flight**: nothing, if there is no window; else it creates the
export of the window and goes by the answer. -/
theorem stepIdle_eq (l : LogsExportLoop R) (env : ExportEnv) (w : Watermark) :
    (l.opens w.time env.now = none ∧ l.stepIdle env w = ⟨[], .ok ([], w)⟩) ∨
    ∃ b, l.opens w.time env.now = some b ∧
      l.stepIdle env w =
        match env.create (l.exportRequest b.1 b.2 0) with
        | .error err => ⟨.create b.1 b.2 0 (.error err) :: authSignal (α := String × Int) (.error err),
            .error (.lifecycle err)⟩
        | .ok (jobID, total) =>
          if total ≤ 0 ∨ l.pagesOf total = 0 then
            ⟨[.create b.1 b.2 0 (.ok (jobID, total))], .ok ([], { time := b.2 })⟩
          else if 0 < l.maxPagesPerWindow ∧ l.maxPagesPerWindow < l.pagesOf total then
            ⟨[.create b.1 b.2 0 (.ok (jobID, total)), .incomplete .windowOversize],
              .ok ([], advanceCursor w.time (l.blockedCursor b total))⟩
          else
            ⟨[.create b.1 b.2 0 (.ok (jobID, total))],
              .ok ([], advanceCursor w.time
                { l.blockedCursor b total with phase := .created, jobID })⟩ := by
  rw [opens_eq]
  unfold windowFor stepIdle
  rw [windowBoundsFor_eq]
  dsimp only
  by_cases hsettled : windowStart l.window l.maxBackfill w.time env.now <
      windowEnd l.window l.settle (windowStart l.window l.maxBackfill w.time env.now) env.now
  · right
    rw [if_pos hsettled]
    refine ⟨_, rfl, ?_⟩
    simp only [hsettled, decide_true, Bool.not_true, Bool.false_eq_true, if_false, createExport]
    cases hcreate : env.create (l.exportRequest
        (windowStart l.window l.maxBackfill w.time env.now)
        (windowEnd l.window l.settle (windowStart l.window l.maxBackfill w.time env.now) env.now)
        0) with
    | error err => rfl
    | ok created => rfl
  · left
    rw [if_neg hsettled]
    refine ⟨rfl, ?_⟩
    simp only [hsettled, decide_false, Bool.not_false, if_true]

variable {l} {env : ExportEnv} {since : Watermark}

theorem begins_idle (hidle : Idle since) (now : Int) : l.begins now since = l.opens since.time now := by
  unfold begins
  rcases hidle with h | ⟨name, h⟩ <;> rw [h]

theorem step_idle (hidle : Idle since) :
    l.step env since (decodeCursor since.cursor) = l.stepIdle env since := by
  unfold step
  rcases hidle with h | ⟨name, h⟩ <;> rw [h]

private theorem create_not_mem_authSignal {α : Type} {answer : Except LifecycleError α} {m M page : Int}
    {created : Except LifecycleError (String × Int)} :
    .create m M page created ∉ authSignal answer := by
  unfold authSignal
  split
  · split_ifs <;> simp
  · simp

/-- **The window an idle call begins is the one it creates the export of.** -/
theorem create_mem_collect_iff (hidle : Idle since) {m M page : Int}
    {answer : Except LifecycleError (String × Int)} :
    .create m M page answer ∈ (l.collect env since).calls ↔
      l.begins env.now since = some (m, M) ∧ page = 0 ∧
        answer = env.create (l.exportRequest m M 0) := by
  rw [begins_idle hidle]
  unfold collect
  dsimp only
  rw [step_idle hidle]
  rcases l.stepIdle_eq env since with ⟨hnone, hstep⟩ | ⟨⟨m', M'⟩, hopens, hstep⟩
  · rw [hstep, hnone]
    simp
  · have hcalls : ∃ rest, (l.stepIdle env since).calls =
        .create m' M' 0 (env.create (l.exportRequest m' M' 0)) :: rest ∧
        .create m M page answer ∉ rest := by
      rw [hstep]
      cases env.create (l.exportRequest m' M' 0) with
      | error err => exact ⟨_, rfl, create_not_mem_authSignal⟩
      | ok created =>
        dsimp only
        split_ifs
        · exact ⟨_, rfl, by simp⟩
        · exact ⟨_, rfl, by simp⟩
        · exact ⟨_, rfl, by simp⟩
    obtain ⟨rest, hcalls, hrest⟩ := hcalls
    rw [hcalls, hopens, List.mem_cons, or_iff_left hrest]
    simp only [ExportCall.create.injEq, Option.some.injEq, Prod.mk.injEq]
    constructor
    · rintro ⟨rfl, rfl, rfl, rfl⟩
      exact ⟨⟨rfl, rfl⟩, rfl, rfl⟩
    · rintro ⟨⟨rfl, rfl⟩, rfl, rfl⟩
      exact ⟨rfl, rfl, rfl, rfl⟩

theorem collect_of_begins_none (hidle : Idle since) (hnone : l.begins env.now since = none) :
    l.collect env since =
      ⟨[], .ok ([], persistLifecycleLink env since (decodeCursor since.cursor))⟩ := by
  rw [begins_idle hidle] at hnone
  unfold collect
  dsimp only
  rw [step_idle hidle]
  rcases l.stepIdle_eq env since with ⟨-, hstep⟩ | ⟨b, hopens, -⟩
  · rw [hstep]
    rfl
  · cases hnone.symm.trans hopens

theorem collect_of_no_create (hidle : Idle since)
    (h : ∀ m M page answer, .create m M page answer ∉ (l.collect env since).calls) :
    ∃ w, l.collect env since = ⟨[], .ok ([], w)⟩ ∧ w.time = since.time := by
  cases hbegins : l.begins env.now since with
  | none =>
    exact ⟨_, collect_of_begins_none hidle hbegins, (persistLifecycleLink_spec env since _).1⟩
  | some b => exact absurd ((create_mem_collect_iff hidle).mpr ⟨hbegins, rfl, rfl⟩) (h _ _ _ _)

theorem opens_iff_opening : l.Opens ↔ Opening Idle l.begins l.settle := by
  constructor
  · intro h now since hidle hbehind
    obtain ⟨m, M, answer, hmem, hlt⟩ := h (emptyEnv now) since hidle hbehind
    exact ⟨m, M, ((create_mem_collect_iff hidle).mp hmem).1, hlt⟩
  · intro h env since hidle hbehind
    obtain ⟨m, M, hbegins, hlt⟩ := h env.now since hidle hbehind
    exact ⟨m, M, _, (create_mem_collect_iff hidle).mpr ⟨hbegins, rfl, rfl⟩, hlt⟩

private theorem begins_eq (hidle : Idle since) (now : Int) :
    l.begins now since = windowFor l.window l.settle l.maxBackfill since.time now :=
  (begins_idle hidle now).trans (l.opens_eq since.time now)

private theorem opens_iff (hl : l.Accepted) :
    l.Opens ↔ l.settle < l.window ∧ l.settle < l.maxBackfill :=
  opens_iff_opening.trans
    (opening_iff hl.window (fun _ => Or.inl rfl) fun now _ hidle => begins_eq hidle now)

end LogsExportLoop

/-! ### The runs loop -/

namespace RunsLoop

variable (l : RunsLoop)

/-- No window is in progress. -/
def Idle (since : Watermark) : Prop := draining (decodeRunsCursor since.cursor) = none

/-- The sessions of a window cannot be found, and the call says so. -/
def FailsAloud (env : RunsEnv) (cache : SessionCache) (since : Watermark) : Prop :=
  ∃ err, (l.resolveSessions env cache false).1 = .error err ∧
    (l.collect env cache since).result = .error err

/-- An idle call of `Collect` that is behind queries the first page of a window that is not empty,
if it can find sessions to query. -/
def Opens : Prop :=
  ∀ (env : RunsEnv) (cache : SessionCache) (since : Watermark), Idle since →
    Behind l.settle env.now since.time →
    (∃ m M answer, .query m M "" answer ∈ (l.collect env cache since).calls ∧ m < M) ∨
      l.FailsAloud env cache since

variable {l} {env : RunsEnv} {cache : SessionCache} {since : Watermark}

theorem askedWindow_idle (hidle : Idle since) :
    l.askedWindow env since = (l.begins env.now since).map fun b => ⟨b.1, b.2, "", 0⟩ := by
  unfold askedWindow begins
  rw [show draining (decodeRunsCursor since.cursor) = none from hidle]

/-- A call that begins no window fires at most its hook. -/
theorem collect_of_begins_none (hidle : Idle since) (hnone : l.begins env.now since = none) :
    l.collect env cache since =
      ⟨(l.beginWindow since.time env.now).1, cache, .ok ([], since)⟩ := by
  unfold begins at hnone
  unfold collect
  rw [show draining (decodeRunsCursor since.cursor) = none from hidle] at hnone ⊢
  rcases hb : l.beginWindow since.time env.now with ⟨hooks, window⟩
  rw [hb] at hnone
  obtain rfl : window = none := hnone
  rfl

/-- **The window an idle call begins is the one it queries**, if it finds sessions. -/
theorem query_mem_collect_iff (hidle : Idle since) {m M : Int} {resume : String}
    {answer : Except String RunsPage} :
    .query m M resume answer ∈ (l.collect env cache since).calls ↔
      l.begins env.now since = some (m, M) ∧ resume = "" ∧
        ∃ sessions, l.asks env cache since = some sessions ∧
          answer = env.query (l.runsRequest sessions m M "") := by
  have hquery : .query m M resume answer ∈ (l.collect env cache since).calls ↔
      (m, M, resume, answer) ∈ (l.collect env cache since).calls.filterMap RunsCall.query? := by
    rw [List.mem_filterMap]
    constructor
    · intro h
      exact ⟨_, h, rfl⟩
    · rintro ⟨call, hmem, hcall⟩
      cases call with
      | query => cases hcall; exact hmem
      | _ => cases hcall
  rw [hquery, query?_collect, askedWindow_idle hidle]
  cases l.begins env.now since with
  | none => simp
  | some b =>
    cases l.asks env cache since with
    | none => simp
    | some sessions =>
      obtain ⟨m', M'⟩ := b
      simp only [Option.map_some, Option.bind_some, Option.toList_some, List.mem_singleton,
        Prod.mk.injEq, Option.some.injEq]
      constructor
      · rintro ⟨rfl, rfl, rfl, rfl⟩
        exact ⟨⟨rfl, rfl⟩, rfl, _, rfl, rfl⟩
      · rintro ⟨⟨rfl, rfl⟩, rfl, _, rfl, rfl⟩
        exact ⟨rfl, rfl, rfl, rfl⟩

theorem collect_of_begins (hidle : Idle since) {m M : Int}
    (hbegins : l.begins env.now since = some (m, M)) :
    (∃ answer, .query m M "" answer ∈ (l.collect env cache since).calls) ∨
      l.FailsAloud env cache since := by
  have hwindow := @askedWindow_idle l env since hidle
  rw [hbegins] at hwindow
  rcases @collect_eq_fetchPage l env cache since with
    ⟨hnone, -⟩ | ⟨win, -, hasks, -, hresult⟩
  · cases hwindow.symm.trans hnone
  · have hidling : isDraining since = false := by
      unfold isDraining
      rw [show draining (decodeRunsCursor since.cursor) = none from hidle]
      rfl
    rw [hidling] at hasks hresult
    cases hresolve : (l.resolveSessions env cache false).1 with
    | ok sessions =>
      rw [hresolve] at hasks
      exact Or.inl ⟨_, (query_mem_collect_iff hidle).mpr ⟨hbegins, rfl, _, hasks, rfl⟩⟩
    | error err =>
      exact Or.inr ⟨err, hresolve, hresult.trans ((fetchPage_of_resolve win false).2 err hresolve)⟩

/-- A call that makes no query does nothing, or fails aloud. -/
theorem collect_of_no_query (hidle : Idle since)
    (h : ∀ m M resume answer, .query m M resume answer ∉ (l.collect env cache since).calls) :
    (l.collect env cache since).result = .ok ([], since) ∨ l.FailsAloud env cache since := by
  cases hbegins : l.begins env.now since with
  | none => exact Or.inl (by rw [collect_of_begins_none hidle hbegins])
  | some b =>
    rcases collect_of_begins hidle hbegins with ⟨answer, hmem⟩ | hfails
    · exact absurd hmem (h _ _ _ _)
    · exact Or.inr hfails

private theorem begins_eq (hidle : Idle since) (now : Int) :
    l.begins now since = windowFor l.window l.settle l.maxBackfill since.time now := by
  unfold begins
  rw [show draining (decodeRunsCursor since.cursor) = none from hidle, beginWindow_eq]
  rfl

theorem opens_iff_opening : l.Opens ↔ Opening Idle l.begins l.settle := by
  constructor
  · intro h now since hidle hbehind
    cases hbegins : l.begins now since with
    | some b => exact ⟨b.1, b.2, rfl, lt_of_windowFor ((begins_eq hidle now).symm.trans hbegins)⟩
    | none =>
      -- a call that begins no window does not query, nor does it fail
      have hnothing := @collect_of_begins_none l (tokenEnv now "") {} since hidle hbegins
      rcases h (tokenEnv now "") {} since hidle hbehind with ⟨m, M, answer, hmem, -⟩ | ⟨err, -, herr⟩
      · cases hbegins.symm.trans ((query_mem_collect_iff hidle).mp hmem).1
      · rw [hnothing] at herr
        cases herr
  · intro h env cache since hidle hbehind
    obtain ⟨m, M, hbegins, hlt⟩ := h env.now since hidle hbehind
    rcases collect_of_begins hidle hbegins with ⟨answer, hmem⟩ | hfails
    · exact Or.inl ⟨m, M, answer, hmem, hlt⟩
    · exact Or.inr hfails

private theorem opens_iff (hl : l.Accepted) : l.Opens ↔ l.settle < l.maxBackfill := by
  rw [opens_iff_opening,
    opening_iff hl.window (fun _ => rfl) fun now _ hidle => begins_eq hidle now]
  exact ⟨And.right, fun h => ⟨hl.settle_lt, h⟩⟩

end RunsLoop

/-! ### Both loops -/

/-- **An accepted log loop opens windows if its settings leave room**: the log export if and only if
`settle` is below both `window` and `max_backfill`, the runs loop, whose validator asks for the
first, if and only if it is below `max_backfill`.  An idle call that creates no export, or makes no
query and does not fail, returns an empty batch and does not advance. -/
theorem idle_collect_opens_iff (parseDuration : String → Option Int) (sourceInstance : String)
    (lp : LoopConfig) :
    (∀ (R : Type) (allowPrivate : Bool) (uc : ResolvedUseCase)
      (policy : LogsSettings → LinePolicy R) (l : LogsExportLoop R),
      newLogsExportLoop parseDuration sourceInstance allowPrivate lp uc policy = .ok l →
      (l.Opens ↔ l.settle < l.window ∧ l.settle < l.maxBackfill) ∧
      ∀ env since, LogsExportLoop.Idle since →
        (∀ m M page answer, .create m M page answer ∉ (l.collect env since).calls) →
        ∃ w, l.collect env since = ⟨[], .ok ([], w)⟩ ∧ w.time = since.time) ∧
    ∀ l : RunsLoop, newRunsLoop parseDuration sourceInstance lp = .ok l →
      (l.Opens ↔ l.settle < l.maxBackfill) ∧
      ∀ env cache since, RunsLoop.Idle since →
        (∀ m M resume answer, .query m M resume answer ∉ (l.collect env cache since).calls) →
        (l.collect env cache since).result = .ok ([], since) ∨ l.FailsAloud env cache since := by
  refine ⟨?_, ?_⟩
  · intro R allowPrivate uc policy l hl
    exact ⟨LogsExportLoop.opens_iff (accepted_newLogsExportLoop hl),
      fun env since hidle hnone => LogsExportLoop.collect_of_no_create hidle hnone⟩
  · intro l hl
    exact ⟨RunsLoop.opens_iff (accepted_newRunsLoop hl),
      fun env cache since hidle hnone => RunsLoop.collect_of_no_query hidle hnone⟩

/-- The default settings of both leave room. -/
theorem idle_collect_opens_default :
    LogsExportLoop.defaultLoop.Opens ∧ RunsLoop.defaultRunsLoop.Opens :=
  ⟨((idle_collect_opens_iff _ _ _).1 _ _ _ _ _ LogsExportLoop.defaultLoop_accepted).1.mpr
      (by decide),
    ((idle_collect_opens_iff _ _ _).2 _ RunsLoop.defaultRunsLoop_accepted).1.mpr (by decide)⟩

/-! ### Five minutes are too short -/

/-- A configuration of the log export with windows of five minutes. -/
def shortExport : LoopConfig :=
  { LogsExportLoop.defaultExport with
    settings := ⟨[("signed_url_allow_hosts", "objects"), ("window", "5m"), ("workspace_id", "ws")],
      by decide⟩ }

/-- The loop it builds. -/
def shortLoop : LogsExportLoop Empty := { LogsExportLoop.defaultLoop with window := 5 * minute }

/-- One of the runs loop with a backfill of five minutes. -/
def shortRuns : LoopConfig :=
  RunsLoop.runsConfig ⟨[("max_backfill", "5m"), ("session_ids", "p")], by decide⟩

/-- The loop it builds. -/
def shortRunsLoop : RunsLoop := { RunsLoop.defaultRunsLoop with maxBackfill := 5 * minute }

/-- The one duration they name. -/
def fiveMinutes (s : String) : Option Int := if s = "5m" then some (5 * minute) else none

private theorem shortLoop_accepted :
    newLogsExportLoop fiveMinutes "portkey" false shortExport ⟨"", ""⟩
      (fun _ => LogsExportLoop.defaultLoop.downloader.policy) = .ok shortLoop := by
  have happly : applyLogsSettings fiveMinutes defaultLogsSettings shortExport.settings =
      .ok { defaultLogsSettings with
        signedURLAllowHosts := ["objects"], window := 5 * minute, workspaceID := "ws" } := by
    decide +kernel
  unfold newLogsExportLoop
  rw [if_neg (by decide), happly]
  rfl

/-- **Accepted loops that never open a window**: with the default `settle` of ten minutes, the log
export from the zero watermark and the runs loop from any watermark.  Whatever the clock reads and
the APIs answer, a call asks for nothing and leaves the watermark as it is. -/
theorem short_settings_never_open :
    (newLogsExportLoop fiveMinutes "portkey" false shortExport ⟨"", ""⟩
      (fun _ => LogsExportLoop.defaultLoop.downloader.policy) = .ok shortLoop ∧
      ∀ env, shortLoop.collect env {} = ⟨[], .ok ([], {})⟩) ∧
    newRunsLoop fiveMinutes "langsmith" shortRuns = .ok shortRunsLoop ∧
      ∀ env cache t, (shortRunsLoop.collect env cache { time := t }).result =
          .ok ([], { time := t }) ∧
        (shortRunsLoop.collect env cache { time := t }).calls.filterMap RunsCall.query? = [] := by
  refine ⟨⟨shortLoop_accepted, fun env => ?_⟩, by decide +kernel, fun env cache t => ?_⟩
  · have hbegins : shortLoop.begins env.now {} = none := by
      rw [LogsExportLoop.begins_eq (Or.inl rfl)]
      refine windowFor_eq_none (by decide) (le_max_of_le_left ?_)
      show env.now - 10 * minute ≤ env.now - 5 * minute
      unfold minute
      omega
    exact LogsExportLoop.collect_of_begins_none (Or.inl rfl) hbegins
  · have hidle : RunsLoop.Idle { time := t } := rfl
    have hbegins : shortRunsLoop.begins env.now { time := t } = none := by
      rw [RunsLoop.begins_eq hidle]
      refine windowFor_eq_none (by decide) (le_max_of_le_right ?_)
      show env.now - 10 * minute ≤ env.now - 5 * minute
      unfold minute
      omega
    refine ⟨by rw [RunsLoop.collect_of_begins_none hidle hbegins], ?_⟩
    rw [RunsLoop.query?_collect, RunsLoop.askedWindow_idle hidle, hbegins]
    rfl

end GenaiBridge
