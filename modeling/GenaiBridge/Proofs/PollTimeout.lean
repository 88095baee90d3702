/-
How long a job is waited for.

When a job is started the cursor gets a deadline, and a poll that finds the job still
running after it gives the job up.  Two things put the deadline off without a word: a
poll that answers `draft` sends the job back to be started again, whatever the time,
and starting it again stamps a new deadline.

A run is watched along with the times at which the current job entered the polling
phase, first and last.  The cursor's deadline is that of the last entry (`Waiting`),
and the limit is counted from the first.
-/
import GenaiBridge.Proofs.Parked

namespace GenaiBridge

namespace LogsExportLoop

variable {R : Type} {l : LogsExportLoop R} {env : ExportEnv} {w : Watermark}

/-! ### What a call leaves in the cursor -/

/-- The same cursor, but for the span its window began with. -/
def Linked (c c' : ExportCursor) : Prop :=
  c'.phase = c.phase ∧ c'.jobID = c.jobID ∧ c'.pollDeadline = c.pollDeadline

theorem collect_of_ok {calls : List ExportCall} {logs : List LogRecord} {w' : Watermark}
    (h : l.step env w (decodeCursor w.cursor) = ⟨calls, .ok (logs, w')⟩) :
    (l.collect env w).calls = calls ∧
    (l.collect env w).result = .ok (logs, l.afterCollect env w) ∧
    Linked (decodeCursor w'.cursor) (decodeCursor (l.afterCollect env w).cursor) := by
  have hcollect : l.collect env w =
      ⟨calls, .ok (logs, persistLifecycleLink env w' (decodeCursor w.cursor))⟩ := by
    unfold collect
    dsimp only
    rw [h]
    rfl
  have hafter : l.afterCollect env w =
      persistLifecycleLink env w' (decodeCursor w.cursor) :=
    afterCollect_of_ok (by rw [hcollect])
  obtain ⟨-, traceID, spanID, hdecode⟩ :=
    persistLifecycleLink_spec env w' (decodeCursor w.cursor)
  rw [hafter, hcollect]
  refine ⟨rfl, rfl, ?_⟩
  rw [hdecode]
  exact ⟨rfl, rfl, rfl⟩

theorem collect_of_error {calls : List ExportCall} {err : ExportError}
    (h : l.step env w (decodeCursor w.cursor) = ⟨calls, .error err⟩) :
    (l.collect env w).result = .error err ∧ l.afterCollect env w = w := by
  have hresult : (l.collect env w).result = .error err := by
    unfold collect
    dsimp only
    rw [h]
    rfl
  exact ⟨hresult, afterCollect_of_error hresult⟩

/-- The start of a job took effect: the call succeeded, or the job is found to have left `draft`. -/
def Starts (env : ExportEnv) (jobID : String) : Prop :=
  env.start jobID = .ok () ∨
    ∃ status, env.poll jobID = .ok status ∧ status ≠ .draft

/-- **A job to be started**: it enters the polling phase with a new deadline, or the call fails. -/
theorem collect_created (hphase : (decodeCursor w.cursor).phase = .created)
    (hjob : (decodeCursor w.cursor).jobID ≠ "") :
    (Starts env (decodeCursor w.cursor).jobID ∧
      (∃ r, (l.collect env w).result = .ok r) ∧
      (decodeCursor (l.afterCollect env w).cursor).phase = .polling ∧
      (decodeCursor (l.afterCollect env w).cursor).jobID = (decodeCursor w.cursor).jobID ∧
      (decodeCursor (l.afterCollect env w).cursor).pollDeadline =
        formatCursorTime (env.nowStarted + l.jobPollTimeout)) ∨
    (¬Starts env (decodeCursor w.cursor).jobID ∧
      (∃ err, (l.collect env w).result = .error err) ∧ l.afterCollect env w = w) := by
  have hwf := decodeCursor_wellFormed w.cursor
  have hstarted : (l.startedCursor env (decodeCursor w.cursor)).WellFormed :=
    ⟨rfl, by simp [startedCursor, Phase.name], hwf.page, hwf.pages, hwf.totalRecords,
      hwf.pageOffsetDone, hwf.pageByteOffset⟩
  have hpolling : ∀ {calls}, l.step env w (decodeCursor w.cursor) =
      ⟨calls, .ok ([], advanceCursor w.time (l.startedCursor env (decodeCursor w.cursor)))⟩ →
      (∃ r, (l.collect env w).result = .ok r) ∧
      (decodeCursor (l.afterCollect env w).cursor).phase = .polling ∧
      (decodeCursor (l.afterCollect env w).cursor).jobID = (decodeCursor w.cursor).jobID ∧
      (decodeCursor (l.afterCollect env w).cursor).pollDeadline =
        formatCursorTime (env.nowStarted + l.jobPollTimeout) := by
    intro calls hstep
    obtain ⟨-, hresult, hlinked⟩ := collect_of_ok hstep
    rw [advanceCursor, decodeCursor_encode hstarted] at hlinked
    exact ⟨⟨_, hresult⟩, hlinked⟩
  have hstep : l.step env w (decodeCursor w.cursor) =
      l.stepCreated env w (decodeCursor w.cursor) := by
    unfold step
    rw [hphase]
  unfold stepCreated at hstep
  rw [if_neg hjob] at hstep
  dsimp only at hstep
  cases hstart : env.start (decodeCursor w.cursor).jobID with
  | ok u =>
    rw [hstart] at hstep
    exact Or.inl ⟨Or.inl hstart, hpolling hstep⟩
  | error err =>
    rw [hstart] at hstep
    dsimp only at hstep
    have hnot : ∀ status, env.poll (decodeCursor w.cursor).jobID = status →
        (∀ s, status = .ok s → s = .draft) → ¬Starts env (decodeCursor w.cursor).jobID := by
      rintro status hpoll hdraft (hok | ⟨s, hs, hne⟩)
      · cases hok.symm.trans hstart
      · exact hne (hdraft s (hpoll.symm.trans hs))
    cases hpoll : env.poll (decodeCursor w.cursor).jobID with
    | error perr =>
      rw [hpoll] at hstep
      obtain ⟨hresult, hafter⟩ := collect_of_error hstep
      exact Or.inr ⟨hnot _ hpoll (fun s hs => by cases hs), ⟨_, hresult⟩, hafter⟩
    | ok status =>
      rw [hpoll] at hstep
      by_cases hdraft : status = .draft
      · rw [hdraft] at hstep hpoll
        obtain ⟨hresult, hafter⟩ := collect_of_error hstep
        refine Or.inr ⟨hnot _ hpoll (fun s hs => ?_), ⟨_, hresult⟩, hafter⟩
        exact (Except.ok.inj hs).symm
      · refine Or.inl ⟨Or.inr ⟨status, hpoll, hdraft⟩, ?_⟩
        cases status with
        | draft => exact absurd rfl hdraft
        | queued => exact hpolling hstep
        | inProgress => exact hpolling hstep
        | success => exact hpolling hstep
        | other name => exact hpolling hstep

theorem collect_uncreated (hphase : (decodeCursor w.cursor).phase = .created)
    (hjob : (decodeCursor w.cursor).jobID = "") :
    (decodeCursor (l.afterCollect env w).cursor).phase ≠ .polling := by
  have hwf := decodeCursor_wellFormed w.cursor
  have hstep : l.step env w (decodeCursor w.cursor) =
      l.stepCreated env w (decodeCursor w.cursor) := by
    unfold step
    rw [hphase]
  unfold stepCreated at hstep
  rw [if_pos hjob] at hstep
  cases hbounds : (decodeCursor w.cursor).windowBounds with
  | none =>
    rw [hbounds] at hstep
    obtain ⟨-, -, hafter, -, -⟩ := collect_of_ok hstep
    rw [hafter, decodeCursor_resetIdle]
    decide
  | some b =>
    obtain ⟨winMin, winMax⟩ := b
    simp only [hbounds, createExport] at hstep
    cases hcreate :
        env.create (l.exportRequest winMin winMax (decodeCursor w.cursor).page) with
    | error err =>
      simp only [hcreate] at hstep
      obtain ⟨-, hafter⟩ := collect_of_error hstep
      rw [hafter, hphase]
      decide
    | ok created =>
      obtain ⟨jobID, total⟩ := created
      have hcreated : ({ decodeCursor w.cursor with jobID } : ExportCursor).WellFormed :=
        ⟨hwf.phase, hwf.named, hwf.page, hwf.pages, hwf.totalRecords, hwf.pageOffsetDone,
          hwf.pageByteOffset⟩
      simp only [hcreate] at hstep
      obtain ⟨-, -, hafter, -, -⟩ := collect_of_ok hstep
      rw [advanceCursor, decodeCursor_encode hcreated] at hafter
      rw [hafter]
      show (decodeCursor w.cursor).phase ≠ .polling
      rw [hphase]
      decide

/-- The deadline of a cursor has passed. -/
def Expired (c : ExportCursor) (now : Int) : Prop :=
  ∃ deadline, parseCursorTime c.pollDeadline = some deadline ∧ deadline < now

/-- A call gives the window up, with the event for it. -/
def Restarts (l : LogsExportLoop R) (env : ExportEnv) (w : Watermark) : Prop :=
  (∃ r, (l.collect env w).result = .ok r) ∧
  (decodeCursor (l.afterCollect env w).cursor).phase = .idle ∧
  (.incomplete .exportStuck ∈ (l.collect env w).calls ∨
    .incomplete .exportFailed ∈ (l.collect env w).calls)

/-- The job stays the current one, in the given phase. -/
def Keeps (l : LogsExportLoop R) (env : ExportEnv) (w : Watermark) (phase : Phase) : Prop :=
  (∃ r, (l.collect env w).result = .ok r) ∧
  (decodeCursor (l.afterCollect env w).cursor).phase = phase ∧
  (decodeCursor (l.afterCollect env w).cursor).jobID = (decodeCursor w.cursor).jobID ∧
  (decodeCursor (l.afterCollect env w).cursor).pollDeadline = (decodeCursor w.cursor).pollDeadline

theorem keeps_of_step {calls : List ExportCall} {w' : Watermark} {phase : Phase}
    (hstep : l.step env w (decodeCursor w.cursor) = ⟨calls, .ok ([], w')⟩)
    (hlinked : Linked { decodeCursor w.cursor with phase } (decodeCursor w'.cursor)) :
    l.Keeps env w phase := by
  obtain ⟨-, hresult, hphase, hjob, hdeadline⟩ := collect_of_ok hstep
  exact ⟨⟨_, hresult⟩, hphase.trans hlinked.1, hjob.trans hlinked.2.1,
    hdeadline.trans hlinked.2.2⟩

theorem restarts_of_step {calls : List ExportCall}
    (hstep : l.step env w (decodeCursor w.cursor) = ⟨calls, .ok ([], resetIdle w.time)⟩)
    (hevent : .incomplete .exportStuck ∈ calls ∨ .incomplete .exportFailed ∈ calls) :
    l.Restarts env w := by
  obtain ⟨hcalls, hresult, hphase, -, -⟩ := collect_of_ok hstep
  rw [Restarts, hcalls]
  exact ⟨⟨_, hresult⟩, hphase.trans (decodeCursor_resetIdle w.time), hevent⟩

theorem step_of_polling (hphase : (decodeCursor w.cursor).phase = .polling) :
    l.step env w (decodeCursor w.cursor) = stepPolling env w (decodeCursor w.cursor) := by
  unfold step
  rw [hphase]

/-- **A job that still runs** is waited for up to its deadline, and given up after it. -/
theorem collect_running (hphase : (decodeCursor w.cursor).phase = .polling)
    (hpoll : env.poll (decodeCursor w.cursor).jobID = .ok .queued ∨
      env.poll (decodeCursor w.cursor).jobID = .ok .inProgress) :
    (Expired (decodeCursor w.cursor) env.now ∧ l.Restarts env w) ∨
      (¬Expired (decodeCursor w.cursor) env.now ∧ l.Keeps env w .polling) := by
  have hstep := @step_of_polling R l env w hphase
  have hsame : Linked { decodeCursor w.cursor with phase := .polling } (decodeCursor w.cursor) :=
    ⟨hphase, rfl, rfl⟩
  unfold stepPolling at hstep
  cases hparse : parseCursorTime (decodeCursor w.cursor).pollDeadline with
  | none =>
    have hnever : ¬Expired (decodeCursor w.cursor) env.now := by
      rintro ⟨deadline, hsome, -⟩
      cases hparse.symm.trans hsome
    rcases hpoll with hpoll | hpoll
    · simp only [hpoll, hparse] at hstep
      exact Or.inr ⟨hnever, keeps_of_step hstep hsame⟩
    · simp only [hpoll, hparse] at hstep
      exact Or.inr ⟨hnever, keeps_of_step hstep hsame⟩
  | some deadline =>
    have hexpired : Expired (decodeCursor w.cursor) env.now ↔ deadline < env.now := by
      constructor
      · rintro ⟨deadline', hsome, hlt⟩
        obtain rfl := Option.some.inj (hparse.symm.trans hsome)
        exact hlt
      · intro hlt
        exact ⟨deadline, hparse, hlt⟩
    rw [hexpired]
    by_cases hlate : deadline < env.now
    · refine Or.inl ⟨hlate, ?_⟩
      rcases hpoll with hpoll | hpoll
      · simp only [hpoll, hparse, if_pos hlate] at hstep
        exact restarts_of_step hstep (Or.inl (by simp))
      · simp only [hpoll, hparse, if_pos hlate] at hstep
        exact restarts_of_step hstep (Or.inl (by simp))
    · refine Or.inr ⟨hlate, ?_⟩
      rcases hpoll with hpoll | hpoll
      · simp only [hpoll, hparse, if_neg hlate] at hstep
        exact keeps_of_step hstep hsame
      · simp only [hpoll, hparse, if_neg hlate] at hstep
        exact keeps_of_step hstep hsame

/-- **A job that is polled**: by its status it is downloaded, started again, waited for, or given
up. -/
theorem collect_polling (hphase : (decodeCursor w.cursor).phase = .polling) :
    match env.poll (decodeCursor w.cursor).jobID with
    | .error _ => (∃ err, (l.collect env w).result = .error err) ∧ l.afterCollect env w = w
    | .ok .success => (∃ r, (l.collect env w).result = .ok r) ∧
        (decodeCursor (l.afterCollect env w).cursor).phase = .downloading
    | .ok .draft => l.Keeps env w .created
    | .ok .queued | .ok .inProgress =>
      (Expired (decodeCursor w.cursor) env.now ∧ l.Restarts env w) ∨
      (¬Expired (decodeCursor w.cursor) env.now ∧ l.Keeps env w .polling)
    | .ok (.other _) => l.Restarts env w := by
  have hwf := decodeCursor_wellFormed w.cursor
  have hstep := @step_of_polling R l env w hphase
  unfold stepPolling at hstep
  cases hpoll : env.poll (decodeCursor w.cursor).jobID with
  | error err =>
    simp only [hpoll] at hstep
    obtain ⟨hresult, hafter⟩ := collect_of_error hstep
    exact ⟨⟨_, hresult⟩, hafter⟩
  | ok status =>
    cases status with
    | success =>
      have hdown : ({ decodeCursor w.cursor with
          phase := .downloading, pageOffsetDone := 0 } : ExportCursor).WellFormed :=
        ⟨rfl, by simp [Phase.name], hwf.page, hwf.pages, hwf.totalRecords, inInt64_zero,
          hwf.pageByteOffset⟩
      simp only [hpoll] at hstep
      obtain ⟨-, hresult, hphase', -, -⟩ := collect_of_ok hstep
      rw [advanceCursor, decodeCursor_encode hdown] at hphase'
      exact ⟨⟨_, hresult⟩, hphase'⟩
    | draft =>
      have hcreated : ({ decodeCursor w.cursor with phase := .created } :
          ExportCursor).WellFormed :=
        ⟨rfl, by simp [Phase.name], hwf.page, hwf.pages, hwf.totalRecords, hwf.pageOffsetDone,
          hwf.pageByteOffset⟩
      simp only [hpoll] at hstep
      refine keeps_of_step hstep ?_
      rw [advanceCursor, decodeCursor_encode hcreated]
      exact ⟨rfl, rfl, rfl⟩
    | queued => exact collect_running hphase (Or.inl hpoll)
    | inProgress => exact collect_running hphase (Or.inr hpoll)
    | other name =>
      simp only [hpoll] at hstep
      exact restarts_of_step hstep (Or.inr (by simp))

/-! ### Watching a run -/

/-- When the current job entered the polling phase: first, and last. -/
structure Entered where
  first : Int
  last : Int
deriving DecidableEq

/-- What is known of the current job's entries after a call. -/
def watch (env : ExportEnv) (entered : Option Entered) (before after : Phase) : Option Entered :=
  match before, after with
  | .created, .polling =>
    some ⟨(entered.map Entered.first).getD env.nowStarted, env.nowStarted⟩
  | .created, .created | .polling, .polling | .polling, .created => entered
  | _, _ => none

/-- A call of a run: what it was called with, and when the job of its cursor entered polling. -/
structure Visit where
  env : ExportEnv
  since : Watermark
  entered : Option Entered

/-- The calls of a run whose commits succeed. -/
def visits (l : LogsExportLoop R) : Watermark → Option Entered → List ExportEnv → List Visit
  | _, _, [] => []
  | w, entered, env :: rest =>
    ⟨env, w, entered⟩ ::
      l.visits (l.afterCollect env w)
        (watch env entered (decodeCursor w.cursor).phase
          (decodeCursor (l.afterCollect env w).cursor).phase) rest

/-- A job that has entered the polling phase: it is current, and the deadline of the cursor is that
of its last entry. -/
structure Waiting (l : LogsExportLoop R) (c : ExportCursor) (e : Entered) : Prop where
  phase : c.phase = .created ∨ c.phase = .polling
  job : c.jobID ≠ ""
  deadline : c.phase = .polling → c.pollDeadline = formatCursorTime (e.last + l.jobPollTimeout)

theorem Keeps.waiting {phase : Phase} {e : Entered} (hkeeps : l.Keeps env w phase)
    (h : l.Waiting (decodeCursor w.cursor) e) (hpolling : (decodeCursor w.cursor).phase = .polling)
    (hphase : phase = .created ∨ phase = .polling) :
    l.Waiting (decodeCursor (l.afterCollect env w).cursor) e := by
  obtain ⟨-, hafter, hjob, hdeadline⟩ := hkeeps
  refine ⟨by rw [hafter]; exact hphase, by rw [hjob]; exact h.job, fun _ => ?_⟩
  rw [hdeadline, h.deadline hpolling]

/-- **What a call keeps of it.** -/
theorem waiting_step {entered : Option Entered}
    (h : ∀ e, entered = some e → l.Waiting (decodeCursor w.cursor) e) :
    ∀ e, watch env entered (decodeCursor w.cursor).phase
        (decodeCursor (l.afterCollect env w).cursor).phase = some e →
      l.Waiting (decodeCursor (l.afterCollect env w).cursor) e := by
  intro e he
  cases hphase : (decodeCursor w.cursor).phase with
  | created =>
    rw [hphase] at he
    by_cases hjob : (decodeCursor w.cursor).jobID = ""
    · -- nothing has entered yet, and nothing enters
      have hnot := @collect_uncreated R l env w hphase hjob
      have hnone : entered = none := by
        cases hentered : entered with
        | none => rfl
        | some e' => exact absurd hjob (h e' hentered).job
      rw [hnone] at he
      cases hafter : (decodeCursor (l.afterCollect env w).cursor).phase with
      | polling => exact absurd hafter hnot
      | created => rw [hafter] at he; cases he
      | idle => rw [hafter] at he; cases he
      | downloading => rw [hafter] at he; cases he
      | blocked => rw [hafter] at he; cases he
      | other name => rw [hafter] at he; cases he
    · rcases @collect_created R l env w hphase hjob with hstarted | hfailed
      · obtain ⟨-, -, hafter, hsame, hdeadline⟩ := hstarted
        rw [hafter] at he
        obtain rfl := Option.some.inj he
        exact ⟨Or.inr hafter, by rw [hsame]; exact hjob, fun _ => hdeadline⟩
      · obtain ⟨-, -, hafter⟩ := hfailed
        rw [hafter, hphase] at he
        rw [hafter]
        exact h e he
  | polling =>
    rw [hphase] at he
    have hpolled := @collect_polling R l env w hphase
    -- the job is current after the call just if it was kept
    have hkept : ∀ {phase}, l.Keeps env w phase → phase = .created ∨ phase = .polling →
        l.Waiting (decodeCursor (l.afterCollect env w).cursor) e := by
      intro phase hkeeps hcurrent
      have hafter := hkeeps.2.1
      rw [hafter] at he
      refine hkeeps.waiting (h e ?_) hphase hcurrent
      rcases hcurrent with rfl | rfl
      · exact he
      · exact he
    have hgone : ∀ {phase}, (decodeCursor (l.afterCollect env w).cursor).phase = phase →
        phase = .idle ∨ phase = .downloading →
        l.Waiting (decodeCursor (l.afterCollect env w).cursor) e := by
      intro phase hafter hleft
      rw [hafter] at he
      rcases hleft with rfl | rfl
      · cases he
      · cases he
    cases hpoll : env.poll (decodeCursor w.cursor).jobID with
    | error err =>
      rw [hpoll] at hpolled
      rw [hpolled.2, hphase] at he
      rw [hpolled.2]
      exact h e he
    | ok status =>
      rw [hpoll] at hpolled
      cases status with
      | success => exact hgone hpolled.2 (Or.inr rfl)
      | draft => exact hkept hpolled (Or.inl rfl)
      | queued =>
        rcases hpolled with ⟨-, hrestarts⟩ | ⟨-, hkeeps⟩
        · exact hgone hrestarts.2.1 (Or.inl rfl)
        · exact hkept hkeeps (Or.inr rfl)
      | inProgress =>
        rcases hpolled with ⟨-, hrestarts⟩ | ⟨-, hkeeps⟩
        · exact hgone hrestarts.2.1 (Or.inl rfl)
        · exact hkept hkeeps (Or.inr rfl)
      | other name => exact hgone hpolled.2.1 (Or.inl rfl)
  | idle => rw [hphase] at he; cases he
  | downloading => rw [hphase] at he; cases he
  | blocked => rw [hphase] at he; cases he
  | other name => rw [hphase] at he; cases he

/-- **The watch is right along every run.** -/
theorem waiting_of_visit : ∀ (envs : List ExportEnv) (w : Watermark) (entered : Option Entered),
    (∀ e, entered = some e → l.Waiting (decodeCursor w.cursor) e) →
    ∀ v ∈ l.visits w entered envs, ∀ e, v.entered = some e →
      l.Waiting (decodeCursor v.since.cursor) e := by
  intro envs
  induction envs with
  | nil =>
    intro w entered _ v hv
    cases hv
  | cons env rest ih =>
    intro w entered h v hv
    rcases List.mem_cons.mp hv with rfl | hv
    · exact h
    · exact ih _ _ (waiting_step h) v hv

/-! ### The limit -/

/-- A job is current whose first entry is longer ago than is allowed. -/
def Overdue (l : LogsExportLoop R) (v : Visit) : Prop :=
  ∃ e, v.entered = some e ∧ e.first + l.jobPollTimeout < v.env.now

/-- The call fails, or the job goes on to be downloaded, or the window is given up with an event. -/
def Acts (l : LogsExportLoop R) (v : Visit) : Prop :=
  (∃ err, (l.collect v.env v.since).result = .error err) ∨
  (decodeCursor (l.afterCollect v.env v.since).cursor).phase = .downloading ∨
  l.Restarts v.env v.since

/-- The answers that make a call act on a job that entered last at `last`: a job to be started is
not, and one that is polled is not a draft and, while it runs, its last entry is longer ago than is
allowed too. -/
def Forces (l : LogsExportLoop R) (v : Visit) (last : Int) : Prop :=
  match (decodeCursor v.since.cursor).phase with
  | .created => ¬Starts v.env (decodeCursor v.since.cursor).jobID
  | _ =>
    match v.env.poll (decodeCursor v.since.cursor).jobID with
    | .ok .draft => False
    | .ok .queued | .ok .inProgress =>
      ReadsBack (last + l.jobPollTimeout) ∧ last + l.jobPollTimeout < v.env.now
    | _ => True

/-- A call that leaves a job current without an error does not act. -/
theorem not_acts {v : Visit} {r : List LogRecord × Watermark} {phase : Phase}
    (hresult : (l.collect v.env v.since).result = .ok r)
    (hafter : (decodeCursor (l.afterCollect v.env v.since).cursor).phase = phase)
    (hcurrent : phase = .created ∨ phase = .polling) : ¬l.Acts v := by
  rintro (⟨err, herr⟩ | hdown | hrestarts)
  · cases hresult.symm.trans herr
  · rw [hafter] at hdown
    rcases hcurrent with rfl | rfl
    · cases hdown
    · cases hdown
  · have hidle := hrestarts.2.1
    rw [hafter] at hidle
    rcases hcurrent with rfl | rfl
    · cases hidle
    · cases hidle

theorem Waiting.expired_iff {c : ExportCursor} {e : Entered} {now : Int} (h : l.Waiting c e)
    (hphase : c.phase = .polling) :
    Expired c now ↔
      ReadsBack (e.last + l.jobPollTimeout) ∧ e.last + l.jobPollTimeout < now := by
  unfold Expired ReadsBack
  rw [h.deadline hphase]
  constructor
  · rintro ⟨deadline, hparse, hlt⟩
    obtain rfl := eq_of_parse_formatCursorTime hparse
    exact ⟨hparse, hlt⟩
  · rintro ⟨hparse, hlt⟩
    exact ⟨_, hparse, hlt⟩

/-- **When a call acts on a job that waits.** -/
theorem acts_iff {v : Visit} {e : Entered} (h : l.Waiting (decodeCursor v.since.cursor) e) :
    l.Acts v ↔ l.Forces v e.last := by
  unfold Forces
  rcases h.phase with hphase | hphase
  · rw [hphase]
    dsimp only
    rcases @collect_created R l v.env v.since hphase h.job with hstarted | hfailed
    · obtain ⟨hstarts, ⟨r, hresult⟩, hafter, -, -⟩ := hstarted
      exact ⟨fun hacts => absurd hacts (not_acts hresult hafter (Or.inr rfl)),
        fun hnot => absurd hstarts hnot⟩
    · obtain ⟨hnot, herror, -⟩ := hfailed
      exact ⟨fun _ => hnot, fun _ => Or.inl herror⟩
  · rw [hphase]
    have hpolled := @collect_polling R l v.env v.since hphase
    -- the two statuses of a job that runs
    have hrunning : (Expired (decodeCursor v.since.cursor) v.env.now ∧
          l.Restarts v.env v.since) ∨
        (¬Expired (decodeCursor v.since.cursor) v.env.now ∧ l.Keeps v.env v.since .polling) →
        (l.Acts v ↔ ReadsBack (e.last + l.jobPollTimeout) ∧
          e.last + l.jobPollTimeout < v.env.now) := by
      rw [← h.expired_iff hphase]
      rintro (⟨hexpired, hrestarts⟩ | ⟨hnot, ⟨r, hresult⟩, hafter, -, -⟩)
      · exact ⟨fun _ => hexpired, fun _ => Or.inr (Or.inr hrestarts)⟩
      · exact ⟨fun hacts => absurd hacts (not_acts hresult hafter (Or.inr rfl)),
          fun hexpired => absurd hexpired hnot⟩
    dsimp only
    cases hpoll : v.env.poll (decodeCursor v.since.cursor).jobID with
    | error err =>
      rw [hpoll] at hpolled
      exact ⟨fun _ => trivial, fun _ => Or.inl hpolled.1⟩
    | ok status =>
      rw [hpoll] at hpolled
      cases status with
      | success => exact ⟨fun _ => trivial, fun _ => Or.inr (Or.inl hpolled.2)⟩
      | draft =>
        obtain ⟨⟨r, hresult⟩, hafter, -, -⟩ := hpolled
        exact ⟨not_acts hresult hafter (Or.inl rfl), False.elim⟩
      | queued => exact hrunning hpolled
      | inProgress => exact hrunning hpolled
      | other name => exact ⟨fun _ => trivial, fun _ => Or.inr (Or.inr hpolled)⟩

/-- **When no job is waited for beyond its time in silence.**  Along every run, from any checkpoint,
every call later than the limit acts just if every such call gets an answer that forces it. -/
theorem waits_within_limit_iff (l : LogsExportLoop R) (since : Watermark)
    (envs : List ExportEnv) :
    (∀ v ∈ l.visits since none envs, l.Overdue v → l.Acts v) ↔
      ∀ v ∈ l.visits since none envs, ∀ e, v.entered = some e →
        e.first + l.jobPollTimeout < v.env.now → l.Forces v e.last := by
  have hwaiting : ∀ v ∈ l.visits since none envs, ∀ e, v.entered = some e →
      l.Waiting (decodeCursor v.since.cursor) e :=
    waiting_of_visit envs since none fun e he => by cases he
  constructor
  · intro h v hv e he hlate
    exact (acts_iff (hwaiting v hv e he)).mp (h v hv ⟨e, he, hlate⟩)
  · rintro h v hv ⟨e, he, hlate⟩
    exact (acts_iff (hwaiting v hv e he)).mpr (h v hv e he hlate)

/-! ### A job that stays a draft -/

/-- An API with one job of ten records, which is a draft whenever it is asked for. -/
def draftEnv (now : Int) : ExportEnv :=
  { emptyEnv now with
    create := fun _ => .ok ("job", 10)
    start := fun _ => .ok ()
    poll := fun _ => .ok .draft }

/-- The calls of three visits: one creates the job, one starts it, and one polls it. -/
private theorem visits_draft (now : Int) :
    ∃ v₀ v₁ v₂, defaultLoop.visits {} none
        [draftEnv noon, draftEnv (noon + minute), draftEnv now] = [v₀, v₁, v₂] ∧
      v₂.entered = some ⟨noon + minute, noon + minute⟩ ∧ v₂.env = draftEnv now ∧
      (decodeCursor v₂.since.cursor).phase = .polling := by
  have hidle : (decodeCursor ({} : Watermark).cursor).phase = .idle := by decide
  have hcreated : (decodeCursor (defaultLoop.afterCollect (draftEnv noon) {}).cursor).phase =
      .created := by decide +kernel
  have hstarted : (decodeCursor (defaultLoop.afterCollect (draftEnv (noon + minute))
      (defaultLoop.afterCollect (draftEnv noon) {})).cursor).phase = .polling := by decide +kernel
  refine ⟨_, _, _, rfl, ?_, rfl, hstarted⟩
  dsimp only
  rw [hidle, hcreated, hstarted]
  rfl

/-- **A draft is waited for in silence**: half an hour after the job first entered the polling phase,
a poll that finds it to be a draft sends it back to be started, with no error and no event. -/
theorem draft_waited_for_in_silence :
    (([noon, noon + minute, noon + 32 * minute].map draftEnv).map ExportEnv.now).Pairwise
      (· < ·) ∧
    ∃ v ∈ defaultLoop.visits {} none
        ([noon, noon + minute, noon + 32 * minute].map draftEnv),
      v.entered = some ⟨noon + minute, noon + minute⟩ ∧ v.env.now = noon + 32 * minute ∧
      defaultLoop.Overdue v ∧ ¬defaultLoop.Acts v ∧
      (decodeCursor (defaultLoop.afterCollect v.env v.since).cursor).phase = .created ∧
      (decodeCursor (defaultLoop.afterCollect v.env v.since).cursor).jobID =
        (decodeCursor v.since.cursor).jobID := by
  obtain ⟨v₀, v₁, v₂, hvisits, hv₂, henv, hphase⟩ := visits_draft (noon + 32 * minute)
  have hkeeps : defaultLoop.Keeps v₂.env v₂.since .created := by
    have hpolled := @collect_polling _ defaultLoop v₂.env v₂.since hphase
    rw [henv] at hpolled ⊢
    exact hpolled
  obtain ⟨⟨r, hresult⟩, hafter, hjob, -⟩ := hkeeps
  refine ⟨by decide, v₂, ?_, hv₂, by rw [henv]; rfl, ⟨_, hv₂, ?_⟩, ?_, hafter, hjob⟩
  · show v₂ ∈ defaultLoop.visits {} none _
    rw [List.map_cons, List.map_cons, List.map_singleton, hvisits]
    simp
  · rw [henv]
    decide
  · exact not_acts hresult hafter (Or.inl rfl)

end LogsExportLoop

end GenaiBridge
