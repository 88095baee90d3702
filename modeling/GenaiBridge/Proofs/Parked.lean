/-
A window with too many pages is parked.

When a window has more pages than are allowed, the loop keeps its bounds in the cursor
and does not create the export again: each call compares the kept bounds with the
window it would begin now.  Under an API that reports too many pages for every window
the loop is a worker of `Lib.Parking` (`collect_parks`), and the windows depend on the
clock through the bootstrap, the backfill floor and the settled cut-off, so a run
creates a second export unless all three stand still.

The comparison does not look at the limit.  A window that fits under a raised limit is
left only when its bounds move.
-/
import GenaiBridge.Lib.Parking
import GenaiBridge.Proofs.OpenWindows

namespace GenaiBridge

open Lib (Parking.probe Parking.probes)

/-- Whether a call is one of `createExport`. -/
def ExportCall.isCreate : ExportCall → Bool
  | .create _ _ _ _ => true
  | _ => false

namespace LogsExportLoop

variable {R : Type} {l : LogsExportLoop R} {env : ExportEnv} {w : Watermark}

/-! ### Runs whose commits succeed -/

/-- The watermark after a call: that of its batch, or the one it was called with. -/
def afterCollect (l : LogsExportLoop R) (env : ExportEnv) (w : Watermark) : Watermark :=
  match (l.collect env w).result with
  | .ok (_, w') => w'
  | .error _ => w

theorem afterCollect_of_ok {logs : List LogRecord} {w' : Watermark}
    (h : (l.collect env w).result = .ok (logs, w')) : l.afterCollect env w = w' := by
  unfold afterCollect
  rw [h]

theorem afterCollect_of_error {err : ExportError} (h : (l.collect env w).result = .error err) :
    l.afterCollect env w = w := by
  unfold afterCollect
  rw [h]

/-- The watermark after a run of calls. -/
def afterCollects (l : LogsExportLoop R) (w : Watermark) (envs : List ExportEnv) : Watermark :=
  envs.foldl (fun w env => l.afterCollect env w) w

/-- The clock of a call, once for every `createExport` it makes. -/
def creates (l : LogsExportLoop R) (env : ExportEnv) (w : Watermark) : List Int :=
  ((l.collect env w).calls.filter ExportCall.isCreate).map fun _ => env.now

/-- The clocks of the `createExport` calls of a run. -/
def creations (l : LogsExportLoop R) : Watermark → List ExportEnv → List Int
  | _, [] => []
  | w, env :: rest => l.creates env w ++ l.creations (l.afterCollect env w) rest

/-- Every window is reported with more pages than are allowed. -/
def ReportsOversize (l : LogsExportLoop R) (env : ExportEnv) : Prop :=
  ∀ request, ∃ jobID total, env.create request = .ok (jobID, total) ∧ 0 < total ∧
    total ≤ maxInt64 ∧ l.maxPagesPerWindow < l.pagesOf total

/-- No job is in flight. -/
def AtRest (w : Watermark) : Prop :=
  (decodeCursor w.cursor).phase ≠ .created ∧ (decodeCursor w.cursor).phase ≠ .polling ∧
    (decodeCursor w.cursor).phase ≠ .downloading

/-- What is kept of the window a watermark is parked on. -/
def parkedOn (w : Watermark) : Option (Option (Int × Int)) :=
  if (decodeCursor w.cursor).phase = .blocked then some (decodeCursor w.cursor).windowBounds else none

/-- The bounds of a window, written into a cursor and read again. -/
def keepBounds (b : Int × Int) : Option (Int × Int) :=
  ({ phase := .blocked, winMin := formatCursorTime b.1, winMax := formatCursorTime b.2 } :
    ExportCursor).windowBounds

theorem windowBounds_eq_keepBounds {c : ExportCursor} {b : Int × Int}
    (hmin : c.winMin = formatCursorTime b.1) (hmax : c.winMax = formatCursorTime b.2) :
    c.windowBounds = keepBounds b := by
  unfold keepBounds ExportCursor.windowBounds
  rw [hmin, hmax]

theorem atRest_of_blocked (h : (decodeCursor w.cursor).phase = .blocked) : AtRest w := by
  unfold AtRest
  rw [h]
  exact ⟨by decide, by decide, by decide⟩

theorem phase_of_parkedOn_none (h : parkedOn w = none) :
    (decodeCursor w.cursor).phase ≠ .blocked := by
  intro hphase
  unfold parkedOn at h
  rw [if_pos hphase] at h
  cases h

/-! ### The two steps at rest -/

theorem step_of_atRest (h : AtRest w) :
    l.step env w (decodeCursor w.cursor) =
      if (decodeCursor w.cursor).phase = .blocked then
        l.stepBlocked env w (decodeCursor w.cursor)
      else l.stepIdle env w := by
  obtain ⟨hcreated, hpolling, hdownloading⟩ := h
  unfold step
  cases hphase : (decodeCursor w.cursor).phase with
  | created => exact absurd hphase hcreated
  | polling => exact absurd hphase hpolling
  | downloading => exact absurd hphase hdownloading
  | blocked => rfl
  | idle => rfl
  | other name => rfl

theorem inInt64_tdiv {x y : Int} (hx : InInt64 x) (hy : 0 < y) : InInt64 (x.tdiv y) := by
  obtain ⟨hlo, hhi⟩ := hx
  by_cases hneg : 0 ≤ x
  · rw [Int.tdiv_eq_ediv_of_nonneg hneg]
    have hle := Int.ediv_le_self y hneg
    have h0 := Int.ediv_nonneg hneg (le_of_lt hy)
    exact ⟨by unfold minInt64; omega, hle.trans hhi⟩
  · have hpos : 0 ≤ -x := by omega
    have hle := Int.ediv_le_self y hpos
    have h0 := Int.ediv_nonneg hpos (le_of_lt hy)
    rw [← Int.tdiv_eq_ediv_of_nonneg hpos, Int.neg_tdiv] at hle h0
    exact ⟨by omega, by unfold maxInt64; omega⟩

theorem sizedCursor_wellFormed (hl : l.Accepted) (b : Int × Int) {total : Int}
    (htotal : InInt64 total) :
    (l.blockedCursor b total).WellFormed ∧
    ∀ jobID, ({ l.blockedCursor b total with phase := .created, jobID } : ExportCursor).WellFormed := by
  have hpages : InInt64 (l.pagesOf total) := inInt64_tdiv (inInt64_wrap64 _) hl.pageSize
  exact ⟨⟨rfl, by simp [blockedCursor, Phase.name], inInt64_zero, hpages, htotal, inInt64_zero,
    inInt64_zero⟩, fun jobID => ⟨rfl, by simp [Phase.name], inInt64_zero, hpages, htotal,
    inInt64_zero, inInt64_zero⟩⟩

/-- A parked window stays parked while it is the one that would begin. -/
theorem stepBlocked_eq :
    l.stepBlocked env w (decodeCursor w.cursor) =
      if Lib.Parking.Stays (l.opens w.time) (decodeCursor w.cursor).windowBounds env.now then
        ⟨[], .error (.blocked (windowStart l.window l.maxBackfill w.time env.now)
          (windowEnd l.window l.settle (windowStart l.window l.maxBackfill w.time env.now) env.now)
          (decodeCursor w.cursor).pages l.maxPagesPerWindow)⟩
      else ⟨[], .ok ([], resetIdle w.time)⟩ := by
  unfold stepBlocked
  rw [windowBoundsFor_eq]
  dsimp only
  refine if_congr ?_ rfl rfl
  unfold Lib.Parking.Stays
  rw [opens_eq]
  unfold windowFor
  dsimp only
  rw [decide_eq_true_iff]
  constructor
  · rintro ⟨hsettled, hbounds⟩
    rw [if_pos hsettled, hbounds]
    exact ⟨by simp, rfl⟩
  · rintro ⟨hsome, hbounds⟩
    split_ifs at hbounds with hsettled
    · exact ⟨hsettled, hbounds⟩
    · exact absurd hbounds hsome

/-! ### The loop as a parking worker -/

/-- The span a window began with is kept apart from its phase and its bounds. -/
theorem link_parks (env : ExportEnv) (w' : Watermark) (prior : ExportCursor) :
    (persistLifecycleLink env w' prior).time = w'.time ∧
    parkedOn (persistLifecycleLink env w' prior) = parkedOn w' ∧
    (AtRest (persistLifecycleLink env w' prior) ↔ AtRest w') := by
  obtain ⟨htime, traceID, spanID, hdecode⟩ := persistLifecycleLink_spec env w' prior
  refine ⟨htime, ?_, ?_⟩
  · unfold parkedOn
    rw [hdecode]
    rfl
  · unfold AtRest
    rw [hdecode]

theorem advanceCursor_time (t : Int) (c : ExportCursor) : (advanceCursor t c).time = t := rfl

theorem resetIdle_time (t : Int) : (resetIdle t).time = t := rfl

theorem parkedOn_advance {c : ExportCursor} (hc : c.WellFormed) (hphase : c.phase = .blocked)
    (t : Int) : parkedOn (advanceCursor t c) = some c.windowBounds ∧ AtRest (advanceCursor t c) := by
  have hdecode : decodeCursor (advanceCursor t c).cursor = c := decodeCursor_encode hc
  have hblocked : (decodeCursor (advanceCursor t c).cursor).phase = .blocked := by
    rw [hdecode, hphase]
  refine ⟨?_, atRest_of_blocked hblocked⟩
  rw [parkedOn, if_pos hblocked, hdecode]

theorem parkedOn_resetIdle (t : Int) :
    parkedOn (resetIdle t) = none ∧ AtRest (resetIdle t) := by
  unfold parkedOn AtRest
  rw [decodeCursor_resetIdle]
  exact ⟨rfl, by decide, by decide, by decide⟩

/-- **A new window that is too large is created and parked.** -/
theorem collect_oversize (hl : l.Accepted) (hw : AtRest w) (hfree : parkedOn w = none)
    {b : Int × Int} (hb : l.opens w.time env.now = some b) {jobID : String} {total : Int}
    (hcreate : env.create (l.exportRequest b.1 b.2 0) = .ok (jobID, total)) (hpos : 0 < total)
    (hmax : total ≤ maxInt64) (hpages : l.maxPagesPerWindow < l.pagesOf total) :
    (l.collect env w).calls =
      [.create b.1 b.2 0 (.ok (jobID, total)), .incomplete .windowOversize] ∧
    (l.collect env w).result = .ok ([], l.afterCollect env w) ∧
    (l.afterCollect env w).time = w.time ∧
    (decodeCursor (l.afterCollect env w).cursor).phase = .blocked ∧
    (decodeCursor (l.afterCollect env w).cursor).pages = l.pagesOf total ∧
    (decodeCursor (l.afterCollect env w).cursor).windowBounds = keepBounds b := by
  have hlimit := hl.maxPagesPerWindow
  have hwf := (l.sizedCursor_wellFormed hl b ⟨by unfold minInt64; omega, hmax⟩).1
  have hstep : l.stepIdle env w =
      ⟨[.create b.1 b.2 0 (.ok (jobID, total)), .incomplete .windowOversize],
        .ok ([], advanceCursor w.time (l.blockedCursor b total))⟩ := by
    rcases l.stepIdle_eq env w with ⟨hnone, -⟩ | ⟨b', hb', hstep⟩
    · cases hnone.symm.trans hb
    · obtain rfl := Option.some.inj (hb'.symm.trans hb)
      rw [hstep, hcreate]
      dsimp only
      rw [if_neg (by omega), if_pos ⟨hlimit, hpages⟩]
  have hcollect : l.collect env w =
      ⟨[.create b.1 b.2 0 (.ok (jobID, total)), .incomplete .windowOversize],
        .ok ([], persistLifecycleLink env
      (advanceCursor w.time (l.blockedCursor b total)) (decodeCursor w.cursor))⟩ := by
    unfold collect
    dsimp only
    rw [step_of_atRest hw, if_neg (phase_of_parkedOn_none hfree), hstep]
    rfl
  have hafter : l.afterCollect env w = persistLifecycleLink env
      (advanceCursor w.time (l.blockedCursor b total)) (decodeCursor w.cursor) :=
    afterCollect_of_ok (by rw [hcollect])
  obtain ⟨htime, traceID, spanID, hdecode⟩ := persistLifecycleLink_spec env
      (advanceCursor w.time (l.blockedCursor b total)) (decodeCursor w.cursor)
  rw [advanceCursor, decodeCursor_encode hwf] at hdecode
  rw [hafter, hcollect]
  refine ⟨rfl, rfl, by rw [htime, advanceCursor_time], ?_⟩
  rw [advanceCursor, hdecode]
  exact ⟨rfl, rfl, windowBounds_eq_keepBounds rfl rfl⟩

/-- A call with a parked window: it is kept or given up. -/
theorem collect_parked (hw : AtRest w) (hblocked : (decodeCursor w.cursor).phase = .blocked) :
    l.collect env w =
      if Lib.Parking.Stays (l.opens w.time) (decodeCursor w.cursor).windowBounds env.now then
        ⟨[], .error (.blocked (windowStart l.window l.maxBackfill w.time env.now)
          (windowEnd l.window l.settle (windowStart l.window l.maxBackfill w.time env.now) env.now)
          (decodeCursor w.cursor).pages l.maxPagesPerWindow)⟩
      else ⟨[], .ok ([], persistLifecycleLink env (resetIdle w.time) (decodeCursor w.cursor))⟩ := by
  unfold collect
  dsimp only
  rw [step_of_atRest hw, if_pos hblocked, stepBlocked_eq]
  split_ifs
  · rfl
  · rfl

/-- **One call of the loop is one turn of a parking worker**, and the time stands still. -/
theorem collect_parks (hl : l.Accepted) (henv : l.ReportsOversize env) (hw : AtRest w) :
    l.creates env w = Parking.probe (l.opens w.time) (parkedOn w) env.now ∧
    parkedOn (l.afterCollect env w) =
      Lib.Parking.next (l.opens w.time) keepBounds (parkedOn w) env.now ∧
    AtRest (l.afterCollect env w) ∧ (l.afterCollect env w).time = w.time := by
  by_cases hphase : (decodeCursor w.cursor).phase = .blocked
  · have hparked : parkedOn w = some (decodeCursor w.cursor).windowBounds := if_pos hphase
    have hnone : Parking.probe (l.opens w.time) (some (decodeCursor w.cursor).windowBounds) env.now
        = [] := if_neg fun h => by cases h.1
    have hcollect := @collect_parked R l env w hw hphase
    rw [hparked, hnone, Lib.Parking.next]
    by_cases hstays :
        Lib.Parking.Stays (l.opens w.time) (decodeCursor w.cursor).windowBounds env.now
    · rw [if_pos hstays] at hcollect ⊢
      rw [creates, hcollect, afterCollect_of_error (by rw [hcollect])]
      exact ⟨rfl, hparked, hw, rfl⟩
    · rw [if_neg hstays] at hcollect ⊢
      obtain ⟨htime, hpark, hrest⟩ :=
        link_parks env (resetIdle w.time) (decodeCursor w.cursor)
      obtain ⟨hidle, hidleRest⟩ := parkedOn_resetIdle w.time
      rw [creates, hcollect, afterCollect_of_ok (by rw [hcollect]), hpark, hidle, htime,
        resetIdle_time]
      exact ⟨rfl, rfl, hrest.mpr hidleRest, rfl⟩
  · have hparked : parkedOn w = none := if_neg hphase
    rw [hparked, Lib.Parking.next]
    rcases l.stepIdle_eq env w with ⟨hnone, hstep⟩ | ⟨b, hopens, -⟩
    · have hcollect : l.collect env w =
          ⟨[], .ok ([], persistLifecycleLink env w (decodeCursor w.cursor))⟩ := by
        unfold collect
        dsimp only
        rw [step_of_atRest hw, if_neg hphase, hstep]
        rfl
      obtain ⟨htime, hpark, hrest⟩ := link_parks env w (decodeCursor w.cursor)
      rw [creates, hcollect, afterCollect_of_ok (by rw [hcollect]), hpark, hparked, htime, hnone]
      exact ⟨(if_neg fun h => h.2 hnone).symm, rfl, hrest.mpr hw, rfl⟩
    · obtain ⟨jobID, total, hcreate, hpos, hmax, hpages⟩ := henv (l.exportRequest b.1 b.2 0)
      obtain ⟨hcalls, -, htime, hblocked, -, hbounds⟩ :=
        collect_oversize hl hw hparked hopens hcreate hpos hmax hpages
      refine ⟨?_, ?_, atRest_of_blocked hblocked, htime⟩
      · rw [Parking.probe, if_pos ⟨rfl, by rw [hopens]; simp⟩, creates, hcalls]
        rfl
      · rw [parkedOn, if_pos hblocked, hbounds, hopens]
        rfl

/-- **A run is a run of the worker.** -/
theorem creations_eq_probes (hl : l.Accepted) : ∀ (envs : List ExportEnv) (w : Watermark),
    AtRest w → (∀ env ∈ envs, l.ReportsOversize env) →
    l.creations w envs =
      Parking.probes (l.opens w.time) keepBounds (parkedOn w) (envs.map ExportEnv.now) ∧
    (l.afterCollects w envs).time = w.time := by
  intro envs
  induction envs with
  | nil =>
    intro w _ _
    exact ⟨rfl, rfl⟩
  | cons env rest ih =>
    intro w hw henvs
    obtain ⟨hcreates, hparked, hrest, htime⟩ :=
      collect_parks hl (henvs env List.mem_cons_self) hw
    obtain ⟨hcreations, hafter⟩ :=
      ih (l.afterCollect env w) hrest fun e he => henvs e (List.mem_cons_of_mem _ he)
    refine ⟨?_, ?_⟩
    · rw [creations, hcreates, hcreations, htime, hparked]
      rfl
    · show (l.afterCollects (l.afterCollect env w) rest).time = w.time
      rw [hafter, htime]

/-! ### When the window stands still -/

/-- A time that a cursor holds as it was. -/
def ReadsBack (t : Int) : Prop := parseCursorTime (formatCursorTime t) = some t

/-- What is kept of a window is the window, if it can be read. -/
theorem keepBounds_eq_some {b b' : Int × Int} :
    keepBounds b = some b' ↔ b' = b ∧ ReadsBack b.1 ∧ ReadsBack b.2 := by
  unfold keepBounds ExportCursor.windowBounds ReadsBack
  constructor
  · intro h
    cases hmin : parseCursorTime (formatCursorTime b.1) with
    | none => simp [hmin] at h
    | some winMin =>
      cases hmax : parseCursorTime (formatCursorTime b.2) with
      | none => simp [hmin, hmax] at h
      | some winMax =>
        obtain rfl := eq_of_parse_formatCursorTime hmin
        obtain rfl := eq_of_parse_formatCursorTime hmax
        simp only [hmin, hmax, Option.some.injEq] at h
        exact ⟨h.symm, rfl, rfl⟩
  · rintro ⟨rfl, hmin, hmax⟩
    rw [hmin, hmax]

theorem opens_eq_some {t now : Int} {b : Int × Int} :
    l.opens t now = some b ↔
      b = (windowStart l.window l.maxBackfill t now,
        windowEnd l.window l.settle (windowStart l.window l.maxBackfill t now) now) ∧ b.1 < b.2 := by
  rw [opens_eq]
  unfold windowFor
  dsimp only
  split_ifs with h
  · constructor
    · intro heq
      obtain rfl := Option.some.inj heq
      exact ⟨rfl, h⟩
    · rintro ⟨rfl, -⟩
      rfl
  · constructor
    · intro heq
      cases heq
    · rintro ⟨rfl, hlt⟩
      exact absurd hlt h

/-- Once there is a window, there is one at every later time. -/
theorem opens_mono (hl : l.Accepted) {t now later : Int} (hlt : now < later)
    (h : l.opens t now ≠ none) : l.opens t later ≠ none := by
  have hwindow := hl.window
  obtain ⟨b, hb⟩ := Option.ne_none_iff_exists'.mp h
  obtain ⟨rfl, hopen⟩ := opens_eq_some.mp hb
  refine Option.ne_none_iff_exists'.mpr ⟨_, opens_eq_some.mpr ⟨rfl, ?_⟩⟩
  dsimp only at hopen ⊢
  unfold windowEnd windowStart windowFrom at hopen ⊢
  split_ifs at hopen ⊢ <;> omega

/-- Between two times a window is the same just if the watermark is not behind the backfill floor
and the window had settled as a whole. -/
theorem opens_eq_iff (hl : l.Accepted) {t now later : Int} (hlt : now < later) {b : Int × Int}
    (hb : l.opens t now = some b) :
    l.opens t later = some b ↔
      t ≠ 0 ∧ later - l.maxBackfill ≤ t ∧ t + l.window ≤ now - l.settle ∧ b = (t, t + l.window) := by
  have hwindow := hl.window
  obtain ⟨rfl, hopen⟩ := opens_eq_some.mp hb
  rw [opens_eq_some]
  simp only [Prod.mk.injEq] at hopen ⊢
  unfold windowEnd windowStart windowFrom at hopen ⊢
  split_ifs at hopen ⊢ with hzero
  · constructor
    · rintro ⟨⟨hmin, -⟩, -⟩
      omega
    · rintro ⟨hne, -⟩
      exact absurd hzero hne
  · constructor
    · rintro ⟨⟨hmin, hmax⟩, -⟩
      omega
    · rintro ⟨-, hfloor, hsettled, hmin, hmax⟩
      omega

theorem stays_iff (hl : l.Accepted) {t now later : Int} (hlt : now < later)
    (hopen : l.opens t now ≠ none) :
    Lib.Parking.Stays (l.opens t) ((l.opens t now).bind keepBounds) later ↔
      t ≠ 0 ∧ later - l.maxBackfill ≤ t ∧ t + l.window ≤ now - l.settle ∧
        ReadsBack t ∧ ReadsBack (t + l.window) := by
  obtain ⟨b, hb⟩ := Option.ne_none_iff_exists'.mp hopen
  rw [hb, Option.bind_some]
  have hiff := opens_eq_iff hl hlt hb
  unfold Lib.Parking.Stays
  constructor
  · rintro ⟨hne, heq⟩
    obtain ⟨b', hb'⟩ := Option.ne_none_iff_exists'.mp hne
    obtain ⟨rfl, hmin, hmax⟩ := keepBounds_eq_some.mp hb'
    obtain ⟨hzero, hfloor, hsettled, rfl⟩ := hiff.mp (heq.symm.trans hb')
    exact ⟨hzero, hfloor, hsettled, hmin, hmax⟩
  · rintro ⟨hzero, hfloor, hsettled, hmin, hmax⟩
    have hwhole : b = (t, t + l.window) := by
      have hwindow := hl.window
      obtain ⟨rfl, -⟩ := opens_eq_some.mp hb
      simp only [Prod.mk.injEq]
      unfold windowEnd windowStart windowFrom
      rw [if_neg hzero]
      omega
    have hkeep : keepBounds b = some b := by
      refine keepBounds_eq_some.mpr ⟨rfl, ?_⟩
      rw [hwhole]
      exact ⟨hmin, hmax⟩
    rw [hkeep]
    exact ⟨by simp, (hiff.mpr ⟨hzero, hfloor, hsettled, hwhole⟩).symm⟩

/-- **An oversize window is created once just while it stands still.**  With an API that reports too
many pages for every window, and no job in flight, the time never moves.  There is no second
`createExport` if and only if, from the first clock at which the loop is not parked and finds a
window, at every later one but the last there was a watermark, it was not behind the backfill floor,
and the window had settled as a whole when it was created (and a cursor can hold its bounds). -/
theorem oversize_created_once_iff (hl : l.Accepted) (since : Watermark) (hrest : AtRest since)
    (envs : List ExportEnv) (hclock : (envs.map ExportEnv.now).Pairwise (· < ·))
    (hoversize : ∀ env ∈ envs, l.ReportsOversize env) :
    (∀ k, (l.afterCollects since (envs.take k)).time = since.time) ∧
    ((l.creations since envs).length ≤ 1 ↔
      ∀ first, Lib.Parking.FirstProbe (l.opens since.time) (parkedOn since) (envs.map ExportEnv.now)
        first → ∀ env ∈ envs, first < env.now → (∃ later ∈ envs, env.now < later.now) →
        since.time ≠ 0 ∧ env.now - l.maxBackfill ≤ since.time ∧
          since.time + l.window ≤ first - l.settle ∧
          ReadsBack since.time ∧ ReadsBack (since.time + l.window)) := by
  constructor
  · intro k
    exact (creations_eq_probes hl (envs.take k) since hrest fun env he =>
      hoversize env (List.mem_of_mem_take he)).2
  · rw [(creations_eq_probes hl envs since hrest hoversize).1,
      Lib.Parking.probes_le_one_iff hclock fun t _ u _ htu => opens_mono hl htu]
    refine forall₂_congr fun first hfirst => ?_
    constructor
    · intro h env henv hlt hlater
      obtain ⟨later, hmem, hnow⟩ := hlater
      exact (stays_iff hl hlt hfirst.finds).mp (h env.now (List.mem_map_of_mem henv) hlt
        ⟨later.now, List.mem_map_of_mem hmem, hnow⟩)
    · intro h t ht hlt hlater
      obtain ⟨env, henv, rfl⟩ := List.mem_map.mp ht
      obtain ⟨u, hu, hnow⟩ := hlater
      obtain ⟨later, hmem, rfl⟩ := List.mem_map.mp hu
      exact (stays_iff hl hlt hfirst.finds).mpr (h env henv hlt ⟨later, hmem, hnow⟩)

/-- An API that reports 52 pages of 50000 for every window. -/
def hugeEnv (now : Int) : ExportEnv := { emptyEnv now with create := fun _ => .ok ("job", 2600000) }

theorem hugeEnv_oversize (now : Int) : defaultLoop.ReportsOversize (hugeEnv now) :=
  fun _ => ⟨"job", 2600000, rfl, by decide, by decide, by decide⟩

theorem defaultLoop_bounds : defaultLoop.Accepted :=
  accepted_newLogsExportLoop defaultLoop_accepted

private theorem oversize_of_hugeEnv {nows : List Int} :
    ∀ env ∈ nows.map hugeEnv, defaultLoop.ReportsOversize env := by
  intro env henv
  obtain ⟨now, -, rfl⟩ := List.mem_map.mp henv
  exact hugeEnv_oversize now

theorem readsBack_noon {t : Int} (h0 : noon ≤ t) (h1 : t ≤ noon + hour) : ReadsBack t := by
  have hlo : 0 ≤ Lib.Rfc3339.year noon := by decide +kernel
  have hhi : Lib.Rfc3339.year (noon + hour) ≤ 9999 := by decide +kernel
  exact parse_formatCursorTime (hlo.trans (Lib.Rfc3339.year_mono h0))
    ((Lib.Rfc3339.year_mono h1).trans hhi)

/-- A watermark three hours back, called every hour: the window is created once. -/
theorem oversize_created_once_settled :
    (defaultLoop.creations { time := noon }
      ([noon + 3 * hour, noon + 4 * hour, noon + 5 * hour].map hugeEnv)).length ≤ 1 := by
  have hrest : AtRest { time := noon } := ⟨by decide, by decide, by decide⟩
  have hclocks : ∀ now ∈ ([noon + 3 * hour, noon + 4 * hour, noon + 5 * hour].map hugeEnv).map
      ExportEnv.now, noon + 3 * hour ≤ now ∧ now ≤ noon + 5 * hour := by decide
  refine (oversize_created_once_iff defaultLoop_bounds { time := noon } hrest _ (by decide)
    oversize_of_hugeEnv).2.mpr ?_
  intro first hfirst env henv _ _
  have hcreated := (hclocks first hfirst.mem).1
  have hnow := (hclocks env.now (List.mem_map_of_mem henv)).2
  refine ⟨by decide, ?_, ?_, readsBack_noon (le_refl _) (by decide),
    readsBack_noon (by decide) (le_refl _)⟩
  · show env.now - 24 * hour ≤ noon
    unfold hour at hnow ⊢
    omega
  · show noon + hour ≤ first - 10 * minute
    unfold hour at hcreated ⊢
    unfold minute
    omega

/-- The same API, whose jobs cannot be started and turn out to have failed. -/
def failingEnv (now : Int) : ExportEnv := { hugeEnv now with poll := fun _ => .ok (.other "failed") }

/-- A watermark at noon whose window lacks the export of its second page. -/
def secondPage : ExportCursor :=
  { phase := .created
    winMin := formatCursorTime noon
    winMax := formatCursorTime (noon + hour)
    page := 1
    pages := 2
    totalRecords := 60000 }

/-- **Without a watermark every other call creates an export**: the window of a bootstrap moves with
the clock, so the block is lifted at the next call and the one after creates again.  With a page left
to be created there are two exports as well, also where the window stands still. -/
theorem oversize_created_again :
    (∀ now, defaultLoop.ReportsOversize (hugeEnv now)) ∧
    (([noon, noon + hour, noon + 2 * hour].map hugeEnv).map ExportEnv.now).Pairwise (· < ·) ∧
    (defaultLoop.afterCollects {} ([noon, noon + hour, noon + 2 * hour].map hugeEnv)).time = 0 ∧
    defaultLoop.creations {} ([noon, noon + hour, noon + 2 * hour].map hugeEnv) =
      [noon, noon + 2 * hour] ∧
    (∀ now, defaultLoop.ReportsOversize (failingEnv now)) ∧
    let nows := [noon + 3 * hour, noon + 4 * hour, noon + 5 * hour, noon + 6 * hour]
    defaultLoop.creations (advanceCursor noon secondPage) (nows.map failingEnv) =
      [noon + 3 * hour, noon + 6 * hour] := by
  have hrest : AtRest {} := ⟨by decide, by decide, by decide⟩
  obtain ⟨hcreations, htime⟩ := creations_eq_probes defaultLoop_bounds
    ([noon, noon + hour, noon + 2 * hour].map hugeEnv) {} hrest oversize_of_hugeEnv
  exact ⟨hugeEnv_oversize, by decide, htime, hcreations.trans (by decide +kernel), hugeEnv_oversize,
    by decide +kernel⟩

/-! ### A limit that is raised -/

/-- What a blocked cursor that a call has written says. -/
theorem parked_by_collect (hl : l.Accepted) {since : Watermark} {logs : List LogRecord}
    (hrest : AtRest since) (hfree : parkedOn since = none)
    (htotal : ∀ request jobID total, env.create request = .ok (jobID, total) → InInt64 total)
    (hcollect : (l.collect env since).result = .ok (logs, w)) (hparked : parkedOn w ≠ none) :
    ∃ b, l.opens since.time env.now = some b ∧ w.time = since.time ∧ AtRest w ∧
      parkedOn w = some (keepBounds b) := by
  unfold collect at hcollect
  dsimp only at hcollect
  rw [step_of_atRest hrest, if_neg (phase_of_parkedOn_none hfree)] at hcollect
  rcases l.stepIdle_eq env since with ⟨-, hstep⟩ | ⟨b, hopens, hstep⟩
  · rw [hstep] at hcollect
    obtain ⟨-, rfl⟩ := Prod.mk.inj (Except.ok.inj hcollect)
    rw [(link_parks _ _ _).2.1] at hparked
    exact absurd hfree hparked
  · rw [hstep] at hcollect
    cases hcreate : env.create (l.exportRequest b.1 b.2 0) with
    | error err =>
      rw [hcreate] at hcollect
      cases hcollect
    | ok created =>
      obtain ⟨jobID, total⟩ := created
      obtain ⟨hblocked, hcreated⟩ :=
        sizedCursor_wellFormed hl b (htotal _ _ _ hcreate)
      rw [hcreate] at hcollect
      dsimp only at hcollect
      split_ifs at hcollect
      · -- an empty window leaves no cursor
        obtain ⟨-, rfl⟩ := Prod.mk.inj (Except.ok.inj hcollect)
        rw [(link_parks _ _ _).2.1] at hparked
        exact absurd rfl hparked
      · obtain ⟨-, rfl⟩ := Prod.mk.inj (Except.ok.inj hcollect)
        obtain ⟨htime, hpark, hrest'⟩ := link_parks env
          (advanceCursor since.time (l.blockedCursor b total)) (decodeCursor since.cursor)
        obtain ⟨hkept, hkeptRest⟩ := parkedOn_advance hblocked rfl since.time
        have hkeep : (l.blockedCursor b total).windowBounds = keepBounds b :=
          windowBounds_eq_keepBounds rfl rfl
        rw [hkeep] at hkept
        exact ⟨b, hopens, htime.trans (advanceCursor_time _ _), hrest'.mpr hkeptRest,
          hpark.trans hkept⟩
      · obtain ⟨-, rfl⟩ := Prod.mk.inj (Except.ok.inj hcollect)
        rw [(link_parks _ _ _).2.1] at hparked
        refine absurd ?_ hparked
        unfold parkedOn
        rw [show decodeCursor (advanceCursor since.time _).cursor = _ from
          decodeCursor_encode (hcreated jobID)]
        rfl

theorem idle_of_atRest (hrest : AtRest w) (hfree : parkedOn w = none) : Idle w := by
  have hblocked := phase_of_parkedOn_none hfree
  obtain ⟨hcreated, hpolling, hdownloading⟩ := hrest
  unfold Idle
  cases hphase : (decodeCursor w.cursor).phase with
  | idle => exact Or.inl rfl
  | other name => exact Or.inr ⟨name, rfl⟩
  | created => exact absurd hphase hcreated
  | polling => exact absurd hphase hpolling
  | downloading => exact absurd hphase hdownloading
  | blocked => exact absurd hphase hblocked

/-- A call without a job in flight creates an export just if there is a window. -/
theorem creates_iff_opens (hrest : AtRest w) (hfree : parkedOn w = none) :
    (∃ c ∈ (l.collect env w).calls, c.isCreate = true) ↔ l.opens w.time env.now ≠ none := by
  have hidle := idle_of_atRest hrest hfree
  constructor
  · rintro ⟨c, hmem, hcreate⟩
    cases c with
    | create m M page answer =>
      rw [← begins_idle hidle, ((create_mem_collect_iff hidle).mp hmem).1]
      simp
    | _ => cases hcreate
  · intro hopens
    obtain ⟨b, hb⟩ := Option.ne_none_iff_exists'.mp hopens
    exact ⟨_, (create_mem_collect_iff hidle).mpr ⟨(begins_idle hidle _).trans hb, rfl, rfl⟩, rfl⟩

/-- **A parked window is released when its bounds move, not when it fits.**  A window was parked by
one loop; later calls are made with other settings, under which its pages may be allowed.  The next
call does not raise the oversize error and the one after creates an export if and only if the window
that begins now is another one (or the cursor could not hold the parked one), and there is a window
to begin at the second call. -/
theorem parked_window_released_iff {l₀ l : LogsExportLoop R} (hl₀ : l₀.Accepted)
    {env₀ : ExportEnv} {since w : Watermark} {logs : List LogRecord} (hrest : AtRest since)
    (hfree : parkedOn since = none)
    (htotal : ∀ request jobID total, env₀.create request = .ok (jobID, total) → InInt64 total)
    (hcollect : (l₀.collect env₀ since).result = .ok (logs, w))
    (hblocked : (decodeCursor w.cursor).phase = .blocked)
    (_hfits : (decodeCursor w.cursor).pages ≤ l.maxPagesPerWindow) (env₁ env₂ : ExportEnv) :
    ((∀ winMin winMax pages limit,
        (l.collect env₁ w).result ≠ .error (.blocked winMin winMax pages limit)) ∧
      ∃ c ∈ (l.collect env₂ (l.afterCollect env₁ w)).calls, c.isCreate = true) ↔
    ¬ (l.opens since.time env₁.now = l₀.opens since.time env₀.now ∧
        ∀ b ∈ l₀.opens since.time env₀.now, ReadsBack b.1 ∧ ReadsBack b.2) ∧
      l.opens since.time env₂.now ≠ none := by
  have hparked : parkedOn w = some (decodeCursor w.cursor).windowBounds := if_pos hblocked
  obtain ⟨b, hopens, htime, hwrest, hkept⟩ :=
    parked_by_collect hl₀ hrest hfree htotal hcollect (by rw [hparked]; simp)
  have hbounds : (decodeCursor w.cursor).windowBounds = keepBounds b :=
    Option.some.inj (hparked.symm.trans hkept)
  -- the block stands just if the window is the one that was kept
  have hstays : Lib.Parking.Stays (l.opens w.time) (decodeCursor w.cursor).windowBounds env₁.now ↔
      l.opens since.time env₁.now = l₀.opens since.time env₀.now ∧
        ∀ b ∈ l₀.opens since.time env₀.now, ReadsBack b.1 ∧ ReadsBack b.2 := by
    rw [hbounds, htime, hopens]
    unfold Lib.Parking.Stays
    constructor
    · rintro ⟨hne, heq⟩
      obtain ⟨b', hb'⟩ := Option.ne_none_iff_exists'.mp hne
      obtain ⟨rfl, hreads⟩ := keepBounds_eq_some.mp hb'
      refine ⟨heq.symm.trans hb', fun b hb => ?_⟩
      obtain rfl := Option.some.inj hb
      exact hreads
    · rintro ⟨heq, hreads⟩
      have hkeep : keepBounds b = some b := keepBounds_eq_some.mpr ⟨rfl, hreads b rfl⟩
      rw [hkeep]
      exact ⟨by simp, heq.symm⟩
  rw [← hstays]
  by_cases hstand :
      Lib.Parking.Stays (l.opens w.time) (decodeCursor w.cursor).windowBounds env₁.now
  · constructor
    · rintro ⟨hno, -⟩
      rw [collect_parked hwrest hblocked, if_pos hstand] at hno
      exact absurd rfl (hno _ _ _ _)
    · rintro ⟨hnot, -⟩
      exact absurd hstand hnot
  · obtain ⟨hresetTime, hresetPark, hresetRest⟩ :=
      link_parks env₁ (resetIdle w.time) (decodeCursor w.cursor)
    obtain ⟨hidle, hidleRest⟩ := parkedOn_resetIdle w.time
    have hafter : l.afterCollect env₁ w =
        persistLifecycleLink env₁ (resetIdle w.time) (decodeCursor w.cursor) :=
      afterCollect_of_ok (by rw [collect_parked hwrest hblocked, if_neg hstand])
    have hcreates := @creates_iff_opens R l env₂ _ (hresetRest.mpr hidleRest)
      (hresetPark.trans hidle)
    rw [hafter, hcreates, hresetTime]
    constructor
    · rintro ⟨-, hopen⟩
      refine ⟨hstand, ?_⟩
      rw [← htime]
      exact hopen
    · rintro ⟨-, hopen⟩
      constructor
      · intro winMin winMax pages limit herror
        rw [collect_parked hwrest hblocked, if_neg hstand] at herror
        cases herror
      · rw [← htime] at hopen
        exact hopen

/-- A watermark at noon after a call at three: its window is parked by the default loop. -/
def parkedNoon : Watermark :=
  defaultLoop.afterCollect (hugeEnv (noon + 3 * hour)) { time := noon }

private theorem parkedNoon_spec :
    (defaultLoop.collect (hugeEnv (noon + 3 * hour)) { time := noon }).result =
      .ok ([], parkedNoon) ∧
    (decodeCursor parkedNoon.cursor).phase = .blocked ∧
    (decodeCursor parkedNoon.cursor).pages = 52 := by
  have hrest : AtRest { time := noon } := ⟨by decide, by decide, by decide⟩
  have hopens : defaultLoop.opens noon (noon + 3 * hour) = some (noon, noon + hour) := by decide
  obtain ⟨-, hresult, -, hblocked, hpages, -⟩ :=
    @collect_oversize _ defaultLoop (hugeEnv (noon + 3 * hour)) { time := noon } defaultLoop_bounds
      hrest (by decide) _ hopens "job" 2600000 rfl (by decide) (by decide) (by decide)
  exact ⟨hresult, hblocked, hpages.trans (by decide)⟩

/-- A loop with windows of half an hour, whose limit was raised too. -/
private def shrunkLoop : LogsExportLoop Empty :=
  { defaultLoop with window := 30 * minute, maxPagesPerWindow := 100 }

/-- Smaller windows release a parked one. -/
theorem parked_window_released_shrunk :
    ∃ c ∈ (shrunkLoop.collect (hugeEnv (noon + 5 * hour))
      (shrunkLoop.afterCollect (hugeEnv (noon + 4 * hour)) parkedNoon)).calls, c.isCreate = true := by
  obtain ⟨hresult, hblocked, hpages⟩ := parkedNoon_spec
  have htotal : ∀ request jobID total,
      (hugeEnv (noon + 3 * hour)).create request = .ok (jobID, total) → InInt64 total := by
    intro request jobID total h
    cases h
    exact ⟨by decide, by decide⟩
  have hmoved : shrunkLoop.opens noon (noon + 4 * hour) ≠
      defaultLoop.opens noon (noon + 3 * hour) := by decide
  exact ((parked_window_released_iff (l := shrunkLoop) defaultLoop_bounds
    ⟨by decide, by decide, by decide⟩ (by decide) htotal hresult hblocked
    (by rw [hpages]; decide) (hugeEnv (noon + 4 * hour)) (hugeEnv (noon + 5 * hour))).mpr
    ⟨fun h => absurd h.1 hmoved, by decide⟩).2

/-- The default loop after its limit was raised. -/
def raisedLoop : LogsExportLoop Empty := { defaultLoop with maxPagesPerWindow := 100 }

/-- **A raised limit releases nothing**: the 52 pages of the parked window are allowed now, and the
error says that they are more than a hundred. -/
theorem raised_limit_stays_blocked :
    (decodeCursor parkedNoon.cursor).phase = .blocked ∧
    (decodeCursor parkedNoon.cursor).pages = 52 ∧
    (raisedLoop.collect (hugeEnv (noon + 4 * hour)) parkedNoon).result =
      .error (.blocked noon (noon + hour) 52 100) := by
  obtain ⟨-, hblocked, hpages⟩ := parkedNoon_spec
  exact ⟨hblocked, hpages, by decide +kernel⟩

end LogsExportLoop

end GenaiBridge
