/-
The buckets a catch-up skips, and the minutes counted for them.

`Collect` starts no earlier than its own clock allows, and skips the buckets that end
before.  `runOnce` has counted whole minutes from the watermark up to the floor of the
scheduler's clock.  Over the ticks of one leadership the counts for a watermark add up
(`Tally`), because the watermark a tick reads never goes back: the store refuses to, and
the runner follows the store.  A new leader starts to count afresh, which only adds to
what was reported before.  What is left is how minutes from an unaligned watermark
compare with aligned bucket ends.
-/
import GenaiBridge.Bridge.RunOnce
import GenaiBridge.Proofs.Analytics
import GenaiBridge.Proofs.Backfill
import GenaiBridge.Proofs.Commit
import Mathlib.Algebra.Order.BigOperators.Group.List
import Mathlib.Data.Int.CardIntervalMod
import Mathlib.Data.Set.Card

namespace GenaiBridge

variable {V : Type}

/-! ### What the ticks report -/

/-- The minutes that metrics add to `backfill_unstorable`. -/
def unstorable (metrics : List TickMetric) : Int :=
  (metrics.map fun
    | .samplesSkipped reason n => if reason = "backfill_unstorable" then n else 0
    | _ => 0).sum

/-- What a tick reports, with the time of the watermark it collected from. -/
structure TickReport where
  since : Option Int
  metrics : List TickMetric
deriving DecidableEq, Repr

/-- The minutes reported for a watermark. -/
def raisedFor (wm : Int) (reports : List TickReport) : Int :=
  (reports.map fun r => if r.since = some wm then unstorable r.metrics else 0).sum

theorem raisedFor_append (wm : Int) (reports reports' : List TickReport) :
    raisedFor wm (reports ++ reports') = raisedFor wm reports + raisedFor wm reports' := by
  simp [raisedFor]

theorem raisedFor_concat (wm : Int) (reports : List TickReport) (r : TickReport) :
    raisedFor wm (reports ++ [r]) =
      raisedFor wm reports + if r.since = some wm then unstorable r.metrics else 0 := by
  simp [raisedFor]

theorem raisedFor_nonneg {reports : List TickReport}
    (h : ∀ r ∈ reports, r.since ≠ none → 0 ≤ unstorable r.metrics) (wm : Int) :
    0 ≤ raisedFor wm reports := by
  refine List.sum_nonneg fun n hn => ?_
  obtain ⟨r, hr, rfl⟩ := List.mem_map.mp hn
  split
  · rename_i hsince
    exact h r hr (by rw [hsince]; exact Option.some_ne_none wm)
  · exact le_refl 0

theorem raisedFor_eq_zero {reports : List TickReport} {wm : Int}
    (h : ∀ r ∈ reports, r.since ≠ some wm) : raisedFor wm reports = 0 := by
  refine List.sum_eq_zero fun n hn => ?_
  obtain ⟨r, hr, rfl⟩ := List.mem_map.mp hn
  exact if_neg (h r hr)

theorem BackfillCount.runOnce_nonneg (sp : BackfillSpec) (s : BackfillCount) (t : BackfillTick) :
    0 ≤ (s.runOnce sp t).1 := by
  unfold BackfillCount.runOnce
  by_cases hbusy : t.busy = true
  · rw [if_pos hbusy]
  · rw [if_neg hbusy]
    cases t.since with
    | none => exact le_refl 0
    | some wm =>
      dsimp only
      split
      · unfold BackfillCount.backfillUnstorableMinutes
        dsimp only
        split <;> omega
      · exact le_refl 0

/-! ### The total for a watermark -/

/-- What was counted and reported after a tick with this floor and watermark. -/
structure Tally (s : BackfillCount) (reports : List TickReport) (floor wm : Int) : Prop where
  /-- The minutes reported for the watermark reach from it to the next start. -/
  minutes : raisedFor wm reports * minute = s.start wm - wm
  start_le : s.start wm ≤ max floor wm
  /-- Nothing was counted for a later watermark. -/
  later : ∀ w, wm < w → s.start w = w ∧ raisedFor w reports = 0

namespace Tally

variable {s : BackfillCount} {reports : List TickReport} {floor wm : Int}

theorem empty (before : BackfillCount) (floor wm : Int) : Tally before.reset [] floor wm := by
  have hstart : ∀ w, before.reset.start w = w := by
    intro w
    unfold BackfillCount.start BackfillCount.reset
    rw [if_neg]
    rintro ⟨hwm, hfloor⟩
    simp only at hwm hfloor
    omega
  refine ⟨?_, ?_, fun w _ => ⟨hstart w, rfl⟩⟩
  · rw [hstart]
    simp [raisedFor]
  · rw [hstart]
    exact le_max_right _ _

/-- The clock goes on, and the watermark does not go back. -/
theorem move (h : Tally s reports floor wm) {floor' wm' : Int} (hfloor : floor ≤ floor')
    (hwm : wm ≤ wm') : Tally s reports floor' wm' := by
  rcases eq_or_lt_of_le hwm with rfl | hlt
  · exact ⟨h.minutes, h.start_le.trans (max_le_max hfloor (le_refl _)), h.later⟩
  · obtain ⟨hstart, hnone⟩ := h.later wm' hlt
    refine ⟨?_, ?_, fun w hw => h.later w (hlt.trans hw)⟩
    · rw [hnone, hstart]
      simp
    · rw [hstart]
      exact le_max_right _ _

theorem skip (h : Tally s reports floor wm) (metrics : List TickMetric) :
    Tally s (reports ++ [⟨none, metrics⟩]) floor wm := by
  have hsame : ∀ w, raisedFor w (reports ++ [⟨none, metrics⟩]) = raisedFor w reports := by
    intro w
    rw [raisedFor_concat]
    simp
  refine ⟨?_, h.start_le, fun w hw => ?_⟩
  · rw [hsame]
    exact h.minutes
  · rw [hsame]
    exact h.later w hw

theorem count {sp : BackfillSpec} {now : Int} (h : Tally s reports (sp.floor now) wm)
    {metrics : List TickMetric} (hmetrics : unstorable metrics =
      (s.runOnce sp ⟨now, false, some wm⟩).1) :
    Tally (s.runOnce sp ⟨now, false, some wm⟩).2 (reports ++ [⟨some wm, metrics⟩])
      (sp.floor now) wm := by
  have hraised : ∀ w, raisedFor w (reports ++ [⟨some wm, metrics⟩]) =
      raisedFor w reports + if wm = w then (s.runOnce sp ⟨now, false, some wm⟩).1 else 0 := by
    intro w
    rw [raisedFor_concat, ← hmetrics]
    simp
  have hrun : s.runOnce sp ⟨now, false, some wm⟩ =
      if 0 < sp.window ∧ wm ≠ 0 ∧ wm < sp.floor now then
        s.backfillUnstorableMinutes wm (sp.floor now) else (0, s) := rfl
  by_cases hgate : 0 < sp.window ∧ wm ≠ 0 ∧ wm < sp.floor now
  · rw [if_pos hgate] at hrun
    have hle : s.start wm ≤ sp.floor now := by
      have := h.start_le
      omega
    obtain ⟨hmins, hstart, hlater⟩ := s.backfillUnstorableMinutes_spec hle
    have hbelow : min (sp.floor now - s.start wm) maxInt64 / minute * minute ≤
        sp.floor now - s.start wm :=
      (Int.ediv_mul_le _ (by decide)).trans (min_le_left _ _)
    rw [hrun] at hraised ⊢
    refine ⟨?_, ?_, fun w hw => ⟨hlater w (by omega) (h.later w hw).1, ?_⟩⟩
    · rw [hraised, if_pos rfl, add_mul, h.minutes, hmins, hstart]
      omega
    · rw [hstart]
      exact le_max_of_le_left (by omega)
    · rw [hraised, if_neg (by omega), add_zero]
      exact (h.later w hw).2
  · rw [if_neg hgate] at hrun
    rw [hrun] at hraised ⊢
    simp only [ite_self, add_zero] at hraised
    refine ⟨?_, h.start_le, fun w hw => ?_⟩
    · rw [hraised]
      exact h.minutes
    · rw [hraised]
      exact h.later w hw

end Tally

/-! ### The ticks of the leaders -/

namespace AnalyticsLoop

/-- The times the store holds while a tick runs: at the load, at the save, and after it.  They never
go back, also where others write. -/
structure StoreTimes (t : Tick V) (calls : List (Call V)) (before atLoad atSave after : Int) :
    Prop where
  before_le : before ≤ atLoad
  atLoad_le : atLoad ≤ atSave
  atSave_le : atSave ≤ after
  load : ∀ w, t.load = some w → w.time = atLoad
  /-- The fence: nothing earlier than what is stored is accepted. -/
  fence : ∀ w, t.env.save w = .ok → atSave ≤ w.time
  written : ∀ w ∈ written calls, w.time ≤ after
  reload : ∀ w, t.env.load = some w → atSave ≤ w.time ∧ w.time ≤ after

/-- The position in memory lies between the last watermark read and the stored one. -/
structure Between (r : LoopRunner) (wm stored : Int) : Prop where
  le_stored : wm ≤ stored
  front : r.hasFront = true → wm ≤ r.frontier.time ∧ r.frontier.time ≤ stored

theorem Between.same {r r' : LoopRunner} {wm stored stored' : Int} (h : Between r wm stored)
    (hfront : SameFront r r') (hstored : stored ≤ stored') : Between r' wm stored' := by
  refine ⟨h.le_stored.trans hstored, fun hhas => ?_⟩
  rw [hfront.2] at hhas
  rw [hfront.1]
  exact ⟨(h.front hhas).1, (h.front hhas).2.trans hstored⟩

section

variable [Div V] [OfNat V 1000] [BEq V] {sha256 : String → String} {l : AnalyticsLoop} {s : Led V}
  {t : Tick V}

/-- What a tick reports. -/
def report (sha256 : String → String) (l : AnalyticsLoop) (s : Led V) (t : Tick V) : TickReport :=
  ⟨(s.since t).map Watermark.time, (l.ticked sha256 s t).metrics⟩

theorem ticked_of_none (h : s.since t = none) :
    (l.ticked sha256 s t).runner = s.runner ∧ (l.ticked sha256 s t).count = s.count ∧
      (l.ticked sha256 s t).enqueued = none := by
  unfold Led.since at h
  unfold ticked runOnce
  by_cases hbusy : t.busy = true
  · rw [if_pos hbusy]
    exact ⟨rfl, rfl, rfl⟩
  · rw [if_neg hbusy] at h ⊢
    rw [h]
    exact ⟨rfl, rfl, rfl⟩

/-- A tick that reads a watermark counts for it and reports what it counted. -/
theorem ticked_of_some {since : Watermark} (h : s.since t = some since) :
    let counted := s.count.runOnce l.backfillSpec ⟨t.now, false, some since.time⟩
    SameFront s.runner (l.ticked sha256 s t).runner ∧ (l.ticked sha256 s t).count = counted.2 ∧
      unstorable (l.ticked sha256 s t).metrics = counted.1 := by
  intro counted
  unfold Led.since at h
  unfold ticked runOnce
  by_cases hbusy : t.busy = true
  · rw [if_pos hbusy] at h
    cases h
  · rw [if_neg hbusy] at h ⊢
    have hfalse : t.busy = false := by simpa using hbusy
    rw [h]
    dsimp only
    rw [hfalse]
    have hnonneg : 0 ≤ counted.1 := BackfillCount.runOnce_nonneg _ _ _
    have hlag : unstorable (if Time.isZero since.time then []
        else [TickMetric.windowLag (Time.sub t.now since.time)]) = 0 := by
      split <;> rfl
    have hmins : unstorable (if 0 < counted.1 then
        [TickMetric.samplesSkipped "backfill_unstorable" counted.1] else []) = counted.1 := by
      by_cases hpos : 0 < counted.1
      · rw [if_pos hpos]
        simp [unstorable]
      · rw [if_neg hpos]
        show (0 : Int) = counted.1
        omega
    have hsum : ∀ a b : List TickMetric, unstorable (a ++ b) = unstorable a + unstorable b := by
      intro a b
      simp [unstorable]
    have hother : unstorable [TickMetric.samplesSkipped "quota_exceeded" 1] = 0 := by decide
    have herror : ∀ kind, unstorable [TickMetric.emitError kind] = 0 := fun _ => rfl
    cases (l.collect sha256 t.source s.state since).result.mapError CollectError.failure with
    | ok b =>
      refine ⟨⟨rfl, rfl⟩, rfl, ?_⟩
      rw [hsum, hlag, hmins, zero_add]
    | error e =>
      cases e with
      | quotaExceeded =>
        refine ⟨⟨rfl, rfl⟩, rfl, ?_⟩
        rw [hsum, hsum, hlag, hmins, hother, zero_add, add_zero]
      | granularityUnexpected =>
        refine ⟨SameFront.enterDegraded s.runner _, rfl, ?_⟩
        rw [hsum, hsum, hlag, hmins, herror, zero_add, add_zero]
      | other =>
        refine ⟨⟨rfl, rfl⟩, rfl, ?_⟩
        rw [hsum, hsum, hlag, hmins, herror, zero_add, add_zero]

variable [LT V] [DecidableLT V]

theorem tick_count : (l.tick sha256 s t).1.count = (l.ticked sha256 s t).count := by
  unfold tick
  dsimp only
  split <;> rfl

theorem tick_of_idle (h : (l.ticked sha256 s t).enqueued = none) :
    (l.tick sha256 s t).1.runner = (l.ticked sha256 s t).runner := by
  simp only [tick, h]

theorem tick_of_batch {b : Batch V} (h : (l.ticked sha256 s t).enqueued = some b) :
    let out := l.ticked sha256 s t
    (l.tick sha256 s t).1.runner = (processBatch out.runner t.guard t.env b).1 ∧
      (l.tick sha256 s t).2 = out.calls ++ (processBatch out.runner t.guard t.env b).2.2 := by
  simp only [tick, h, and_self]

/-- The loop under one leader after another: what was reported under the earlier ones and under this
one, the clock of the last tick and the time stored. -/
inductive Leaderships (sha256 : String → String) (l : AnalyticsLoop) :
    Led V → List TickReport → List TickReport → Int → Int → Prop
  | first (r : LoopRunner) (count : BackfillCount) (state : AnalyticsState V) (now stored : Int) :
      Leaderships sha256 l ⟨(r.reset (V := V)).1, count.reset, state⟩ [] [] now stored
  | next {s : Led V} {earlier reports : List TickReport} {now stored : Int}
      (h : Leaderships sha256 l s earlier reports now stored) (r : LoopRunner)
      (count : BackfillCount) (state : AnalyticsState V) (now' stored' : Int) :
      Leaderships sha256 l ⟨(r.reset (V := V)).1, count.reset, state⟩ (earlier ++ reports) [] now'
        stored'
  | tick {s : Led V} {earlier reports : List TickReport} {now stored atLoad atSave after : Int}
      {t : Tick V} (h : Leaderships sha256 l s earlier reports now stored) (hclock : now ≤ t.now)
      (hstore : StoreTimes t (l.tick sha256 s t).2 stored atLoad atSave after) :
      Leaderships sha256 l (l.tick sha256 s t).1 earlier (reports ++ [l.report sha256 s t]) t.now
        after

/-- The batch of a tick moves the position in memory forward, but not past the store. -/
theorem between_tick {wm stored atLoad atSave after : Int} {since : Watermark}
    (h : Between s.runner wm stored) (hsince : s.since t = some since)
    (hstore : StoreTimes t (l.tick sha256 s t).2 stored atLoad atSave after) :
    wm ≤ since.time ∧ Between (l.tick sha256 s t).1.runner since.time after := by
  have hsave : stored ≤ atSave := hstore.before_le.trans hstore.atLoad_le
  have hread : wm ≤ since.time ∧ since.time ≤ atSave ∧
      (s.runner.hasFront = true → since = s.runner.frontier) := by
    unfold Led.since LoopRunner.since at hsince
    split at hsince
    · cases hsince
    · split at hsince
      · rename_i hhas
        obtain rfl := Option.some.inj hsince
        obtain ⟨hlo, hhi⟩ := h.front hhas
        exact ⟨hlo, hhi.trans hsave, fun _ => rfl⟩
      · rename_i hhas
        have htime := hstore.load since hsince
        have hstored := h.le_stored
        have hlo := hstore.before_le
        have hhi := hstore.atLoad_le
        exact ⟨by omega, by omega, fun hfront => absurd hfront hhas⟩
  obtain ⟨hlo, hhi, hfront⟩ := hread
  refine ⟨hlo, ?_⟩
  have hafter : since.time ≤ after := hhi.trans hstore.atSave_le
  have hbefore : Between (l.ticked sha256 s t).runner since.time atSave := by
    obtain ⟨hsame, -, -⟩ := @ticked_of_some V _ _ _ sha256 l s t since hsince
    refine Between.same ⟨hhi, fun hhas => ?_⟩ hsame (le_refl _)
    rw [← hfront hhas]
    exact ⟨le_refl _, hhi⟩
  have hwritten := hstore.written
  cases hbatch : (l.ticked sha256 s t).enqueued with
  | none =>
    rw [tick_of_idle hbatch]
    exact hbefore.same ⟨rfl, rfl⟩ hstore.atSave_le
  | some b =>
    obtain ⟨hrunner, hcalls⟩ := tick_of_batch hbatch
    rw [hcalls, written_append] at hwritten
    rw [hrunner]
    rcases committed_cases (processBatch_committed (l.ticked sha256 s t).runner t.guard t.env b)
      with ⟨hsame, -⟩ | ⟨time, cursor, -, hcase⟩
    · exact hbefore.same hsame hstore.atSave_le
    · generalize GenaiBridge.written
        (processBatch (l.ticked sha256 s t).runner t.guard t.env b).2.2 = ws at hcase hwritten
      cases hcase with
      | unchanged hsame => exact hbefore.same hsame hstore.atSave_le
      | behind _ hsame => exact hbefore.same hsame hstore.atSave_le
      | reloaded _ hload =>
        obtain ⟨hge, hle⟩ := hstore.reload _ hload
        exact ⟨hafter, fun _ => ⟨hhi.trans hge, hle⟩⟩
      | followed hok hw =>
        refine ⟨hafter, fun _ => ?_⟩
        rw [hw]
        exact ⟨hhi.trans (hstore.fence _ hok),
          hwritten _ (List.mem_append_right _ List.mem_cons_self)⟩

/-- One tick keeps the tally. -/
theorem tally_tick {reports : List TickReport} {now stored atLoad atSave after wm : Int}
    (htally : Tally s.count reports (l.backfillSpec.floor now) wm)
    (hbetween : Between s.runner wm stored) (hclock : now ≤ t.now)
    (hstore : StoreTimes t (l.tick sha256 s t).2 stored atLoad atSave after) :
    ∃ wm', Tally (l.tick sha256 s t).1.count (reports ++ [l.report sha256 s t])
        (l.backfillSpec.floor t.now) wm' ∧ Between (l.tick sha256 s t).1.runner wm' after ∧
      ∀ since, s.since t = some since → wm' = since.time ∧
        s.count.start since.time ≤ max (l.backfillSpec.floor t.now) since.time := by
  have hfloor : l.backfillSpec.floor now ≤ l.backfillSpec.floor t.now :=
    Time.addNeg_le_addNeg hclock _
  rw [tick_count]
  unfold report
  cases hsince : s.since t with
  | none =>
    obtain ⟨hrunner, hcount, hnone⟩ := @ticked_of_none V _ _ _ sha256 l s t hsince
    refine ⟨wm, ?_, ?_, fun since h => by cases h⟩
    · rw [hcount]
      exact (htally.move hfloor (le_refl _)).skip _
    · rw [tick_of_idle hnone, hrunner]
      exact hbetween.same ⟨rfl, rfl⟩
        ((hstore.before_le.trans hstore.atLoad_le).trans hstore.atSave_le)
  | some since =>
    obtain ⟨hle, hfront⟩ := between_tick hbetween hsince hstore
    obtain ⟨-, hcount, hmetrics⟩ := @ticked_of_some V _ _ _ sha256 l s t since hsince
    have hmoved := htally.move hfloor hle
    refine ⟨since.time, ?_, hfront, fun w h => ?_⟩
    · rw [hcount]
      exact hmoved.count hmetrics
    · obtain rfl := Option.some.inj h
      exact ⟨rfl, hmoved.start_le⟩

/-- **The counts of a leadership add up.** -/
theorem Leaderships.tally {earlier reports : List TickReport} {now stored : Int}
    (h : Leaderships sha256 l s earlier reports now stored) :
    ∃ wm, Tally s.count reports (l.backfillSpec.floor now) wm ∧ Between s.runner wm stored := by
  induction h with
  | first r count state now stored =>
    exact ⟨stored, Tally.empty count _ _, le_refl _, fun hhas => by cases hhas⟩
  | next _ r count state now stored _ =>
    exact ⟨stored, Tally.empty count _ _, le_refl _, fun hhas => by cases hhas⟩
  | tick _ hclock hstore ih =>
    obtain ⟨wm, htally, hbetween⟩ := ih
    obtain ⟨wm', htally', hbetween', -⟩ := tally_tick htally hbetween hclock hstore
    exact ⟨wm', htally', hbetween'⟩

omit [LT V] [DecidableLT V] in
theorem report_nonneg (h : (l.report sha256 s t).since ≠ none) :
    0 ≤ unstorable (l.report sha256 s t).metrics := by
  unfold report at h ⊢
  cases hsince : s.since t with
  | none =>
    rw [hsince] at h
    exact absurd rfl h
  | some since =>
    rw [(ticked_of_some hsince).2.2]
    exact BackfillCount.runOnce_nonneg _ _ _

theorem Leaderships.nonneg {earlier reports : List TickReport} {now stored : Int}
    (h : Leaderships sha256 l s earlier reports now stored) :
    ∀ r ∈ earlier ++ reports, r.since ≠ none → 0 ≤ unstorable r.metrics := by
  induction h with
  | first => simp
  | next _ _ _ _ _ _ ih => simpa using ih
  | tick _ _ _ ih =>
    intro r hr
    rw [← List.append_assoc] at hr
    rcases List.mem_append.mp hr with hr | hr
    · exact ih r hr
    · obtain rfl := List.mem_singleton.mp hr
      exact report_nonneg

/-! ### Buckets against minutes -/

/-- A tick that gives up the buckets between its watermark and where it starts: `Collect` succeeds
from the backfill floor, and its watermark is committed. -/
structure Abandons (sha256 : String → String) (l : AnalyticsLoop) (s : Led V) (t : Tick V)
    (since : Watermark) (b : Batch V) : Prop where
  reads : s.since t = some since
  nonzero : since.time ≠ 0
  floor : since.time < t.source.now - l.maxBackfill
  collected : (l.collect sha256 t.source s.state since).result = .ok b
  committed : ∃ w ∈ written (l.tick sha256 s t).2, w.time = b.watermark.time

end

/-- The minute-aligned bucket ends after one time, up to another. -/
def alignedEnds (lo hi : Int) : Set Int := {e | lo < e ∧ e ≤ hi ∧ minute ∣ e}

theorem ncard_alignedEnds {lo hi : Int} (h : lo ≤ hi) :
    ((alignedEnds lo hi).ncard : Int) = hi / minute - lo / minute := by
  have hfinset : alignedEnds lo hi = ({e ∈ Finset.Ioc lo hi | minute ∣ e} : Finset Int) := by
    ext e
    simp [alignedEnds, and_assoc]
  have hfloor : ∀ n : Int, ⌊(n : ℚ) / (minute : ℚ)⌋ = n / minute :=
    fun n => Rat.floor_intCast_div_natCast n 60000000000
  have hmono : lo / minute ≤ hi / minute := Int.ediv_le_ediv (by decide) h
  rw [hfinset, Set.ncard_coe_finset, Int.Ioc_filter_dvd_card lo hi (by decide), hfloor, hfloor]
  exact max_eq_left (by omega)

/-- What the scheduler and the source count from: the scheduler's floor, but not before the
watermark. -/
def countedFloor (l : AnalyticsLoop) (t : Tick V) (since : Watermark) : Int :=
  max (l.backfillSpec.floor t.now) since.time

theorem start_of_floor {l : AnalyticsLoop} (hl : l.Bounds) {now : Int} {since : Watermark}
    (hne : since.time ≠ 0) (h : since.time < now - l.maxBackfill) :
    l.start now since = now - l.maxBackfill := by
  rw [start_eq hl, if_neg hne]
  exact max_eq_right h.le

variable [Div V] [OfNat V 1000] [BEq V] [LT V] [DecidableLT V]

/-- A tick counts up to the scheduler's floor, unless that is further from its watermark than a
`Duration` reaches. -/
theorem countedUp_tick {l : AnalyticsLoop} (hl : l.Bounds) {sha256 : String → String} {s : Led V}
    {t : Tick V} {since : Watermark} (hreads : s.since t = some since) (hne : since.time ≠ 0)
    (hstart : s.count.start since.time ≤ max (l.backfillSpec.floor t.now) since.time)
    (hnear : l.backfillSpec.floor t.now - since.time ≤ maxInt64) :
    (l.tick sha256 s t).1.count.CountedUp (l.backfillSpec.floor t.now) since.time := by
  intro hlt
  have hgate : 0 < l.backfillSpec.window ∧ since.time ≠ 0 ∧
      since.time < l.backfillSpec.floor t.now := ⟨hl.window_pos, hne, hlt⟩
  have hcount : (l.tick sha256 s t).1.count =
      (s.count.backfillUnstorableMinutes since.time (l.backfillSpec.floor t.now)).2 := by
    rw [tick_count, (ticked_of_some hreads).2.1]
    unfold BackfillCount.runOnce
    rw [if_neg Bool.false_ne_true]
    dsimp only
    rw [if_pos hgate]
  rw [hcount]
  exact s.count.countedUp_of_near (by omega) hnear hlt

/-- **Buckets given up are counted, as far as minutes agree.**  When a tick gives up buckets, the
minutes reported for its watermark, by this leader and the ones before, are at least the bucket ends
it skips if the parts of minutes that are left over, before the watermark's minute ends, before the
scheduler's floor and between the two clocks, make less than a minute.  If no earlier leader read
this watermark, they are only then. -/
theorem abandoned_buckets_counted {l : AnalyticsLoop} (hl : l.Accepted) {sha256 : String → String}
    {s : Led V} {earlier reports : List TickReport} {now stored : Int}
    (hrun : Leaderships sha256 l s earlier reports now stored) {t : Tick V}
    {atLoad atSave after : Int} (hclock : now ≤ t.now)
    (hstore : StoreTimes t (l.tick sha256 s t).2 stored atLoad atSave after)
    {since : Watermark} {b : Batch V} (h : Abandons sha256 l s t since b) :
    let skipped : Int := (alignedEnds since.time (l.start t.source.now since)).ncard
    let raised := raisedFor since.time (earlier ++ reports ++ [l.report sha256 s t])
    let left := since.time % minute + (l.countedFloor t since - since.time) % minute +
      (l.start t.source.now since - l.countedFloor t since)
    (l.backfillSpec.floor t.now - since.time ≤ maxInt64 → left < minute → skipped ≤ raised) ∧
      ((∀ r ∈ earlier, r.since ≠ some since.time) → skipped ≤ raised → left < minute) := by
  intro skipped raised left
  obtain ⟨wm, htally, hbetween⟩ := hrun.tally
  obtain ⟨wm', htally', -, hwm⟩ := tally_tick htally hbetween hclock hstore
  obtain ⟨rfl, hbefore⟩ := hwm since h.reads
  have hminutes := htally'.minutes
  have hstart_le := htally'.start_le
  have hle := (l.tick sha256 s t).1.count.le_start since.time
  have hraised : raised = raisedFor since.time earlier +
      raisedFor since.time (reports ++ [l.report sha256 s t]) := by
    rw [← raisedFor_append, ← List.append_assoc]
  have hearlier : 0 ≤ raisedFor since.time earlier :=
    raisedFor_nonneg (fun r hr => hrun.nonneg r (List.mem_append_left _ hr)) _
  have hnone : (∀ r ∈ earlier, r.since ≠ some since.time) → raisedFor since.time earlier = 0 :=
    raisedFor_eq_zero
  have hfloor : l.backfillSpec.floor t.now = t.now - l.maxBackfill :=
    hl.bounds.addNeg_maxBackfill t.now
  have hup : l.backfillSpec.floor t.now - since.time ≤ maxInt64 →
      (l.tick sha256 s t).1.count.CountedUp (l.backfillSpec.floor t.now) since.time :=
    countedUp_tick hl.bounds h.reads h.nonzero hbefore
  have hstart := start_of_floor hl.bounds h.nonzero h.floor
  have hskip := h.floor
  have hskipped : skipped = _ := ncard_alignedEnds (by omega)
  unfold BackfillCount.CountedUp at hup
  have hleft : left = since.time % minute +
      (max (l.backfillSpec.floor t.now) since.time - since.time) % minute +
      (l.start t.source.now since - max (l.backfillSpec.floor t.now) since.time) := rfl
  clear_value skipped raised left
  generalize raisedFor since.time earlier = raisedBefore at *
  generalize raisedFor since.time (reports ++ _) = raisedNow at hminutes hraised
  generalize (l.tick sha256 s t).1.count.start since.time = counted at *
  generalize l.start t.source.now since = start at *
  generalize l.backfillSpec.floor t.now = floor at *
  generalize since.time = wm at *
  unfold minute at *
  clear htally htally' hbetween hstore hrun hl
  constructor
  · intro hnear hleft
    by_cases hlt : wm < floor
    · have := hup hnear hlt
      omega
    · omega
  · intro hfresh hends
    have := hnone hfresh
    omega

/-! ### Two catch-ups -/

/-- The loop after an election. -/
def elected : Led Int :=
  ⟨((LoopRunner.new ⟨"portkey", "analytics", ""⟩ 1).reset (V := Int)).1, BackfillCount.reset {},
    shortLoop.init⟩

/-- A tick that finds this watermark stored and gets this answer for every graph; what it commits
is stored. -/
def tickAt (now since : Int) (answer : Fetched Int) : Tick Int :=
  { now
    busy := false
    load := some { time := since }
    source := { now, fetch := fun _ => answer, probe := .rows [] }
    guard := newGuard ⟨[], [], .empty, 0⟩
    env := { leaderAtStart := true, leaderAtCommit := true, epoch := 0, emit := fun _ => none
             save := fun w => if since ≤ w.time then .ok else .stale
             load := none } }

private theorem storeTimes_tickAt {s : Led Int} {now since after : Int} {answer : Fetched Int}
    (hle : since ≤ after)
    (h : ((written (shortLoop.tick (fun _ => "") s (tickAt now since answer)).2).map
      Watermark.time).all (· ≤ after) = true) :
    StoreTimes (tickAt now since answer)
      (shortLoop.tick (fun _ => "") s (tickAt now since answer)).2 since since since after := by
  refine ⟨le_refl _, le_refl _, hle, ?_, ?_, ?_, ?_⟩
  · rintro w hw
    obtain rfl := Option.some.inj hw
    rfl
  · intro w hw
    by_contra hlt
    change (if since ≤ w.time then SaveOutcome.ok else .stale) = .ok at hw
    rw [if_neg hlt] at hw
    cases hw
  · intro w hw
    exact of_decide_eq_true (List.all_eq_true.mp h _ (List.mem_map_of_mem hw))
  · intro w hw
    cases hw

private theorem abandons_tickAt {s : Led Int} {t : Tick Int} {since : Watermark} {stop : Int}
    (hreads : s.since t = some since) (hne : since.time ≠ 0)
    (hfloor : since.time < t.source.now - shortLoop.maxBackfill)
    (hstop : (shortLoop.collect (fun _ => "") t.source s.state since).result.map
      (fun b => b.watermark.time) = .ok stop)
    (hwritten : (written (shortLoop.tick (fun _ => "") s t).2).map Watermark.time = [stop]) :
    ∃ b, Abandons (fun _ => "") shortLoop s t since b := by
  obtain ⟨b, hb, htime⟩ := Lib.map_ok.mp hstop
  refine ⟨b, hreads, hne, hfloor, hb, ?_⟩
  have hmem : stop ∈ (written (shortLoop.tick (fun _ => "") s t).2).map Watermark.time := by
    rw [hwritten]
    exact List.mem_singleton_self _
  obtain ⟨w, hw, hstop'⟩ := List.mem_map.mp hmem
  exact ⟨w, hw, hstop'.trans htime.symm⟩

/-- An answer without data. -/
def noData : Fetched Int := .ok { dataPoints := [], isQuotaExceeded := false }

/-- Under an earlier leader a tick at 00:15 that fails; under this one a tick at 00:25 that fails,
and one at 00:30:30 that catches up.  From 00:00 to 00:20:30 twenty buckets are given up, and twenty
minutes are counted under this leader alone. -/
theorem abandoned_buckets_counted_twenty :
    let before := tickAt (midnight + 15 * minute) midnight (.status 500)
    let failed := tickAt (midnight + 25 * minute) midnight (.status 500)
    let caughtUp := tickAt (midnight + 30 * minute + 30 * second) midnight noData
    let s := (shortLoop.tick (fun _ => "") elected failed).1
    ((alignedEnds midnight (midnight + 20 * minute + 30 * second)).ncard : Int) ≤
      raisedFor midnight [shortLoop.report (fun _ => "") elected before,
        shortLoop.report (fun _ => "") elected failed,
        shortLoop.report (fun _ => "") s caughtUp] := by
  intro before failed caughtUp s
  have hearlier : Leaderships (fun _ => "") shortLoop
      (shortLoop.tick (fun _ => "") elected before).1 []
      [shortLoop.report (fun _ => "") elected before] (midnight + 15 * minute) midnight :=
    .tick (.first _ _ _ _ midnight) (le_refl _) (storeTimes_tickAt (le_refl _) (by decide +kernel))
  have hrun : Leaderships (fun _ => "") shortLoop s
      [shortLoop.report (fun _ => "") elected before]
      [shortLoop.report (fun _ => "") elected failed] (midnight + 25 * minute) midnight :=
    .tick (.next hearlier _ _ _ _ midnight) (le_refl _)
      (storeTimes_tickAt (le_refl _) (by decide +kernel))
  have hsecond : StoreTimes caughtUp (shortLoop.tick (fun _ => "") s caughtUp).2 midnight midnight
      midnight (midnight + 22 * minute + 30 * second) :=
    storeTimes_tickAt (by decide +kernel) (by decide +kernel)
  obtain ⟨b, hb⟩ := @abandons_tickAt s caughtUp { time := midnight }
    (midnight + 22 * minute + 30 * second) (by decide +kernel) (by decide +kernel)
    (by decide +kernel) (by decide +kernel) (by decide +kernel)
  exact (abandoned_buckets_counted shortLoop_accepted hrun (by decide +kernel) hsecond
    hb).1 (by decide +kernel) (by decide +kernel)

/-- **A bucket is skipped and not counted.**  The watermark is 00:00:30 and the floor 00:01:15: no
whole minute lies between them, so none is counted, but the bucket that ends at 00:01:00 is
skipped. -/
theorem skipped_bucket_uncounted :
    let t := tickAt (midnight + 11 * minute + 15 * second) (midnight + 30 * second) noData
    let since : Watermark := { time := midnight + 30 * second }
    shortLoop.Accepted ∧ Leaderships (fun _ => "") shortLoop elected [] [] t.now since.time ∧
    (∃ after, StoreTimes t (shortLoop.tick (fun _ => "") elected t).2 since.time since.time
      since.time after) ∧
    (∃ b, Abandons (fun _ => "") shortLoop elected t since b) ∧
    raisedFor since.time [shortLoop.report (fun _ => "") elected t] <
      (alignedEnds since.time (shortLoop.start t.source.now since)).ncard := by
  intro t since
  refine ⟨shortLoop_accepted, .first _ _ _ _ _, ⟨midnight + 3 * minute + 15 * second, ?_⟩, ?_, ?_⟩
  · exact storeTimes_tickAt (by decide +kernel) (by decide +kernel)
  · exact @abandons_tickAt elected t since (midnight + 3 * minute + 15 * second)
      (by decide +kernel) (by decide +kernel) (by decide +kernel) (by decide +kernel)
      (by decide +kernel)
  · rw [ncard_alignedEnds (by decide +kernel)]
    decide +kernel

end AnalyticsLoop

end GenaiBridge
