/-
The degraded state and its gauge.

A runner shows at most one gauge series: that of its loop and the reason it is degraded
for.  `setGauge` is what a call does to the series that are set, and every operation of
the runner takes the series shown before it to those shown after (`Outcome`).  The same
case split says where a batch ends: degraded if one of its emissions was rejected for
good, and not degraded if it saved and none was.
-/
import GenaiBridge.Bridge.Runner
import Mathlib.Data.Finset.Insert

namespace GenaiBridge

variable {V : Type}

/-! ### What the calls set -/

/-- The series that are set after a call. -/
def setGauge (on : Finset (String × String)) : Call V → Finset (String × String)
  | .metric loop (.loopDegraded reason degraded) =>
    if degraded then insert (loop, reason) on else on.erase (loop, reason)
  | _ => on

/-- The call sets a series. -/
def Call.isGauge : Call V → Bool
  | .metric _ (.loopDegraded _ _) => true
  | _ => false

/-- An emission that was rejected for good. -/
def Call.isTerminal : Call V → Bool
  | .emit _ (some err) => isTerminalHalt err
  | _ => false

/-- A save that succeeded. -/
def Call.isSaved : Call V → Bool
  | .save _ _ .ok => true
  | _ => false

/-- The series a runner should show. -/
def LoopRunner.shown (r : LoopRunner) : Finset (String × String) :=
  if r.degraded then {(r.name, r.degradeReason)} else ∅

theorem LoopRunner.shown_of_degraded {r : LoopRunner} (h : r.degraded = true) :
    r.shown = {(r.name, r.degradeReason)} := if_pos h

theorem LoopRunner.shown_of_healthy {r : LoopRunner} (h : r.degraded = false) : r.shown = ∅ := by
  unfold LoopRunner.shown
  rw [h]
  rfl

/-- Calls that neither set a series nor save. -/
structure Plain (calls : List (Call V)) : Prop where
  gauge : calls.any Call.isGauge = false
  saved : calls.any Call.isSaved = false

theorem Plain.append {calls more : List (Call V)} (h : Plain calls) (h' : Plain more) :
    Plain (calls ++ more) := by
  constructor
  · rw [List.any_append, h.gauge, h'.gauge]
    rfl
  · rw [List.any_append, h.saved, h'.saved]
    rfl

theorem Plain.foldl : ∀ {calls : List (Call V)}, Plain calls → ∀ on : Finset (String × String),
    calls.foldl setGauge on = on := by
  intro calls
  induction calls with
  | nil => exact fun _ _ => rfl
  | cons c rest ih =>
    intro h on
    obtain ⟨hc, hrest⟩ := Bool.or_eq_false_iff.mp h.gauge
    obtain ⟨-, hrest'⟩ := Bool.or_eq_false_iff.mp h.saved
    have hsame : setGauge on c = on := by
      unfold setGauge
      split
      · cases hc
      · rfl
    rw [List.foldl_cons, hsame]
    exact ih ⟨hrest, hrest'⟩ on

/-- Plain calls without an emission that was rejected for good. -/
structure Harmless (calls : List (Call V)) : Prop extends Plain calls where
  terminal : calls.any Call.isTerminal = false

theorem Harmless.append {calls more : List (Call V)} (h : Harmless calls) (h' : Harmless more) :
    Harmless (calls ++ more) := by
  refine ⟨h.toPlain.append h'.toPlain, ?_⟩
  rw [List.any_append, h.terminal, h'.terminal]
  rfl

/-! ### Before the commit -/

theorem isTerminalHalt_of_isAdvancePast {err : EmitError} (h : isAdvancePast err = true) :
    isTerminalHalt err = false := by
  cases err with
  | reject reason body sent => cases reason <;> first | rfl | cases h
  | retryable body sent => rfl
  | other body => rfl

private theorem harmless_guarded (loop : String) {call : Call V} (n : Nat)
    (hcall : Harmless [call]) :
    Harmless (call :: if 0 < n then [.metric loop (.guardDropped n)] else []) := by
  have hrest : Harmless (if 0 < n then [Call.metric loop (.guardDropped n)] else [] :
      List (Call V)) := by
    split <;> exact ⟨⟨rfl, rfl⟩, rfl⟩
  exact hcall.append hrest

/-- One bucket is rejected for good just if it ends the batch so. -/
theorem processBucket_plain (loop : String) (emit : Batch V → Option EmitError) (g : Guard)
    (bucket : Batch V) :
    let out := processBucket loop emit g bucket
    Plain out.2.1 ∧ (out.2.1.any Call.isTerminal = true ↔ out.2.2 = .terminal) := by
  have hguarded := @harmless_guarded V loop
    (.sanitize bucket.samples (g.sanitize bucket).1.samples) (g.sanitize bucket).2.1
    ⟨⟨rfl, rfl⟩, rfl⟩
  unfold processBucket
  dsimp only
  split
  · refine ⟨hguarded.toPlain, ?_⟩
    rw [hguarded.terminal]
    simp
  · split
    · refine ⟨hguarded.toPlain.append ⟨rfl, rfl⟩, ?_⟩
      rw [List.any_append, hguarded.terminal]
      simp [Call.isTerminal]
    · rename_i err _
      by_cases hpast : isAdvancePast err = true
      · rw [if_pos hpast]
        refine ⟨hguarded.toPlain.append ⟨rfl, rfl⟩, ?_⟩
        rw [List.any_append, hguarded.terminal]
        simp [Call.isTerminal, isTerminalHalt_of_isAdvancePast hpast]
      · rw [if_neg hpast]
        by_cases hhalt : isTerminalHalt err = true
        · rw [if_pos hhalt]
          refine ⟨hguarded.toPlain.append ⟨rfl, rfl⟩, ?_⟩
          rw [List.any_append, hguarded.terminal]
          simp [Call.isTerminal, hhalt]
        · rw [if_neg hhalt]
          refine ⟨hguarded.toPlain.append ⟨rfl, rfl⟩, ?_⟩
          rw [List.any_append, hguarded.terminal]
          simp [Call.isTerminal, hhalt]

theorem processBuckets_plain (loop : String) (emit : Batch V → Option EmitError)
    (buckets : List (Batch V)) : ∀ (g : Guard) (frontier : Option Int),
    let out := processBuckets loop emit g frontier buckets
    Plain out.2.1 ∧ (out.2.1.any Call.isTerminal = true ↔ out.2.2.1 = .terminal) := by
  induction buckets with
  | nil =>
    intro g frontier
    exact ⟨⟨rfl, rfl⟩, by simp [processBuckets]⟩
  | cons bucket rest ih =>
    intro g frontier
    obtain ⟨hplain, hterminal⟩ := processBucket_plain loop emit g bucket
    unfold processBuckets
    rcases hrun : processBucket loop emit g bucket with ⟨g', calls, e⟩
    rw [hrun] at hplain hterminal
    cases e with
    | advanced =>
      obtain ⟨hmore, hmore'⟩ := ih g' (some (bucketTime bucket))
      refine ⟨hplain.append hmore, ?_⟩
      have hnone : calls.any Call.isTerminal = false := by simpa using hterminal
      show (calls ++ _).any Call.isTerminal = true ↔ _
      rw [List.any_append, hnone, Bool.false_or]
      exact hmore'
    | terminal => exact ⟨hplain, hterminal⟩
    | retryable => exact ⟨hplain, hterminal⟩

/-! ### What an operation comes to -/

/-- What calls do to the gauge, and how they leave a runner. -/
structure Outcome (r : LoopRunner) (calls : List (Call V)) (r' : LoopRunner) : Prop where
  /-- They take the series shown before to those shown after. -/
  shows : calls.foldl setGauge r.shown = r'.shown
  terminal : calls.any Call.isTerminal = true → r'.degraded = true
  saved : calls.any Call.isTerminal = false → calls.any Call.isSaved = true → r'.degraded = false

theorem Outcome.idle {r r' : LoopRunner} {calls : List (Call V)} (h : Harmless calls)
    (hshown : r'.shown = r.shown) : Outcome r calls r' := by
  constructor
  · rw [h.foldl, hshown]
  · intro hterminal
    rw [h.terminal] at hterminal
    cases hterminal
  · intro _ hsaved
    rw [h.saved] at hsaved
    cases hsaved

theorem Outcome.after {r r' : LoopRunner} {calls before : List (Call V)} (h : Outcome r calls r')
    (hbefore : Harmless before) : Outcome r (before ++ calls) r' := by
  constructor
  · rw [List.foldl_append, hbefore.foldl]
    exact h.shows
  · rw [List.any_append, hbefore.terminal, Bool.false_or]
    exact h.terminal
  · rw [List.any_append, List.any_append, hbefore.terminal, hbefore.saved, Bool.false_or,
      Bool.false_or]
    exact h.saved

theorem enterDegraded_shows (r : LoopRunner) (reason : String) :
    let out := r.enterDegraded (V := V) reason
    out.2.foldl setGauge r.shown = out.1.shown ∧ out.1.degraded = true := by
  unfold LoopRunner.enterDegraded
  by_cases h : r.degraded = true
  · rw [if_pos h]
    exact ⟨rfl, h⟩
  · rw [if_neg h, LoopRunner.shown_of_healthy (Bool.eq_false_iff.mpr h)]
    exact ⟨rfl, rfl⟩

/-- A rejection for good ends with the degraded state, whatever was done before it. -/
theorem Outcome.degrade {r r' : LoopRunner} {calls : List (Call V)}
    (h : calls.foldl setGauge r.shown = r'.shown) (hterminal : calls.any Call.isTerminal = true)
    (reason : String) :
    Outcome r (calls ++ (r'.enterDegraded reason).2) (r'.enterDegraded (V := V) reason).1 := by
  obtain ⟨hshows, hdegraded⟩ := @enterDegraded_shows V r' reason
  constructor
  · rw [List.foldl_append, h]
    exact hshows
  · exact fun _ => hdegraded
  · rw [List.any_append, hterminal]
    exact fun h => by cases h

/-- Clearing the series of a degraded runner leaves none. -/
theorem foldl_clear (r : LoopRunner) :
    (if r.degraded then [r.metric (.loopDegraded r.degradeReason false)] else [] :
      List (Call V)).foldl setGauge r.shown = ∅ := by
  by_cases h : r.degraded = true
  · rw [if_pos h, LoopRunner.shown_of_degraded h]
    show Finset.erase {(r.name, r.degradeReason)} (r.name, r.degradeReason) = ∅
    rw [Finset.erase_singleton]
  · rw [if_neg h, LoopRunner.shown_of_healthy (Bool.eq_false_iff.mpr h)]
    rfl

theorem reset_shows (r : LoopRunner) :
    (r.reset (V := V)).2.foldl setGauge r.shown = (r.reset (V := V)).1.shown :=
  foldl_clear r

theorem commitOK_shows (r : LoopRunner) (w : Watermark) :
    (r.commitOK (V := V) w).2.foldl setGauge r.shown = (r.commitOK (V := V) w).1.shown ∧
      (r.commitOK (V := V) w).1.degraded = false := by
  unfold LoopRunner.commitOK
  dsimp only
  split <;> exact ⟨foldl_clear r, rfl⟩

theorem commitFailed_shows (r : LoopRunner) :
    (r.commitFailed (V := V)).2.foldl setGauge r.shown = (r.commitFailed (V := V)).1.shown := by
  unfold LoopRunner.commitFailed
  dsimp only
  split
  · rename_i h
    have hhealthy : r.degraded = false := by simpa using (Bool.and_eq_true_iff.mp h).2
    rw [LoopRunner.shown_of_healthy hhealthy]
    rfl
  · rfl

theorem commitStale_shows (r : LoopRunner) (key : CheckpointKey) (w : Watermark)
    (load : Option Watermark) :
    (r.commitStale (V := V) key w load).2.foldl setGauge r.shown =
      (r.commitStale (V := V) key w load).1.shown := by
  unfold LoopRunner.commitStale
  cases load with
  | none => rfl
  | some stored =>
    dsimp only
    split <;> rfl

theorem commit_outcome (r : LoopRunner) (env : Env V) (key : CheckpointKey) (t : Int)
    (cursor : String) :
    Outcome r (r.commit env key t cursor).2 (r.commit env key t cursor).1 := by
  have hquiet : ∀ {r' : LoopRunner} {call : Call V} {calls : List (Call V)},
      setGauge r.shown call = r.shown → call.isTerminal = false →
      calls.any Call.isTerminal = false → calls.foldl setGauge r.shown = r'.shown →
      ((call :: calls).any Call.isSaved = true → r'.degraded = false) →
      Outcome r (call :: calls) r' := by
    intro r' call calls hcall hterm hnone hshows hsaved
    refine ⟨?_, ?_, fun _ => hsaved⟩
    · rw [List.foldl_cons, hcall]
      exact hshows
    · rw [List.any_cons, hterm, hnone]
      exact fun h => by cases h
  unfold LoopRunner.commit
  by_cases hlive : env.leaderAtCommit = true
  · simp only [hlive, Bool.not_true, Bool.false_eq_true, if_false]
    cases hsave : env.save ⟨t, cursor, env.epoch⟩ with
    | failed landed =>
      have hnone : (r.commitFailed (V := V)).2.any Call.isTerminal = false ∧
          (r.commitFailed (V := V)).2.any Call.isSaved = false := by
        unfold LoopRunner.commitFailed
        dsimp only
        split <;> exact ⟨rfl, rfl⟩
      refine hquiet rfl rfl hnone.1 (commitFailed_shows r) fun h => ?_
      rw [List.any_cons, hnone.2] at h
      cases h
    | stale =>
      have hnone : (r.commitStale (V := V) key ⟨t, cursor, env.epoch⟩ env.load).2.any
            Call.isTerminal = false ∧
          (r.commitStale (V := V) key ⟨t, cursor, env.epoch⟩ env.load).2.any
            Call.isSaved = false := by
        unfold LoopRunner.commitStale
        cases env.load with
        | none => exact ⟨rfl, rfl⟩
        | some stored =>
          dsimp only
          split <;> exact ⟨rfl, rfl⟩
      refine hquiet rfl rfl hnone.1 (commitStale_shows r key _ env.load) fun h => ?_
      rw [List.any_cons, hnone.2] at h
      cases h
    | ok =>
      have hnone : (r.commitOK (V := V) ⟨t, cursor, env.epoch⟩).2.any Call.isTerminal = false := by
        unfold LoopRunner.commitOK
        dsimp only
        split <;> split <;> rfl
      obtain ⟨hshows, hhealthy⟩ := @commitOK_shows V r ⟨t, cursor, env.epoch⟩
      exact hquiet rfl rfl hnone hshows fun _ => hhealthy
  · rw [if_pos (by simpa using hlive)]
    exact .idle ⟨⟨rfl, rfl⟩, rfl⟩ rfl

theorem commitInterior_outcome (r : LoopRunner) (env : Env V) (key : CheckpointKey)
    (frontier : Option Int) :
    Outcome r (commitInterior r env key frontier).2 (commitInterior r env key frontier).1 := by
  cases frontier with
  | none => exact .idle ⟨⟨rfl, rfl⟩, rfl⟩ rfl
  | some t => exact commit_outcome r env key t ""

/-! ### A batch -/

/-- The logs of a batch either leave the runner as it is, or end the batch. -/
theorem processLogs_outcome (r : LoopRunner) (g : Guard) (env : Env V) (b : Batch V) :
    let out := processLogs r g env b
    Outcome r out.2.2.2 out.2.1 ∧ (out.1 = true → out.2.1 = r ∧ Harmless out.2.2.2) := by
  have hguarded := @harmless_guarded V r.name
    (.sanitizeLogs b.logs (g.sanitizeLogs r.key.string b.logs).1)
    (g.sanitizeLogs r.key.string b.logs).2.1 ⟨⟨rfl, rfl⟩, rfl⟩
  have hidle : ∀ {go : Bool} {g' : Guard} {calls : List (Call V)}, Harmless calls →
      let out := (go, r, g', calls)
      Outcome r out.2.2.2 out.2.1 ∧ (out.1 = true → out.2.1 = r ∧ Harmless out.2.2.2) :=
    fun h => ⟨.idle h rfl, fun _ => ⟨rfl, h⟩⟩
  unfold processLogs
  dsimp only
  split
  · exact hidle hguarded
  · split
    · refine hidle ((hguarded.append ⟨⟨rfl, rfl⟩, rfl⟩).append ?_)
      split <;> exact ⟨⟨rfl, rfl⟩, rfl⟩
    · rename_i err _
      by_cases hpast : isAdvancePast err = true
      · rw [if_pos hpast]
        refine hidle (hguarded.append ⟨⟨rfl, rfl⟩, ?_⟩)
        simp [Call.isTerminal, isTerminalHalt_of_isAdvancePast hpast, LoopRunner.metric]
      · rw [if_neg hpast]
        by_cases hhalt : isTerminalHalt err = true
        · rw [if_pos hhalt]
          refine ⟨.degrade ?_ ?_ _, fun h => by cases h⟩
          · exact Plain.foldl (hguarded.toPlain.append ⟨rfl, rfl⟩) _
          · rw [List.any_append, List.any_cons]
            simp [Call.isTerminal, hhalt]
        · rw [if_neg hhalt]
          refine hidle (hguarded.append ⟨⟨rfl, rfl⟩, ?_⟩)
          simp [Call.isTerminal, hhalt, LoopRunner.metric]

variable [LT V] [DecidableLT V]

theorem processSamples_outcome (r : LoopRunner) (g : Guard) (env : Env V) (b : Batch V) :
    Outcome r (processSamples r g env b).2.2 (processSamples r g env b).1 := by
  obtain ⟨hbuckets, hterminal⟩ := processBuckets_plain r.name env.emit
    (splitByBucket { b with samples := (coalesceDPM b.samples r.maxDPM).1 }) g none
  have hcut : Harmless (Call.coalesce b.samples (coalesceDPM b.samples r.maxDPM).1 ::
      if 0 < (coalesceDPM b.samples r.maxDPM).2 then
        [r.metric (.samplesCapped (coalesceDPM b.samples r.maxDPM).2)] else [] : List (Call V)) := by
    split <;> exact ⟨⟨rfl, rfl⟩, rfl⟩
  unfold processSamples
  rcases hrun : processBuckets r.name env.emit g none
    (splitByBucket { b with samples := (coalesceDPM b.samples r.maxDPM).1 }) with
    ⟨g', calls, e, frontier⟩
  rw [hrun] at hbuckets hterminal
  simp only [hrun]
  cases e with
  | terminal =>
    -- the interior commit may clear the state, but it is entered after it
    refine .degrade ?_ ?_ _
    · rw [List.foldl_append, (hcut.toPlain.append hbuckets).foldl]
      exact (commitInterior_outcome r env b.key frontier).shows
    · rw [List.any_append, List.any_append, hterminal.mpr rfl]
      simp
  | retryable =>
    have hcalls : Harmless calls := ⟨hbuckets, by simpa using hterminal⟩
    exact (commitInterior_outcome r env b.key frontier).after (hcut.append hcalls)
  | advanced =>
    have hcalls : Harmless calls := ⟨hbuckets, by simpa using hterminal⟩
    dsimp only
    split
    · exact (commit_outcome r env b.key _ _).after (hcut.append hcalls)
    · exact .idle (hcut.append hcalls) rfl

/-- **A batch keeps the gauge in step.** -/
theorem processBatch_outcome (r : LoopRunner) (g : Guard) (env : Env V) (b : Batch V) :
    Outcome r (processBatch r g env b).2.2 (processBatch r g env b).1 := by
  have hidle : ∀ {calls : List (Call V)} {r' : LoopRunner}, Outcome r calls r' →
      Outcome r calls { r' with busy := false } := fun h => ⟨h.shows, h.terminal, h.saved⟩
  unfold processBatch
  by_cases hlead : env.leaderAtStart = true
  · rw [if_neg (by simp [hlead])]
    by_cases hlogs : b.logs.isEmpty = true
    · simp only [hlogs, if_true, List.nil_append]
      exact hidle (processSamples_outcome r g env b)
    · simp only [hlogs, Bool.false_eq_true, if_false]
      obtain ⟨hout, hgo⟩ := processLogs_outcome r g env b
      rcases hrun : processLogs r g env b with ⟨go, r', g', calls⟩
      rw [hrun] at hout hgo
      cases go with
      | false => exact hidle hout
      | true =>
        obtain ⟨rfl, hharmless⟩ := hgo rfl
        exact hidle ((processSamples_outcome r' g' env b).after hharmless)
  · rw [if_pos (by simpa using hlead)]
    exact hidle (.idle ⟨⟨rfl, rfl⟩, rfl⟩ rfl)

/-! ### Every sequence -/

/-- What is done to a runner. -/
inductive RunnerOp (V : Type)
  | processBatch (g : Guard) (env : Env V) (b : Batch V)
  | degrade (reason : String)
  | reset

/-- One operation, and the calls it makes. -/
def RunnerOp.apply (r : LoopRunner) : RunnerOp V → LoopRunner × List (Call V)
  | .processBatch g env b =>
    let out := GenaiBridge.processBatch r g env b
    (out.1, out.2.2)
  | .degrade reason => r.degrade reason
  | .reset => r.reset

/-- A sequence of operations, and the calls it makes. -/
def runOps (r : LoopRunner) : List (RunnerOp V) → LoopRunner × List (Call V)
  | [] => (r, [])
  | op :: rest =>
    let (r', calls) := op.apply r
    let (r'', more) := runOps r' rest
    (r'', calls ++ more)

theorem apply_shows (r : LoopRunner) (op : RunnerOp V) :
    (op.apply r).2.foldl setGauge r.shown = (op.apply r).1.shown := by
  cases op with
  | processBatch g env b => exact (processBatch_outcome r g env b).shows
  | degrade reason => exact (enterDegraded_shows r reason).1
  | reset => exact reset_shows r

theorem runOps_shows : ∀ (ops : List (RunnerOp V)) (r : LoopRunner),
    (runOps r ops).2.foldl setGauge r.shown = (runOps r ops).1.shown := by
  intro ops
  induction ops with
  | nil => exact fun _ => rfl
  | cons op rest ih =>
    intro r
    show ((op.apply r).2 ++ (runOps (op.apply r).1 rest).2).foldl setGauge r.shown = _
    rw [List.foldl_append, apply_shows]
    exact ih (op.apply r).1

/-- **The gauge says what the runner is.**  After any batches, degradations and resets, the series
that are set are the one of the current reason if the runner is degraded, and none if it is not.  A
batch with an emission rejected for good ends degraded, also if it saved before; a batch without one
that saves does not. -/
theorem degraded_gauge_agrees (key : CheckpointKey) (maxDPM : Int) (ops : List (RunnerOp V)) :
    let r := (runOps (.new key maxDPM) ops).1
    (runOps (.new key maxDPM) ops).2.foldl setGauge ∅ =
      (if r.degraded then {(r.name, r.degradeReason)} else ∅) ∧
    ∀ (g : Guard) (env : Env V) (b : Batch V),
      let calls := (processBatch r g env b).2.2
      (calls.any Call.isTerminal = true → (processBatch r g env b).1.degraded = true) ∧
      (calls.any Call.isTerminal = false → calls.any Call.isSaved = true →
        (processBatch r g env b).1.degraded = false) := by
  intro r
  -- a new runner is not degraded and shows nothing
  refine ⟨runOps_shows ops (.new key maxDPM), fun g env b => ?_⟩
  have hout := processBatch_outcome r g env b
  exact ⟨hout.terminal, hout.saved⟩

end GenaiBridge
