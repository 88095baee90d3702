/-
One batch, one commit.

Whatever happens to the samples and the logs of a batch, `ProcessBatch` touches the store
in one place: it commits one watermark at most, and what it does before and after that
neither reads nor writes the store nor moves the position in memory.
-/
import GenaiBridge.Bridge.Checkpoint
import GenaiBridge.Bridge.Runner
import GenaiBridge.Proofs.Coalesce

namespace GenaiBridge

variable {V : Type}

/-! ### Kinds of calls -/

/-- A call of the store. -/
def Call.isStore : Call V → Bool
  | .save .. | .load .. => true
  | _ => false

/-- An increment of `EmitError`. -/
def Call.isEmitError : Call V → Bool
  | .metric _ (.emitError _) => true
  | _ => false

/-- An emission that failed and is not advanced past. -/
def Call.isFailedEmit : Call V → Bool
  | .emit _ (some err) => !isAdvancePast err
  | _ => false

/-- Calls that leave the store alone, and count exactly the emissions that failed. -/
structure OffStore (calls : List (Call V)) : Prop where
  store : calls.any Call.isStore = false
  counted : calls.any Call.isEmitError = calls.any Call.isFailedEmit

theorem OffStore.nil : OffStore ([] : List (Call V)) := ⟨rfl, rfl⟩

theorem OffStore.append {calls more : List (Call V)} (h : OffStore calls) (h' : OffStore more) :
    OffStore (calls ++ more) := by
  constructor
  · rw [List.any_append, h.store, h'.store]
    rfl
  · rw [List.any_append, List.any_append, h.counted, h'.counted]

/-- Calls that count no failed emission either. -/
structure Silent (calls : List (Call V)) : Prop extends OffStore calls where
  failed : calls.any Call.isFailedEmit = false

theorem enterDegraded_silent (r : LoopRunner) (reason : String) :
    Silent (r.enterDegraded (V := V) reason).2 := by
  unfold LoopRunner.enterDegraded
  split <;> exact ⟨⟨rfl, rfl⟩, rfl⟩

/-! ### Before the commit -/

private theorem offStore_guarded (loop : String) (call : Call V) (n : Nat)
    (hcall : OffStore [call]) :
    OffStore (call :: if 0 < n then [.metric loop (.guardDropped n)] else []) := by
  have hrest : OffStore (if 0 < n then [Call.metric loop (.guardDropped n)] else [] :
      List (Call V)) := by
    split <;> exact ⟨rfl, rfl⟩
  exact hcall.append hrest

theorem processBucket_offStore (loop : String) (emit : Batch V → Option EmitError) (g : Guard)
    (bucket : Batch V) : OffStore (processBucket loop emit g bucket).2.1 := by
  unfold processBucket
  have hguarded := offStore_guarded loop
    (.sanitize bucket.samples (g.sanitize bucket).1.samples : Call V) (g.sanitize bucket).2.1
    ⟨rfl, rfl⟩
  dsimp only
  split
  · exact hguarded
  · split
    · exact hguarded.append ⟨rfl, rfl⟩
    · rename_i err _
      cases hpast : isAdvancePast err with
      | true => exact hguarded.append ⟨rfl, by simp [Call.isEmitError, Call.isFailedEmit, hpast]⟩
      | false =>
        simp only [Bool.false_eq_true, if_false]
        split <;>
          exact hguarded.append ⟨rfl, by simp [Call.isEmitError, Call.isFailedEmit, hpast]⟩

theorem processBuckets_offStore (loop : String) (emit : Batch V → Option EmitError)
    (buckets : List (Batch V)) :
    ∀ (g : Guard) (frontier : Option Int),
      OffStore (processBuckets loop emit g frontier buckets).2.1 := by
  induction buckets with
  | nil => exact fun _ _ => OffStore.nil
  | cons bucket rest ih =>
    intro g frontier
    have hbucket := processBucket_offStore loop emit g bucket
    unfold processBuckets
    rcases hrun : processBucket loop emit g bucket with ⟨g', calls, e⟩
    rw [hrun] at hbucket
    cases e with
    | advanced => exact hbucket.append (ih g' _)
    | terminal => exact hbucket
    | retryable => exact hbucket

theorem processLogs_offStore (r : LoopRunner) (g : Guard) (env : Env V) (b : Batch V) :
    OffStore (processLogs r g env b).2.2.2 := by
  unfold processLogs
  have hguarded := offStore_guarded r.name
    (.sanitizeLogs b.logs (g.sanitizeLogs r.key.string b.logs).1 : Call V)
    (g.sanitizeLogs r.key.string b.logs).2.1 ⟨rfl, rfl⟩
  dsimp only
  split
  · exact hguarded
  · split
    · refine (hguarded.append ⟨rfl, rfl⟩).append ?_
      split <;> exact ⟨rfl, rfl⟩
    · rename_i err _
      cases hpast : isAdvancePast err with
      | true => exact hguarded.append ⟨rfl, by simp [Call.isEmitError, Call.isFailedEmit, hpast,
          LoopRunner.metric]⟩
      | false =>
        simp only [Bool.false_eq_true, if_false]
        split
        · refine (hguarded.append ⟨rfl, ?_⟩).append (enterDegraded_silent r _).toOffStore
          simp [Call.isEmitError, Call.isFailedEmit, hpast, LoopRunner.metric]
        · exact hguarded.append ⟨rfl, by simp [Call.isEmitError, Call.isFailedEmit, hpast,
            LoopRunner.metric]⟩

/-- The logs leave the runner as it is, unless they end the batch. -/
theorem processLogs_runner (r : LoopRunner) (g : Guard) (env : Env V) (b : Batch V) :
    ((processLogs r g env b).1 = true → (processLogs r g env b).2.1 = r) ∧
    (processLogs r g env b).2.1.frontier = r.frontier ∧
    (processLogs r g env b).2.1.hasFront = r.hasFront := by
  unfold processLogs LoopRunner.enterDegraded
  dsimp only
  split
  · exact ⟨fun _ => rfl, rfl, rfl⟩
  · split
    · exact ⟨fun _ => rfl, rfl, rfl⟩
    · split
      · exact ⟨fun _ => rfl, rfl, rfl⟩
      · split
        · split <;> exact ⟨fun h => absurd h (by simp), rfl, rfl⟩
        · exact ⟨fun _ => rfl, rfl, rfl⟩

/-! ### The commit -/

/-- The watermarks a batch may be committed with: its own, or one of an interior bucket. -/
inductive Target (b : Batch V) : Int → String → Prop
  | own : Target b b.watermark.time b.watermark.cursor
  | interior {t : Int} (h : b.samples ≠ []) : Target b t ""

/-- Two runners with the same position in memory. -/
def SameFront (r r' : LoopRunner) : Prop := r'.frontier = r.frontier ∧ r'.hasFront = r.hasFront

theorem SameFront.enterDegraded (r : LoopRunner) (reason : String) :
    SameFront r (r.enterDegraded (V := V) reason).1 := by
  unfold LoopRunner.enterDegraded
  split <;> exact ⟨rfl, rfl⟩

/-- What a batch comes to: no commit, or one. -/
inductive Committed (r : LoopRunner) (env : Env V) (b : Batch V) :
    LoopRunner → List (Call V) → Prop
  | none {r' : LoopRunner} {calls : List (Call V)} (hfront : SameFront r r')
      (hcalls : OffStore calls) : Committed r env b r' calls
  | one {r' : LoopRunner} {before after : List (Call V)} {t : Int} {cursor : String}
      (htarget : Target b t cursor) (hbefore : OffStore before) (hafter : Silent after)
      (hfront : SameFront (r.commit env b.key t cursor).1 r') :
      Committed r env b r' (before ++ (r.commit env b.key t cursor).2 ++ after)

/-- The same after some calls that leave the store alone. -/
theorem Committed.after {r r' r'' : LoopRunner} {env : Env V} {b : Batch V}
    {calls before : List (Call V)} (h : Committed r env b r' calls) (hbefore : OffStore before)
    (hfront : SameFront r' r'') : Committed r env b r'' (before ++ calls) := by
  cases h with
  | none hsame hcalls =>
    exact .none ⟨hfront.1.trans hsame.1, hfront.2.trans hsame.2⟩ (hbefore.append hcalls)
  | one htarget hcalls hafter hsame =>
    have hone : Committed r env b r'' _ := .one htarget (hbefore.append hcalls) hafter
      ⟨hfront.1.trans hsame.1, hfront.2.trans hsame.2⟩
    simpa only [List.append_assoc] using hone

private theorem splitByBucket_nil {b : Batch V} (h : b.samples = []) : splitByBucket b = [] := by
  unfold splitByBucket
  rw [h]
  rfl

private theorem coalesceDPM_nil [LT V] [DecidableLT V] (maxDPM : Int) :
    (coalesceDPM ([] : List (Sample V)) maxDPM).1 = [] :=
  List.sublist_nil.mp (coalesceDPM_sublist [] maxDPM)

variable [LT V] [DecidableLT V]

private theorem samples_ne_nil {loop : String} {maxDPM : Int} {emit : Batch V → Option EmitError}
    {g : Guard} {b : Batch V} (h : (processBuckets loop emit g none
      (splitByBucket { b with samples := (coalesceDPM b.samples maxDPM).1 })).2.2.1 ≠ .advanced) :
    b.samples ≠ [] := by
  intro hnil
  have hbuckets : splitByBucket { b with samples := (coalesceDPM b.samples maxDPM).1 } = [] := by
    refine splitByBucket_nil ?_
    show (coalesceDPM b.samples maxDPM).1 = []
    rw [hnil, coalesceDPM_nil]
  rw [hbuckets] at h
  exact h rfl

theorem processSamples_committed (r : LoopRunner) (g : Guard) (env : Env V) (b : Batch V) :
    Committed r env b (processSamples r g env b).1 (processSamples r g env b).2.2 := by
  have hbuckets := processBuckets_offStore r.name env.emit
    (splitByBucket { b with samples := (coalesceDPM b.samples r.maxDPM).1 }) g none
  have hsamples := @samples_ne_nil V _ _ r.name r.maxDPM env.emit g b
  have hcut : OffStore (Call.coalesce b.samples (coalesceDPM b.samples r.maxDPM).1 ::
      if 0 < (coalesceDPM b.samples r.maxDPM).2 then
        [r.metric (.samplesCapped (coalesceDPM b.samples r.maxDPM).2)] else [] : List (Call V)) := by
    split <;> exact ⟨rfl, rfl⟩
  unfold processSamples
  rcases hrun : processBuckets r.name env.emit g none
    (splitByBucket { b with samples := (coalesceDPM b.samples r.maxDPM).1 }) with
    ⟨g', calls, e, frontier⟩
  rw [hrun] at hbuckets hsamples
  simp only [hrun]
  have hbefore := hcut.append hbuckets
  cases e with
  | terminal =>
    cases frontier with
    | none =>
      exact .none (SameFront.enterDegraded r _)
        ((hbefore.append .nil).append (enterDegraded_silent r _).toOffStore)
    | some t =>
      exact .one (.interior (hsamples (by simp))) hbefore (enterDegraded_silent _ _)
        (SameFront.enterDegraded _ _)
  | retryable =>
    cases frontier with
    | none => exact .none ⟨rfl, rfl⟩ (hbefore.append .nil)
    | some t =>
      have hone : Committed r env b _ (_ ++ (r.commit env b.key t "").2 ++ []) :=
        .one (.interior (hsamples (by simp))) hbefore ⟨.nil, rfl⟩ ⟨rfl, rfl⟩
      rwa [List.append_nil] at hone
  | advanced =>
    dsimp only
    split
    · have hone : Committed r env b _
          (_ ++ (r.commit env b.key b.watermark.time b.watermark.cursor).2 ++ []) :=
        .one .own hbefore ⟨.nil, rfl⟩ ⟨rfl, rfl⟩
      rwa [List.append_nil] at hone
    · exact .none ⟨rfl, rfl⟩ hbefore

/-- **A batch is committed at most once.** -/
theorem processBatch_committed (r : LoopRunner) (g : Guard) (env : Env V) (b : Batch V) :
    Committed r env b (processBatch r g env b).1 (processBatch r g env b).2.2 := by
  unfold processBatch
  split
  · exact .none ⟨rfl, rfl⟩ .nil
  · by_cases hlogs : b.logs.isEmpty = true
    · simp only [hlogs, if_true]
      exact (processSamples_committed r g env b).after .nil ⟨rfl, rfl⟩
    · simp only [hlogs, Bool.false_eq_true, if_false]
      have hoff := processLogs_offStore r g env b
      obtain ⟨hsame, hfront, hhas⟩ := processLogs_runner r g env b
      rcases hrun : processLogs r g env b with ⟨go, r', g', logCalls⟩
      rw [hrun] at hoff hsame hfront hhas
      cases go with
      | false => exact .none ⟨hfront, hhas⟩ hoff
      | true =>
        obtain rfl : r' = r := hsame rfl
        exact (processSamples_committed r' g' env b).after hoff ⟨rfl, rfl⟩

/-! ### What a commit does -/

omit [LT V] [DecidableLT V]

/-- The watermarks that calls wrote. -/
def written (calls : List (Call V)) : List Watermark :=
  calls.filterMap fun c => match c with
    | .save _ w .ok => some w
    | _ => none

theorem written_append (calls more : List (Call V)) :
    written (calls ++ more) = written calls ++ written more := List.filterMap_append

theorem OffStore.written {calls : List (Call V)} (h : OffStore calls) :
    GenaiBridge.written calls = [] := by
  refine List.filterMap_eq_nil_iff.mpr fun c hc => ?_
  have hstore := List.any_eq_false.mp h.store c hc
  cases c <;> first | rfl | exact absurd rfl hstore

/-- What is committed in memory and in the store. -/
inductive CommitCase (r : LoopRunner) (env : Env V) (w : Watermark) :
    LoopRunner → List Watermark → Prop
  /-- Not attempted, failed, or refused and not read back. -/
  | unchanged {r' : LoopRunner} (hfront : SameFront r r') : CommitCase r env w r' []
  /-- Refused: the stored watermark is taken over. -/
  | reloaded {r' : LoopRunner} (hsave : env.save w = .stale) (hload : env.load = some r'.frontier) :
      CommitCase r env w r' []
  /-- Written, and followed in memory. -/
  | followed {r' : LoopRunner} (hsave : env.save w = .ok) (hfront : r'.frontier = w) :
      CommitCase r env w r' [w]
  /-- Written, but not followed: no later time, and no new cursor. -/
  | behind {r' : LoopRunner} (hsave : env.save w = .ok) (hfront : SameFront r r')
      (hhas : r.hasFront = true) (htime : ¬r.frontier.time < w.time)
      (hcursor : w.time = r.frontier.time → w.cursor ≠ "" → w.cursor = r.frontier.cursor) :
      CommitCase r env w r' [w]

theorem commit_cases (r : LoopRunner) (env : Env V) (key : CheckpointKey) (t : Int)
    (cursor : String) :
    CommitCase r env ⟨t, cursor, env.epoch⟩ (r.commit env key t cursor).1
      (written (r.commit env key t cursor).2) := by
  unfold LoopRunner.commit
  by_cases hlive : env.leaderAtCommit = true
  · simp only [hlive, Bool.not_true, Bool.false_eq_true, if_false]
    cases hsave : env.save ⟨t, cursor, env.epoch⟩ with
    | failed landed =>
      have hwritten : written (Call.save key ⟨t, cursor, env.epoch⟩ (.failed landed) ::
          (r.commitFailed (V := V)).2) = [] := by
        unfold LoopRunner.commitFailed
        dsimp only
        split <;> rfl
      rw [hwritten]
      refine .unchanged ?_
      unfold LoopRunner.commitFailed
      dsimp only
      split <;> exact ⟨rfl, rfl⟩
    | stale =>
      unfold LoopRunner.commitStale
      cases hload : env.load with
      | none => exact .unchanged ⟨rfl, rfl⟩
      | some stored =>
        dsimp only
        split <;> exact .reloaded hsave hload
    | ok =>
      unfold LoopRunner.commitOK
      dsimp only
      have hquiet : written (if r.degraded then [r.metric (.loopDegraded r.degradeReason false)]
          else [] : List (Call V)) = [] := by
        split <;> rfl
      have hwritten : ∀ calls : List (Call V), written calls = [] →
          written (Call.save key ⟨t, cursor, env.epoch⟩ .ok :: calls) =
            [⟨t, cursor, env.epoch⟩] := by
        intro calls hcalls
        rw [← List.singleton_append, written_append, hcalls]
        rfl
      split
      · rw [hwritten _ hquiet]
        exact .followed hsave rfl
      · rename_i hcond
        rw [hwritten _ hquiet]
        simp only [Bool.or_eq_true, Bool.not_eq_true', decide_eq_true_eq, Bool.and_eq_true,
          beq_iff_eq, bne_iff_ne, not_or, not_and, Bool.not_eq_false, not_not] at hcond
        exact .behind hsave ⟨rfl, rfl⟩ hcond.1.1 hcond.1.2 fun htime hne => hcond.2 ⟨htime, hne⟩
  · simp only [Bool.not_eq_true] at hlive
    simp only [hlive, Bool.not_false, if_true]
    exact .unchanged ⟨rfl, rfl⟩

/-- The calls of a batch write what its commit writes. -/
theorem committed_cases {r r' : LoopRunner} {env : Env V} {b : Batch V}
    {calls : List (Call V)} (h : Committed r env b r' calls) :
    (SameFront r r' ∧ written calls = []) ∨
    ∃ t cursor, Target b t cursor ∧
      CommitCase r env ⟨t, cursor, env.epoch⟩ r' (written calls) := by
  cases h with
  | none hfront hcalls => exact Or.inl ⟨hfront, hcalls.written⟩
  | @one before after t cursor htarget hbefore hafter hfront =>
    refine Or.inr ⟨t, cursor, htarget, ?_⟩
    rw [written_append, written_append, hbefore.written, hafter.toOffStore.written,
      List.nil_append, List.append_nil]
    obtain ⟨hf, hh⟩ := hfront
    have hcase := commit_cases r env b.key t cursor
    generalize written (r.commit env b.key t cursor).2 = ws at hcase ⊢
    cases hcase with
    | unchanged hsame => exact .unchanged ⟨hf.trans hsame.1, hh.trans hsame.2⟩
    | reloaded hsave hload => exact .reloaded hsave (hload.trans (congrArg some hf.symm))
    | followed hsave hw => exact .followed hsave (hf.trans hw)
    | behind hsave hsame hhas htime hcursor =>
      exact .behind hsave ⟨hf.trans hsame.1, hh.trans hsame.2⟩ hhas htime hcursor

end GenaiBridge
