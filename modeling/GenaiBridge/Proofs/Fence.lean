/-
A commit that the fence refuses, and whether anybody hears of it.

After a refused save the runner reads the store back and counts an error if the stored time
is behind the time it tried to write.  A refusal at an equal time, which is what a loop
inside a window meets, is counted only if an emission of the batch failed as well.
-/
import GenaiBridge.Proofs.Rejects

namespace GenaiBridge

variable {V : Type}

private theorem commit_refused {r : LoopRunner} {env : Env V} {key : CheckpointKey} {t : Int}
    {cursor : String} (hlive : env.leaderAtCommit = true)
    (hsave : env.save ⟨t, cursor, env.epoch⟩ = .stale) :
    (r.commit env key t cursor).2.any Call.isFailedEmit = false ∧
    ((r.commit env key t cursor).2.any Call.isEmitError = true ↔
      ∃ stored, env.load = some stored ∧ stored.time < t) := by
  unfold LoopRunner.commit LoopRunner.commitStale
  simp only [hlive, hsave, Bool.not_true, Bool.false_eq_true, if_false]
  cases hload : env.load with
  | none => exact ⟨rfl, by simp [Call.isEmitError]⟩
  | some stored =>
    by_cases hbehind : stored.time < t <;>
      simp [hbehind, Call.isEmitError, Call.isFailedEmit, LoopRunner.metric]

private theorem mem_commit {r : LoopRunner} {env : Env V} {key key' : CheckpointKey} {t : Int}
    {cursor : String} {w : Watermark} {outcome : SaveOutcome}
    (h : Call.save key' w outcome ∈ (r.commit env key t cursor).2) :
    env.leaderAtCommit = true ∧ w = ⟨t, cursor, env.epoch⟩ ∧ env.save w = outcome := by
  unfold LoopRunner.commit at h
  by_cases hlive : env.leaderAtCommit = true
  · simp only [hlive, Bool.not_true, Bool.false_eq_true, if_false] at h
    rcases List.mem_cons.mp h with heq | h
    · cases heq
      exact ⟨hlive, rfl, rfl⟩
    · exfalso
      revert h
      split
      · unfold LoopRunner.commitFailed
        dsimp only
        split <;> simp [LoopRunner.metric]
      · unfold LoopRunner.commitStale
        split
        · simp
        · dsimp only
          split <;> simp [LoopRunner.metric]
      · unfold LoopRunner.commitOK
        dsimp only
        split <;> split <;> simp [LoopRunner.metric]
  · simp only [Bool.not_eq_true] at hlive
    simp [hlive] at h

/-! ### The emissions that fail -/

/-- An emission fails, and the batch does not advance past it. -/
def FailsOn (emit : Batch V → Option EmitError) (sub : Batch V) : Prop :=
  ∃ err, emit sub = some err ∧ isAdvancePast err = false

/-- What the guard leaves of the buckets, but for those it drops whole. -/
def guardedBuckets : Guard → List (Batch V) → List (Batch V)
  | _, [] => []
  | g, bucket :: rest =>
    let (sub, _, g) := g.sanitize bucket
    if sub.samples.isEmpty then guardedBuckets g rest else sub :: guardedBuckets g rest

private theorem any_failedEmit (calls : List (Call V)) :
    calls.any Call.isFailedEmit = true ↔
      ∃ sub err, (sub, some err) ∈ emits calls ∧ isAdvancePast err = false := by
  unfold emits
  rw [List.any_eq_true]
  constructor
  · rintro ⟨c, hmem, hc⟩
    unfold Call.isFailedEmit at hc
    split at hc
    · rename_i sub err
      exact ⟨sub, err, List.mem_filterMap.mpr ⟨_, hmem, rfl⟩, by simpa using hc⟩
    · cases hc
  · rintro ⟨sub, err, hmem, hpast⟩
    obtain ⟨c, hc, hemit⟩ := List.mem_filterMap.mp hmem
    cases c <;> cases hemit
    exact ⟨_, hc, by simp [Call.isFailedEmit, hpast]⟩

private theorem processBucket_failed (loop : String) (emit : Batch V → Option EmitError) (g : Guard)
    (bucket : Batch V) :
    let out := processBucket loop emit g bucket
    let sub := (g.sanitize bucket).1
    out.1 = (g.sanitize bucket).2.2 ∧
    (out.2.1.any Call.isFailedEmit = true ↔ sub.samples.isEmpty = false ∧ FailsOn emit sub) ∧
    (out.2.2 = .advanced ↔ out.2.1.any Call.isFailedEmit = false) := by
  intro out sub
  have hguarded : (Call.sanitize bucket.samples sub.samples ::
      if 0 < (g.sanitize bucket).2.1 then
        [Call.metric loop (.guardDropped (g.sanitize bucket).2.1)] else []).any
      Call.isFailedEmit = false := by
    split <;> rfl
  simp only [out, processBucket]
  generalize (Call.sanitize bucket.samples (g.sanitize bucket).1.samples ::
    if 0 < (g.sanitize bucket).2.1 then
      [Call.metric loop (.guardDropped (g.sanitize bucket).2.1)] else []) = guarded at hguarded ⊢
  by_cases hempty : sub.samples.isEmpty = true
  · rw [if_pos hempty]
    exact ⟨rfl, by rw [hguarded, hempty]; simp, by rw [hguarded]; simp⟩
  · rw [if_neg hempty]
    have hkept : sub.samples.isEmpty = false := Bool.not_eq_true _ ▸ hempty
    cases hemit : emit (g.sanitize bucket).1 with
    | none =>
      have hnot : ¬FailsOn emit sub := by
        rintro ⟨err, herr, -⟩
        rw [show emit sub = none from hemit] at herr
        cases herr
      refine ⟨rfl, ?_, ?_⟩ <;> rw [List.any_append, hguarded] <;>
        simp [Call.isFailedEmit, hnot]
    | some err =>
      have hfails : FailsOn emit sub ↔ isAdvancePast err = false := by
        constructor
        · rintro ⟨err', herr, hpast⟩
          rw [show emit sub = some err from hemit] at herr
          rwa [Option.some.inj herr]
        · exact fun hpast => ⟨err, hemit, hpast⟩
      dsimp only
      split_ifs with hpast hhalt
      all_goals
        refine ⟨rfl, ?_, ?_⟩ <;> rw [List.any_append, hguarded] <;>
          simp [Call.isFailedEmit, hfails, hkept, hpast]

private theorem processBuckets_failed (loop : String) (emit : Batch V → Option EmitError) :
    ∀ (buckets : List (Batch V)) (g : Guard) (frontier : Option Int),
      (processBuckets loop emit g frontier buckets).2.1.any Call.isFailedEmit = true ↔
        ∃ sub ∈ guardedBuckets g buckets, FailsOn emit sub := by
  intro buckets
  induction buckets with
  | nil =>
    intro g frontier
    simp [processBuckets, guardedBuckets]
  | cons bucket rest ih =>
    intro g frontier
    have hbucket := processBucket_failed loop emit g bucket
    -- what the guard leaves of the bucket counts only if it leaves something
    have hmem : (∃ sub ∈ guardedBuckets g (bucket :: rest), FailsOn emit sub) ↔
        ((g.sanitize bucket).1.samples.isEmpty = false ∧ FailsOn emit (g.sanitize bucket).1) ∨
          ∃ sub ∈ guardedBuckets (g.sanitize bucket).2.2 rest, FailsOn emit sub := by
      simp only [guardedBuckets]
      cases (g.sanitize bucket).1.samples.isEmpty <;> simp
    rw [hmem]
    unfold processBuckets
    rcases hrun : processBucket loop emit g bucket with ⟨g', calls, e⟩
    rw [hrun] at hbucket
    obtain ⟨rfl, hfailed, hend⟩ := hbucket
    rw [← hfailed]
    cases e with
    | advanced =>
      dsimp only
      rw [List.any_append, Bool.or_eq_true, ih]
    | terminal =>
      have hstop : calls.any Call.isFailedEmit = true := by simpa using hend
      exact iff_of_true hstop (Or.inl hstop)
    | retryable =>
      have hstop : calls.any Call.isFailedEmit = true := by simpa using hend
      exact iff_of_true hstop (Or.inl hstop)

private theorem processLogs_failed (r : LoopRunner) (g : Guard) (env : Env V) (b : Batch V)
    (h : (processLogs r g env b).1 = true) :
    (processLogs r g env b).2.2.1 = (g.sanitizeLogs r.key.string b.logs).2.2 ∧
    (processLogs r g env b).2.2.2.any Call.isFailedEmit = false := by
  have hguarded : (Call.sanitizeLogs b.logs (g.sanitizeLogs r.key.string b.logs).1 ::
      if 0 < (g.sanitizeLogs r.key.string b.logs).2.1 then
        [r.metric (.guardDropped (g.sanitizeLogs r.key.string b.logs).2.1)] else [] :
          List (Call V)).any Call.isFailedEmit = false := by
    split <;> rfl
  revert h
  unfold processLogs
  dsimp only
  generalize (Call.sanitizeLogs b.logs (g.sanitizeLogs r.key.string b.logs).1 ::
    if 0 < (g.sanitizeLogs r.key.string b.logs).2.1 then
      [r.metric (.guardDropped (g.sanitizeLogs r.key.string b.logs).2.1)] else [] :
        List (Call V)) = guarded at hguarded ⊢
  split
  · exact fun _ => ⟨rfl, hguarded⟩
  · split
    · intro _
      refine ⟨rfl, ?_⟩
      rw [List.any_append, List.any_append, hguarded]
      split <;> rfl
    · rename_i err _
      split_ifs with hpast hhalt
      · intro _
        refine ⟨rfl, ?_⟩
        rw [List.any_append, hguarded]
        simp [Call.isFailedEmit, hpast, LoopRunner.metric]
      · intro h
        cases h
      · intro h
        cases h

private theorem not_mem_offStore {calls : List (Call V)} (h : OffStore calls) {c : Call V}
    (hc : c.isStore = true) : c ∉ calls := by
  intro hmem
  exact absurd hc (List.any_eq_false.mp h.store c hmem)

variable [LT V] [DecidableLT V]

/-- The parts of its samples that a batch hands to the emitter, as long as none of them fails. -/
def LoopRunner.subBatches (r : LoopRunner) (g : Guard) (b : Batch V) : List (Batch V) :=
  guardedBuckets (if b.logs.isEmpty then g else (g.sanitizeLogs r.key.string b.logs).2.2)
    (splitByBucket (coalesced r b))

private theorem processSamples_failed (r : LoopRunner) (g : Guard) (env : Env V) (b : Batch V) :
    (processSamples r g env b).2.2.any Call.isFailedEmit = true ↔
      ∃ sub ∈ guardedBuckets g (splitByBucket (coalesced r b)), FailsOn env.emit sub := by
  rw [any_failedEmit, emits_processSamples, ← any_failedEmit, processBuckets_failed]

private theorem processBatch_failed {r : LoopRunner} {g : Guard} {env : Env V} {b : Batch V}
    {key : CheckpointKey} {w : Watermark} {outcome : SaveOutcome}
    (hsave : Call.save key w outcome ∈ (processBatch r g env b).2.2) :
    (processBatch r g env b).2.2.any Call.isFailedEmit = true ↔
      ∃ sub ∈ r.subBatches g b, FailsOn env.emit sub := by
  unfold LoopRunner.subBatches
  unfold processBatch at hsave ⊢
  split at hsave
  · cases hsave
  · rename_i hstart
    rw [if_neg hstart]
    by_cases hlogs : b.logs.isEmpty = true
    · simp only [hlogs, if_true, List.nil_append]
      exact processSamples_failed r g env b
    · simp only [hlogs, Bool.false_eq_true, if_false] at hsave ⊢
      have hoff := processLogs_offStore r g env b
      have hsame := (processLogs_runner r g env b).1
      have hgo := processLogs_failed r g env b
      rcases hrun : processLogs r g env b with ⟨go, r', g', logCalls⟩
      rw [hrun] at hoff hsame hgo hsave
      cases go with
      | false => exact absurd hsave (not_mem_offStore hoff rfl)
      | true =>
        obtain rfl : r' = r := hsame rfl
        obtain ⟨rfl, hquiet⟩ := hgo rfl
        simp only [if_true, List.any_append, hquiet, Bool.false_or]
        exact processSamples_failed r' _ env b

/-- **A refused commit is counted** exactly when the store read back is behind it in time, or the
emission of one of the parts of the batch fails, which is counted itself. -/
theorem refused_commit_counted_iff (r : LoopRunner) (g : Guard) (env : Env V) (b : Batch V)
    {key : CheckpointKey} {w : Watermark}
    (hsave : Call.save key w .stale ∈ (processBatch r g env b).2.2) :
    (∃ loop kind, Call.metric loop (.emitError kind) ∈ (processBatch r g env b).2.2) ↔
      (∃ sub ∈ r.subBatches g b, FailsOn env.emit sub) ∨
      ∃ stored, env.load = some stored ∧ stored.time < w.time := by
  rw [← processBatch_failed hsave]
  have hcommitted := processBatch_committed r g env b
  generalize (processBatch r g env b).1 = r' at hcommitted
  generalize (processBatch r g env b).2.2 = calls at hcommitted hsave ⊢
  have herror : (∃ loop kind, Call.metric loop (.emitError kind) ∈ calls) ↔
      calls.any Call.isEmitError = true := by
    rw [List.any_eq_true]
    constructor
    · rintro ⟨loop, kind, hmem⟩
      exact ⟨_, hmem, rfl⟩
    · rintro ⟨c, hmem, hc⟩
      unfold Call.isEmitError at hc
      split at hc
      · exact ⟨_, _, hmem⟩
      · cases hc
  rw [herror]
  cases hcommitted with
  | none hfront hcalls => exact absurd hsave (not_mem_offStore hcalls rfl)
  | @one before after t cursor htarget hbefore hafter hfront =>
    have hmem : Call.save key w .stale ∈ (r.commit env b.key t cursor).2 := by
      rcases List.mem_append.mp hsave with h | h
      · rcases List.mem_append.mp h with h | h
        · exact absurd h (not_mem_offStore hbefore rfl)
        · exact h
      · exact absurd h (not_mem_offStore hafter.toOffStore rfl)
    obtain ⟨hlive, rfl, hstale⟩ := mem_commit hmem
    obtain ⟨hquiet, hcount⟩ := @commit_refused V r env b.key t cursor hlive hstale
    simp only [List.any_append, hbefore.counted, hafter.counted, hafter.failed, hquiet,
      Bool.or_eq_true, Bool.or_false, hcount]

/-- A store that a later leader has written, inside a window. -/
def fencedStore : Watermark := { time := 0, cursor := "page 1", epoch := 2 }

/-- A leader of an earlier epoch. -/
def fencedEnv : Env Nat :=
  { leaderAtStart := true
    leaderAtCommit := true
    epoch := 1
    emit := fun _ => none
    save := fun w => match checkMonotonic fencedStore w with
      | .ok _ => .ok
      | .error _ => .stale
    load := some fencedStore }

/-- The next step inside the window. -/
def nextPage : Batch Nat :=
  { key := ⟨"portkey", "logs_export", "f"⟩, watermark := { cursor := "page 2" } }

theorem fenced_cursor_silent :
    checkMonotonic fencedStore ⟨0, "page 2", 1⟩ = .error (.staleEpoch 1 2) ∧
    (processBatch (.new nextPage.key 1) (newGuard ⟨[], [], .empty, 0⟩) fencedEnv nextPage).2.2 =
      [.coalesce [] [], .save nextPage.key ⟨0, "page 2", 1⟩ .stale,
        .load nextPage.key (some fencedStore)] := by
  decide +kernel

/-- The window after it. -/
def nextWindow : Batch Nat := { nextPage with watermark := { time := 1, cursor := "" } }

theorem refused_commit_counted_window :
    (processBatch (.new nextPage.key 1) (newGuard ⟨[], [], .empty, 0⟩) fencedEnv
      nextWindow).2.2.any Call.isEmitError = true ∧
    ∃ loop kind, Call.metric loop (.emitError kind) ∈
      (processBatch (.new nextPage.key 1) (newGuard ⟨[], [], .empty, 0⟩) fencedEnv
        nextWindow).2.2 := by
  have hsave : Call.save nextPage.key ⟨1, "", 1⟩ .stale ∈
      (processBatch (.new nextPage.key 1) (newGuard ⟨[], [], .empty, 0⟩) fencedEnv
        nextWindow).2.2 := by decide +kernel
  exact ⟨by decide +kernel, (refused_commit_counted_iff _ _ _ _ hsave).mpr
    (Or.inr ⟨fencedStore, rfl, by decide⟩)⟩

end GenaiBridge
