/-
What a refused request does to the position.

A refusal of the whole request, such as one for bad credentials, should stop a batch at
the bucket it is about.  It does when it is classified as unknown or as a bad encoding:
`processBuckets_halt` follows such an error through the loop, and `processBatch_halt`
through the batch, up to the one watermark that may be saved.

But the classification goes by the text of the response and only then by its status.  A
refusal whose text has one of the phrases for single samples is taken for a refusal of
those, and the batch moves on.
-/
import GenaiBridge.Bridge.OtlpPost
import GenaiBridge.Proofs.Commit
import GenaiBridge.Proofs.ProcessBatch
import GenaiBridge.Proofs.Splitting

namespace GenaiBridge

/-! ### The classification -/

/-- A refusal of the request and not of what is in it: any 4xx but 400, 413 and 429. -/
def IsRequestFailure (status : Int) : Prop :=
  400 ≤ status ∧ status < 500 ∧ status ≠ 400 ∧ status ≠ 413 ∧ status ≠ 429

instance (status : Int) : Decidable (IsRequestFailure status) :=
  inferInstanceAs (Decidable (_ ∧ _ ∧ _ ∧ _ ∧ _))

/-- The text of a response has a phrase for a duplicate or an old sample. -/
def blamesSamples (body : String) : Bool :=
  hasAny (lowerText body) duplicatePhrases || hasAny (lowerText body) tooOldPhrases

theorem classify_eq {status : Int} (hstatus : status ≠ 413) (body : String) :
    ∃ reason, classify status body = .reject reason status (trunc body) ∧
      reason ≠ .payloadTooLarge ∧ reason.advancesPast = blamesSamples body ∧
      isTerminalHalt (classify status body) = !blamesSamples body := by
  unfold classify blamesSamples
  rw [if_neg hstatus]
  dsimp only
  by_cases hdup : hasAny (lowerText body) duplicatePhrases = true
  · rw [if_pos hdup, hdup]
    exact ⟨_, rfl, by decide, rfl, rfl⟩
  · rw [if_neg hdup, Bool.eq_false_iff.mpr hdup]
    by_cases hold : hasAny (lowerText body) tooOldPhrases = true
    · rw [if_pos hold, hold]
      exact ⟨_, rfl, by decide, rfl, rfl⟩
    · rw [if_neg hold, Bool.eq_false_iff.mpr hold]
      by_cases hbad : hasAny (lowerText body) badEncodingPhrases = true
      · rw [if_pos hbad]
        exact ⟨_, rfl, by decide, rfl, rfl⟩
      · rw [if_neg hbad]
        exact ⟨_, rfl, by decide, rfl, rfl⟩

theorem postLoop_cons (c : Credentials) (policy : RetryPolicy) (deadline delay : Int) (round : Round)
    (rest : List Round) :
    postLoop c policy deadline delay (round :: rest) =
      match postRound c policy deadline delay round with
      | .returned err => some err
      | .again _ delay' => postLoop c policy deadline delay' rest := by
  unfold postLoop
  rw [postTurns]
  cases postRound c policy deadline delay round with
  | returned err => rfl
  | again slept delay' =>
    dsimp only
    cases rest with
    | nil => rfl
    | cons next rest =>
      -- there is another turn, so the last one is among those that follow
      have hne : postTurns c policy deadline delay' (next :: rest) ≠ [] := by
        rw [postTurns]
        split <;> simp
      rw [List.getLast?_cons, List.getLast?_eq_some_getLast hne]
      rfl

/-- `post` returns what such a response is classified as, whatever went before it. -/
theorem post_of_requestFailure (c : Credentials) (policy : RetryPolicy) (deadline : Int)
    {last : Round} {status : Int} {body : String} {retryAfter : Int}
    (hlast : last.answer = .response status body retryAfter) (hstatus : IsRequestFailure status)
    (later : List Round) : ∀ (earlier : List Round) (delay : Int),
    postLoop c policy deadline delay earlier = none →
      postLoop c policy deadline delay (earlier ++ last :: later) =
        some (some (classify status (c.redactSecrets body))) := by
  obtain ⟨hlo, hhi, -, -, hne⟩ := hstatus
  intro earlier
  induction earlier with
  | nil =>
    intro delay _
    have hround : postRound c policy deadline delay last =
        .returned (some (classify status (c.redactSecrets body))) := by
      unfold postRound
      rw [hlast]
      dsimp only
      rw [if_neg (by omega), if_pos ⟨hlo, hhi, hne⟩]
    rw [List.nil_append, postLoop_cons, hround]
  | cons round rest ih =>
    intro delay h
    rw [postLoop_cons] at h
    rw [List.cons_append, postLoop_cons]
    cases hround : postRound c policy deadline delay round with
    | returned err =>
      rw [hround] at h
      cases h
    | again slept delay' =>
      rw [hround] at h
      exact ih delay' h

/-! ### Through the emission -/

section

variable {α σ : Type}

/-- An emission returns the error of a post, unless that was found too large. -/
theorem emitSplitting_err_of_mem {encode : List α → Except EncodeError (List UInt8)}
    {gzipError : String} {wire : Wire σ} {maxBytes : Int} {items : List α} {server : σ} {p : Post α}
    {err : EmitError}
    (hp : p ∈ (emitSplitting encode gzipError wire maxBytes items server).posts)
    (herr : p.err = some err) (hlarge : isPayloadTooLarge (some err) = false) :
    (emitSplitting encode gzipError wire maxBytes items server).err = some err := by
  have hsettled : p.settled = true := by
    rw [Post.settled, herr, hlarge]
    rfl
  rcases emitSplitting_err_of_settled gzipError items server p hp hsettled with hnone | hsame
  · rw [herr] at hnone
    cases hnone
  · rw [← hsame, herr]

end

/-! ### Through the loop over the buckets -/

variable {V : Type}

theorem isAdvancePast_of_isTerminalHalt {err : EmitError} (h : isTerminalHalt err = true) :
    isAdvancePast err = false := by
  cases err with
  | reject reason status msg => cases reason <;> first | rfl | cases h
  | retryable status err => cases h
  | other msg => cases h

private theorem processBucket_halt {loop : String} {emit : Batch V → Option EmitError} {g : Guard}
    {c sub : Batch V} {err : EmitError}
    (h : (sub, some err) ∈ emits (processBucket loop emit g c).2.1)
    (herr : isTerminalHalt err = true) :
    (processBucket loop emit g c).2.2 = .terminal ∧ sub = (g.sanitize c).1 := by
  have hpast := isAdvancePast_of_isTerminalHalt herr
  have hguarded : emits (.sanitize c.samples (g.sanitize c).1.samples ::
      if 0 < (g.sanitize c).2.1 then [Call.metric loop (.guardDropped (g.sanitize c).2.1)]
      else [] : List (Call V)) = [] := by
    split <;> rfl
  unfold processBucket at h ⊢
  dsimp only at h ⊢
  by_cases hempty : (g.sanitize c).1.samples.isEmpty = true
  · rw [if_pos hempty, hguarded] at h
    cases h
  · rw [if_neg hempty] at h ⊢
    cases hemit : emit (g.sanitize c).1 with
    | none =>
      rw [hemit, emits_append, hguarded] at h
      simp [emits, Call.emitted?] at h
    | some err' =>
      rw [hemit] at h
      dsimp only at h ⊢
      by_cases hpast' : isAdvancePast err' = true
      · rw [if_pos hpast', emits_append, hguarded] at h
        have hmem : sub = (g.sanitize c).1 ∧ err = err' := by
          simpa [emits, Call.emitted?] using h
        rw [hmem.2, hpast'] at hpast
        cases hpast
      · rw [if_neg hpast'] at h ⊢
        by_cases hhalt : isTerminalHalt err' = true
        · rw [if_pos hhalt, emits_append, hguarded] at h
          rw [if_pos hhalt]
          have hmem : sub = (g.sanitize c).1 ∧ err = err' := by
            simpa [emits, Call.emitted?] using h
          exact ⟨rfl, hmem.1⟩
        · rw [if_neg hhalt, emits_append, hguarded] at h
          have hmem : sub = (g.sanitize c).1 ∧ err = err' := by
            simpa [emits, Call.emitted?] using h
          rw [hmem.2] at herr
          exact absurd herr hhalt

/-- **The loop stops at the bucket of such an error**, with the frontier before it. -/
theorem processBuckets_halt (loop : String) (emit : Batch V → Option EmitError) {sub : Batch V}
    {err : EmitError} (herr : isTerminalHalt err = true) (buckets : List (Batch V)) :
    ∀ (g : Guard) (frontier : Option Int),
      (sub, some err) ∈ emits (processBuckets loop emit g frontier buckets).2.1 →
      (processBuckets loop emit g frontier buckets).2.2.1 = .terminal ∧
      ∃ pre failing post, buckets = pre ++ failing :: post ∧ sub.samples.Sublist failing.samples ∧
        sub.logs = failing.logs ∧
        (processBuckets loop emit g frontier buckets).2.2.2 = frontierAfter frontier pre := by
  induction buckets with
  | nil =>
    intro g frontier h
    cases h
  | cons c rest ih =>
    intro g frontier h
    have hbucket := @processBucket_halt V loop emit g c sub err
    unfold processBuckets at h ⊢
    rcases hrun : processBucket loop emit g c with ⟨g', calls, e⟩
    rw [hrun] at h hbucket
    cases e with
    | advanced =>
      dsimp only at h ⊢
      rw [emits_append] at h
      rcases List.mem_append.mp h with h | h
      · cases (hbucket h herr).1
      · obtain ⟨hend, pre, failing, post, hsplit, hsub, hlogs, hfront⟩ := ih g' _ h
        refine ⟨hend, c :: pre, failing, post, by rw [hsplit]; rfl, hsub, hlogs, ?_⟩
        rw [← frontierAfter_cons]
        exact hfront
    | terminal =>
      obtain ⟨-, rfl⟩ := hbucket h herr
      exact ⟨rfl, [], c, rest, rfl, sanitize_sublist g c, rfl, rfl⟩
    | retryable => cases (hbucket h herr).1

/-! ### Through the batch -/

theorem mem_saves_commit {r : LoopRunner} {env : Env V} {key : CheckpointKey} {t : Int}
    {cursor : String} {p : CheckpointKey × Watermark} (h : p ∈ saves (r.commit env key t cursor).2) :
    p = (key, { time := t, cursor := cursor, epoch := env.epoch }) := by
  by_cases hlive : env.leaderAtCommit = true
  · rw [(commit_commits r hlive key t cursor).saves] at h
    simpa using h
  · have hnone : (r.commit env key t cursor).2 = [] := by
      unfold LoopRunner.commit
      simp [hlive]
    rw [hnone] at h
    cases h

theorem enterDegraded_degraded (r : LoopRunner) (reason : String) :
    (r.enterDegraded (V := V) reason).1.degraded = true := by
  unfold LoopRunner.enterDegraded
  by_cases hdegraded : r.degraded = true
  · rw [if_pos hdegraded]
    exact hdegraded
  · rw [if_neg hdegraded]

theorem saves_of_offStore {calls : List (Call V)} (h : OffStore calls) : saves calls = [] := by
  refine List.filterMap_eq_nil_iff.mpr ?_
  intro call hcall
  have hstore := List.any_eq_false.mp h.store call hcall
  cases call <;> first | rfl | exact absurd rfl hstore

variable [LT V] [DecidableLT V]

/-- A run that held its position at the part `sub` of the batch: the loop is degraded, and what was
saved, if anything, is the time of a bucket before it. -/
structure PositionHeld (r : LoopRunner) (env : Env V) (b sub : Batch V)
    (after : LoopRunner × Guard × List (Call V)) : Prop where
  degraded : after.1.degraded = true
  logs : sub.logs ≠ [] → saves after.2.2 = []
  bucket : ∀ p ∈ saves after.2.2, ∃ pre failing post c,
    splitByBucket (coalesced r b) = pre ++ failing :: post ∧ c ∈ pre ∧
      sub.samples.Sublist failing.samples ∧
      p = (b.key, { time := bucketTime c, cursor := "", epoch := env.epoch })

omit [LT V] [DecidableLT V] in
private theorem emits_commit (r : LoopRunner) (env : Env V) (key : CheckpointKey) (t : Int)
    (cursor : String) : emits (r.commit env key t cursor).2 = [] := by
  by_cases hlive : env.leaderAtCommit = true
  · exact (commit_commits r hlive key t cursor).emits
  · unfold LoopRunner.commit
    simp [hlive, emits]

/-- The emissions of a batch of samples are those of its buckets. -/
theorem emits_processSamples (r : LoopRunner) (g : Guard) (env : Env V) (b : Batch V) :
    emits (processSamples r g env b).2.2 =
      emits (processBuckets r.name env.emit g none (splitByBucket (coalesced r b))).2.1 := by
  have hcut := emits_coalesceCalls r b
  unfold coalesceCalls coalesced at hcut
  unfold processSamples coalesced
  rcases hrun : processBuckets r.name env.emit g none
    (splitByBucket { b with samples := (coalesceDPM b.samples r.maxDPM).1 }) with
    ⟨g', calls, e, frontier⟩
  simp only [hrun]
  have hinterior : emits (commitInterior r env b.key frontier).2 = [] := by
    unfold commitInterior
    cases frontier with
    | none => rfl
    | some t => exact emits_commit r env b.key t ""
  cases e with
  | terminal =>
    dsimp only
    rw [emits_append, emits_append, emits_append, hcut, hinterior,
      (enterDegraded_quiet _ _).emits, List.nil_append, List.append_nil, List.append_nil]
  | retryable =>
    dsimp only
    rw [emits_append, emits_append, hcut, hinterior, List.nil_append, List.append_nil]
  | advanced =>
    dsimp only
    split
    · rw [emits_append, emits_append, hcut, emits_commit, List.nil_append, List.append_nil]
    · rw [emits_append, hcut, List.nil_append]

private theorem processSamples_halt {r : LoopRunner} {g : Guard} {env : Env V} {b sub : Batch V}
    {err : EmitError} (herr : isTerminalHalt err = true)
    (h : (sub, some err) ∈ emits (processSamples r g env b).2.2) :
    PositionHeld r env b sub (processSamples r g env b) := by
  rw [emits_processSamples] at h
  obtain ⟨hend, pre, failing, post, hsplit, hsub, hlogs, hfront⟩ :=
    processBuckets_halt r.name env.emit herr _ g none h
  have hnologs : sub.logs = [] := by
    have hmem : failing ∈ splitByBucket (coalesced r b) := by
      rw [hsplit]
      simp
    rw [splitByBucket_eq] at hmem
    obtain ⟨k, -, rfl⟩ := List.mem_map.mp hmem
    exact hlogs
  have hcut := saves_coalesceCalls r b
  have hduring := saves_of_offStore
    (processBuckets_offStore r.name env.emit (splitByBucket (coalesced r b)) g none)
  unfold coalesceCalls at hcut
  unfold processSamples
  unfold coalesced at hend hfront hduring hcut
  rcases hrun : processBuckets r.name env.emit g none
    (splitByBucket { b with samples := (coalesceDPM b.samples r.maxDPM).1 }) with
    ⟨g', calls, e, frontier⟩
  rw [hrun] at hend hfront hduring
  obtain rfl : e = .terminal := hend
  obtain rfl : frontier = frontierAfter none pre := hfront
  simp only [hrun]
  refine ⟨enterDegraded_degraded _ _, fun hne => absurd hnologs hne, ?_⟩
  intro p hp
  rw [saves_append, saves_append, saves_append, hcut, hduring, (enterDegraded_quiet _ _).saves,
    List.nil_append, List.nil_append, List.append_nil] at hp
  unfold commitInterior frontierAfter at hp
  cases hlast : pre.getLast? with
  | none =>
    rw [hlast] at hp
    cases hp
  | some c =>
    rw [hlast] at hp
    exact ⟨pre, failing, post, c, hsplit, List.mem_of_getLast? hlast, hsub, mem_saves_commit hp⟩

omit [LT V] [DecidableLT V] in
private theorem processLogs_halt {r : LoopRunner} {g : Guard} {env : Env V} {b sub : Batch V}
    {err : EmitError} (herr : isTerminalHalt err = true)
    (h : (sub, some err) ∈ emits (processLogs r g env b).2.2.2) :
    (processLogs r g env b).1 = false ∧ (processLogs r g env b).2.1.degraded = true := by
  have hpast := isAdvancePast_of_isTerminalHalt herr
  have hguarded : emits (.sanitizeLogs b.logs (g.sanitizeLogs r.key.string b.logs).1 ::
      if 0 < (g.sanitizeLogs r.key.string b.logs).2.1 then
        [r.metric (.guardDropped (g.sanitizeLogs r.key.string b.logs).2.1)]
      else [] : List (Call V)) = [] := by
    split <;> rfl
  unfold processLogs at h ⊢
  dsimp only at h ⊢
  by_cases hempty : (g.sanitizeLogs r.key.string b.logs).1.isEmpty = true
  · rw [if_pos hempty, hguarded] at h
    cases h
  · rw [if_neg hempty] at h ⊢
    cases hemit : env.emit { key := b.key, logs := (g.sanitizeLogs r.key.string b.logs).1 } with
    | none =>
      rw [hemit, emits_append, emits_append, hguarded] at h
      split at h <;> simp [emits, Call.emitted?, LoopRunner.metric] at h
    | some err' =>
      rw [hemit] at h
      dsimp only at h ⊢
      have heq : ∀ {kind : Metric}, (sub, some err) ∈ emits
          [.emit { key := b.key, logs := (g.sanitizeLogs r.key.string b.logs).1 } (some err'),
            (r.metric kind : Call V)] → err = err' := by
        intro kind hmem
        exact (by simpa [emits, Call.emitted?, LoopRunner.metric] using hmem :
          sub = _ ∧ err = err').2
      by_cases hpast' : isAdvancePast err' = true
      · rw [if_pos hpast', emits_append, hguarded, List.nil_append] at h
        rw [heq h, hpast'] at hpast
        cases hpast
      · rw [if_neg hpast'] at h ⊢
        by_cases hhalt : isTerminalHalt err' = true
        · rw [if_pos hhalt]
          exact ⟨rfl, enterDegraded_degraded r _⟩
        · rw [if_neg hhalt, emits_append, hguarded, List.nil_append] at h
          rw [heq h] at herr
          exact absurd herr hhalt

/-- **Such an error holds the position**, wherever it occurs in a batch. -/
theorem processBatch_halt {r : LoopRunner} {g : Guard} {env : Env V} {b sub : Batch V}
    {err : EmitError} (herr : isTerminalHalt err = true)
    (h : (sub, some err) ∈ emits (processBatch r g env b).2.2) :
    PositionHeld r env b sub (processBatch r g env b) := by
  unfold processBatch at h ⊢
  by_cases hstart : env.leaderAtStart = true
  · simp only [hstart, Bool.not_true, Bool.false_eq_true, if_false] at h ⊢
    by_cases hlogs : b.logs.isEmpty = true
    · simp only [hlogs, if_true, List.nil_append] at h ⊢
      obtain ⟨hdegraded, hnone, hbucket⟩ := processSamples_halt herr h
      exact ⟨hdegraded, hnone, hbucket⟩
    · simp only [hlogs, Bool.false_eq_true, if_false] at h ⊢
      have hoff := saves_of_offStore (processLogs_offStore r g env b)
      have hlog := @processLogs_halt V r g env b sub err herr
      obtain ⟨hsame, -, -⟩ := processLogs_runner r g env b
      rcases hrun : processLogs r g env b with ⟨go, r', g', logCalls⟩
      rw [hrun] at h hoff hlog hsame
      cases go with
      | false =>
        simp only [Bool.false_eq_true, if_false] at h ⊢
        obtain ⟨-, hdegraded⟩ := hlog h
        refine ⟨hdegraded, fun _ => hoff, ?_⟩
        intro p hp
        rw [hoff] at hp
        cases hp
      | true =>
        obtain rfl : r' = r := hsame rfl
        simp only [if_true, emits_append] at h ⊢
        rcases List.mem_append.mp h with h | h
        · cases (hlog h).1
        · obtain ⟨hdegraded, hnone, hbucket⟩ := processSamples_halt herr h
          have hsaves : saves (logCalls ++ (processSamples r' g' env b).2.2) =
              saves (processSamples r' g' env b).2.2 := by
            rw [saves_append, hoff, List.nil_append]
          refine ⟨hdegraded, ?_, ?_⟩
          · intro hne
            rw [hsaves]
            exact hnone hne
          · intro p hp
            rw [hsaves] at hp
            exact hbucket p hp
  · simp only [hstart, Bool.not_false, if_true] at h
    cases h

omit [LT V] [DecidableLT V]

/-! ### Request failures -/

/-- An error on which nothing is skipped: an emission with it returns it, and a batch with it holds
its position and leaves the loop degraded. -/
structure EmitError.Halts (err : EmitError) : Prop where
  stays : isAdvancePast err = false
  emission : ∀ {α σ : Type} (encode : List α → Except EncodeError (List UInt8)) (gzipError : String)
    (wire : Wire σ) (maxBytes : Int) (items : List α) (server : σ),
    ∀ p ∈ (emitSplitting encode gzipError wire maxBytes items server).posts, p.err = some err →
      (emitSplitting encode gzipError wire maxBytes items server).err = some err
  batch : ∀ {V : Type} [LT V] [DecidableLT V] (r : LoopRunner) (g : Guard) (env : Env V)
    (b sub : Batch V), (sub, some err) ∈ emits (processBatch r g env b).2.2 →
      PositionHeld r env b sub (processBatch r g env b)

theorem classify_halts_iff {status : Int} (hstatus : status ≠ 413) (body : String) :
    (classify status body).Halts ↔ blamesSamples body = false := by
  obtain ⟨reason, heq, hlarge, hpast, hhalt⟩ := classify_eq hstatus body
  constructor
  · intro h
    have hstays := h.stays
    rw [heq] at hstays
    exact hpast ▸ hstays
  · intro hbody
    rw [hbody] at hpast hhalt
    refine ⟨by rw [heq]; exact hpast, ?_, ?_⟩
    · intro α σ encode gzipError wire maxBytes items server p hp herr
      refine emitSplitting_err_of_mem hp herr ?_
      rw [heq]
      cases reason <;> first | rfl | exact absurd rfl hlarge
    · intro V _ _ r g env b sub h
      exact processBatch_halt hhalt h

/-- **A request failure halts the loop, unless its text blames the samples.**  Once a request is
answered with a 4xx other than 400, 413 and 429, `post` returns an error, whatever the answers
before it were; and that error skips nothing just if the response, without the credentials and in
lower case, has none of the phrases for duplicate and old samples. -/
theorem request_failure_halts_iff (c : Credentials) (policy : RetryPolicy) (start : Int)
    (earlier later : List Round) (last : Round) (status : Int) (body : String) (retryAfter : Int)
    (hearlier : post c policy start earlier = none)
    (hlast : last.answer = .response status body retryAfter) (hstatus : IsRequestFailure status) :
    ∃ err, post c policy start (earlier ++ last :: later) = some (some err) ∧
      (err.Halts ↔ blamesSamples (c.redactSecrets body) = false) :=
  ⟨_, post_of_requestFailure c policy _ hlast hstatus later earlier _ hearlier,
    classify_halts_iff hstatus.2.2.2.1 _⟩

/-- A policy without retries. -/
private def noRetries : RetryPolicy :=
  { initialDelay := 0, maxDelay := 0, maxElapsed := 0, grow := fun d => d }

/-- A response at the zero time. -/
private def answered (status : Int) (body : String) : Round :=
  { answer := .response status body 0, now := 0, jittered := fun d => d, cancelled := none }

/-- Bad credentials with nothing more to say halt the loop. -/
theorem request_failure_halts_unauthorized :
    ∃ err, post ⟨"1", "secret"⟩ noRetries 0 [answered 401 "invalid token"] = some (some err) ∧
      err.Halts := by
  obtain ⟨err, hpost, hiff⟩ := request_failure_halts_iff ⟨"1", "secret"⟩ noRetries 0 [] []
    (answered 401 "invalid token") 401 "invalid token" 0 rfl rfl (by decide)
  exact ⟨err, hpost, hiff.mpr (by decide +kernel)⟩

/-- A batch with one sample, and a guard that passes all. -/
private def oneSample : Batch Nat :=
  { key := ⟨"portkey", "analytics", "otlp"⟩
    samples := [{ name := "cost", value := 3, timestamp := Time.unixEpoch + minute }]
    watermark := { time := Time.unixEpoch + 2 * minute } }

private def passingGuard : Guard :=
  { allow := fun _ => true, deny := fun _ => false, budget := 0, denyByLoop := fun _ => none,
    seen := fun _ => ∅, newLabelValues := [] }

/-- **A token that is too old loses the data**: the response is taken for one about an old sample,
and the batch is committed without it, with the loop not degraded. -/
theorem expired_token_skips_samples :
    let err : EmitError := .reject .tooOld 401 "the access token is too old"
    let env : Env Nat := { leaderAtStart := true, leaderAtCommit := true, epoch := 7
                           emit := fun _ => some err, save := fun _ => .ok, load := none }
    let after := processBatch { key := oneSample.key, maxDPM := 1 } passingGuard env oneSample
    IsRequestFailure 401 ∧
      post ⟨"1", "secret"⟩ noRetries 0 [answered 401 "the access token is too old"] =
        some (some err) ∧
      isAdvancePast err = true ∧ after.1.degraded = false ∧
      saves after.2.2 = [(oneSample.key, ⟨Time.unixEpoch + 2 * minute, "", 7⟩)] := by
  refine ⟨by decide, by decide +kernel, by decide, by decide +kernel, by decide +kernel⟩

end GenaiBridge
