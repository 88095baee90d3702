/-
`ProcessBatch` commits a contiguous prefix and loses nothing uncounted.

The loop over the buckets either passes all of them or stops at one, and what it
did before is `Passed`.  Because the buckets ascend, the position it then commits
has every passed bucket at or before it and every other bucket after it, so the
samples at or before the committed position are exactly the settled ones there.
-/
import GenaiBridge.Proofs.Accounting
import GenaiBridge.Proofs.Coalesce

namespace GenaiBridge

variable {V : Type}

/-! ### The guard -/

theorem sanitizeLoop_sublist (samples : List (Sample V)) :
    ∀ g : Guard, (g.sanitizeLoop samples).1.Sublist samples := by
  induction samples with
  | nil => intro g; exact List.Sublist.refl _
  | cons s rest ih =>
    intro g
    unfold Guard.sanitizeLoop
    dsimp only
    split
    · exact (ih _).cons_cons s
    · exact (ih _).cons s

theorem sanitizeLoop_length_add (samples : List (Sample V)) :
    ∀ g : Guard, (g.sanitizeLoop samples).1.length + (g.sanitizeLoop samples).2.1
      = samples.length := by
  induction samples with
  | nil => intro g; rfl
  | cons s rest ih =>
    intro g
    have hrest := ih (g.ok s).2
    unfold Guard.sanitizeLoop
    dsimp only
    split <;> simp only [List.length_cons] <;> omega

theorem sanitize_sublist (g : Guard) (b : Batch V) :
    (g.sanitize b).1.samples.Sublist b.samples := sanitizeLoop_sublist _ _

theorem sanitize_length_add (g : Guard) (b : Batch V) :
    (g.sanitize b).1.samples.length + (g.sanitize b).2.1 = b.samples.length :=
  sanitizeLoop_length_add _ _

/-! ### One bucket -/

/-- The two calls the guarding of a bucket makes. -/
private def guardCalls (loop : String) (g : Guard) (c : Batch V) : List (Call V) :=
  .sanitize c.samples (g.sanitize c).1.samples ::
    if 0 < (g.sanitize c).2.1 then [.metric loop (.guardDropped (g.sanitize c).2.1)] else []

private theorem counted_guardCalls (loop : String) (g : Guard) (c : Batch V) :
    counted (guardCalls loop g c) = (g.sanitize c).2.1 :=
  counted_cons_removed _ rfl loop .guardDropped (fun _ => rfl) _

private theorem emits_guardCalls (loop : String) (g : Guard) (c : Batch V) :
    emits (guardCalls loop g c) = [] := by
  unfold guardCalls
  split <;> rfl

private theorem saves_guardCalls (loop : String) (g : Guard) (c : Batch V) :
    saves (guardCalls loop g c) = [] := by
  unfold guardCalls
  split <;> rfl

section Loop

variable [DecidableEq V]

private theorem settled_guardCalls (loop : String) (g : Guard) (c : Batch V) :
    settled (guardCalls loop g c)
      = (c.samples : Multiset (Sample V)) - (g.sanitize c).1.samples := by
  unfold guardCalls
  split <;> simp [settled, Call.settled]

private theorem passed_guardCalls {loop : String} {g : Guard} {c : Batch V}
    {calls : List (Call V)} (hsettled : settled calls = ((g.sanitize c).1.samples : List (Sample V)))
    (hcounted : counted calls = (g.sanitize c).1.samples.length)
    (hemits : ∀ p ∈ emits calls, Accepted p.2 ∧ p.1 = (g.sanitize c).1)
    (hsaves : saves calls = []) : Passed [c] (guardCalls loop g c ++ calls) where
  settled := by
    rw [settled_append, settled_guardCalls, hsettled, sub_add_sublist (sanitize_sublist g c)]
    simp
  counted := by
    rw [counted_append, counted_guardCalls, hcounted]
    have := sanitize_length_add g c
    simp only [List.flatMap_cons, List.flatMap_nil, List.append_nil]
    omega
  emits := by
    intro p hp
    rw [emits_append, emits_guardCalls, List.nil_append] at hp
    obtain ⟨hok, hsub⟩ := hemits p hp
    refine ⟨hok, c, List.mem_singleton_self c, ?_, ?_⟩
    · rw [hsub]; rfl
    · rw [hsub]; exact sanitize_sublist g c
  saves := by rw [saves_append, saves_guardCalls, hsaves, List.nil_append]

private theorem stopped_guardCalls {loop : String} {g : Guard} {c : Batch V} {err : EmitError}
    {kind : String} (hne : (g.sanitize c).1.samples ≠ []) (herr : isAdvancePast err = false) :
    Stopped c (guardCalls loop g c ++
      [.emit (g.sanitize c).1 (some err), .metric loop (.emitError kind)]) where
  settled := by
    have : settled [Call.emit (g.sanitize c).1 (some err), .metric loop (.emitError kind)] = 0 := by
      simp [settled, Call.settled, herr]
    rw [settled_append, settled_guardCalls, this, add_zero]
    exact Multiset.sub_le_self _ _
  emits := by
    refine ⟨(g.sanitize c).1, err, ?_, herr, rfl, sanitize_sublist g c, hne⟩
    rw [emits_append, emits_guardCalls]
    rfl
  saves := by rw [saves_append, saves_guardCalls]; rfl

/-- **One bucket**: passed, or stopped at. -/
theorem processBucket_spec (loop : String) (emit : Batch V → Option EmitError) (g : Guard)
    (c : Batch V) :
    ((processBucket loop emit g c).2.2 = .advanced ∧
      Passed [c] (processBucket loop emit g c).2.1) ∨
    ((processBucket loop emit g c).2.2 ≠ .advanced ∧
      Stopped c (processBucket loop emit g c).2.1) := by
  unfold processBucket
  dsimp only
  by_cases hempty : (g.sanitize c).1.samples.isEmpty = true
  · rw [if_pos hempty]
    have hnil : (g.sanitize c).1.samples = [] := List.isEmpty_iff.mp hempty
    refine Or.inl ⟨rfl, ?_⟩
    have h : Passed [c] (guardCalls loop g c ++ []) := passed_guardCalls (by rw [hnil]; rfl)
      (by rw [hnil]; rfl) (by simp [emits]) rfl
    rwa [List.append_nil] at h
  · rw [if_neg hempty]
    have hne : (g.sanitize c).1.samples ≠ [] := fun h => hempty (List.isEmpty_iff.mpr h)
    cases hemit : emit (g.sanitize c).1 with
    | none =>
      refine Or.inl ⟨rfl, passed_guardCalls ?_ ?_ ?_ rfl⟩
      · simp [settled, Call.settled]
      · simp [counted, Call.counted]
      · simp [emits, Call.emitted?, Accepted]
    | some err =>
      by_cases hpast : isAdvancePast err = true
      · simp only [hpast, if_true]
        refine Or.inl ⟨trivial, passed_guardCalls ?_ ?_ ?_ rfl⟩
        · simp [settled, Call.settled, hpast]
        · simp [counted, Call.counted]
        · simp [emits, Call.emitted?, Accepted, hpast]
      · have hpast' : isAdvancePast err = false := by simpa using hpast
        simp only [hpast', Bool.false_eq_true, if_false]
        split
        · exact Or.inr ⟨by simp, stopped_guardCalls hne hpast'⟩
        · exact Or.inr ⟨by simp, stopped_guardCalls hne hpast'⟩

/-! ### All buckets -/

/-- The frontier after passing `passed`: the time of its last bucket. -/
def frontierAfter (frontier : Option Int) (passed : List (Batch V)) : Option Int :=
  (passed.getLast?.map bucketTime).or frontier

omit [DecidableEq V] in
theorem frontierAfter_cons (frontier : Option Int) (c : Batch V) (passed : List (Batch V)) :
    frontierAfter (some (bucketTime c)) passed = frontierAfter frontier (c :: passed) := by
  unfold frontierAfter
  cases passed with
  | nil => rfl
  | cons d rest =>
    rw [List.getLast?_cons_cons]
    cases hlast : (d :: rest).getLast? with
    | none => simp at hlast
    | some e => rfl

/-- **The loop over the buckets** passes all of them, or a prefix and stops at the next. -/
theorem processBuckets_spec (loop : String) (emit : Batch V → Option EmitError)
    (buckets : List (Batch V)) : ∀ (g : Guard) (frontier : Option Int),
    let r := processBuckets loop emit g frontier buckets
    (r.2.2.1 = .advanced ∧ Passed buckets r.2.1 ∧ r.2.2.2 = frontierAfter frontier buckets) ∨
    (r.2.2.1 ≠ .advanced ∧ ∃ pre failing post before last,
      buckets = pre ++ failing :: post ∧ r.2.1 = before ++ last ∧
      Passed pre before ∧ Stopped failing last ∧ r.2.2.2 = frontierAfter frontier pre) := by
  induction buckets with
  | nil => intro g frontier; exact Or.inl ⟨rfl, Passed.nil, rfl⟩
  | cons c rest ih =>
    intro g frontier
    unfold processBuckets
    rcases hstep : processBucket loop emit g c with ⟨g', calls, e⟩
    have hspec := processBucket_spec loop emit g c
    rw [hstep] at hspec
    rcases hspec with ⟨he, hpass⟩ | ⟨he, hstop⟩
    · obtain rfl : e = .advanced := he
      rcases ih g' (some (bucketTime c)) with ⟨hend, hrest, hfr⟩ |
        ⟨hend, pre, failing, post, before, last, hsplit, hcalls, hpre, hlast, hfr⟩
      · refine Or.inl ⟨hend, hpass.append hrest, ?_⟩
        rw [← frontierAfter_cons]
        exact hfr
      · refine Or.inr ⟨hend, c :: pre, failing, post, calls ++ before, last, ?_, ?_,
          hpass.append hpre, hlast, ?_⟩
        · rw [hsplit, List.cons_append]
        · rw [List.append_assoc, ← hcalls]
        · rw [← frontierAfter_cons]
          exact hfr
    · refine Or.inr ?_
      have hsplit : c :: rest = [] ++ c :: rest := rfl
      cases e with
      | advanced => exact absurd rfl he
      | terminal => exact ⟨by simp, [], c, rest, [], calls, hsplit, rfl, Passed.nil, hstop, rfl⟩
      | retryable => exact ⟨by simp, [], c, rest, [], calls, hsplit, rfl, Passed.nil, hstop, rfl⟩

end Loop

/-! ### The commit -/

/-- With a live leader context a commit is one `Save`, and what follows it touches no sample. -/
theorem commit_calls (r : LoopRunner) {env : Env V} (hlive : env.leaderAtCommit = true)
    (key : CheckpointKey) (t : Int) (cursor : String) :
    ∃ tail, Quiet tail ∧ (r.commit env key t cursor).2
      = .save key { time := t, cursor := cursor, epoch := env.epoch }
          (env.save { time := t, cursor := cursor, epoch := env.epoch }) :: tail := by
  unfold LoopRunner.commit
  simp only [hlive, Bool.not_true, Bool.false_eq_true, if_false]
  cases env.save { time := t, cursor := cursor, epoch := env.epoch } with
  | ok =>
    refine ⟨_, ?_, rfl⟩
    unfold LoopRunner.commitOK
    dsimp only
    split <;> split <;> simp [Quiet, LoopRunner.metric, Call.counted]
  | stale =>
    refine ⟨_, ?_, rfl⟩
    unfold LoopRunner.commitStale
    cases env.load with
    | none => simp [Quiet]
    | some stored =>
      dsimp only
      split <;> simp [Quiet, LoopRunner.metric, Call.counted]
  | failed landed =>
    refine ⟨_, ?_, rfl⟩
    unfold LoopRunner.commitFailed
    dsimp only
    split <;> simp [Quiet, LoopRunner.metric, Call.counted]

theorem enterDegraded_quiet (r : LoopRunner) (reason : String) :
    Quiet (r.enterDegraded (V := V) reason).2 := by
  unfold LoopRunner.enterDegraded
  split <;> simp [Quiet, LoopRunner.metric, Call.counted]

/-- The watermark committed when the loop stops after `pre`. -/
def interiorWatermark (epoch : Int64) (pre : List (Batch V)) : Option Watermark :=
  pre.getLast?.map fun c => { time := bucketTime c, cursor := "", epoch := epoch }

/-- Calls that save the watermark `w?`, if there is one, and touch no sample. -/
def Commits (key : CheckpointKey) (save : Watermark → SaveOutcome) (w? : Option Watermark)
    (calls : List (Call V)) : Prop :=
  ∃ tail, Quiet tail ∧
    calls = (w?.map fun w => Call.save key w (save w)).toList ++ tail

theorem Commits.append_quiet {key : CheckpointKey} {save : Watermark → SaveOutcome}
    {w? : Option Watermark} {calls more : List (Call V)} (h : Commits key save w? calls)
    (hmore : Quiet more) : Commits key save w? (calls ++ more) := by
  obtain ⟨tail, htail, rfl⟩ := h
  exact ⟨tail ++ more, htail.append hmore, by rw [List.append_assoc]⟩

theorem commit_commits (r : LoopRunner) {env : Env V} (hlive : env.leaderAtCommit = true)
    (key : CheckpointKey) (t : Int) (cursor : String) :
    Commits key env.save (some { time := t, cursor := cursor, epoch := env.epoch })
      (r.commit env key t cursor).2 := commit_calls r hlive key t cursor

theorem commitInterior_commits (r : LoopRunner) {env : Env V} (hlive : env.leaderAtCommit = true)
    (key : CheckpointKey) (pre : List (Batch V)) :
    Commits key env.save (interiorWatermark env.epoch pre)
      (commitInterior r env key (frontierAfter none pre)).2 := by
  unfold interiorWatermark frontierAfter commitInterior
  cases pre.getLast? with
  | none => exact ⟨[], Quiet.nil, rfl⟩
  | some c => exact commit_commits r hlive key (bucketTime c) ""

namespace Commits

variable {key : CheckpointKey} {save : Watermark → SaveOutcome} {w? : Option Watermark}
  {calls : List (Call V)}

theorem settled [DecidableEq V] (h : Commits key save w? calls) : GenaiBridge.settled calls = 0 := by
  obtain ⟨tail, htail, rfl⟩ := h
  rw [settled_append, htail.settled]
  cases w? <;> simp [GenaiBridge.settled, Call.settled]

theorem counted (h : Commits key save w? calls) : GenaiBridge.counted calls = 0 := by
  obtain ⟨tail, htail, rfl⟩ := h
  rw [counted_append, htail.counted]
  cases w? <;> simp [GenaiBridge.counted, Call.counted]

theorem emits (h : Commits key save w? calls) : GenaiBridge.emits calls = [] := by
  obtain ⟨tail, htail, rfl⟩ := h
  rw [emits_append, htail.emits]
  cases w? <;> rfl

theorem saves (h : Commits key save w? calls) :
    GenaiBridge.saves calls = (w?.map fun w => (key, w)).toList := by
  obtain ⟨tail, htail, rfl⟩ := h
  rw [saves_append, htail.saves]
  cases w? <;> rfl

end Commits

end GenaiBridge
