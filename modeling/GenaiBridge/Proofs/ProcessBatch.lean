/-
The whole of `ProcessBatch`, for a batch of samples.

`processSamples_spec` puts the parts together: the coalescer, the loop over the
buckets, the commit.  The theorem about the stored watermark follows from the order
of the buckets alone, so nothing here depends on which errors the emitter returns.
-/
import GenaiBridge.Proofs.Runner

namespace GenaiBridge

variable {V : Type} [DecidableEq V] [LT V] [DecidableLT V]

/-- The batch the loop over the buckets works on. -/
def coalesced (r : LoopRunner) (b : Batch V) : Batch V :=
  { b with samples := (coalesceDPM b.samples r.maxDPM).1 }

/-- The calls the coalescing makes. -/
def coalesceCalls (r : LoopRunner) (b : Batch V) : List (Call V) :=
  .coalesce b.samples (coalesced r b).samples ::
    if 0 < (coalesceDPM b.samples r.maxDPM).2 then
      [r.metric (.samplesCapped (coalesceDPM b.samples r.maxDPM).2)] else []

theorem settled_coalesceCalls (r : LoopRunner) (b : Batch V) :
    settled (coalesceCalls r b)
      = (b.samples : Multiset (Sample V)) - (coalesced r b).samples := by
  unfold coalesceCalls
  split <;> simp [settled, Call.settled, LoopRunner.metric]

omit [DecidableEq V] in
theorem counted_coalesceCalls (r : LoopRunner) (b : Batch V) :
    counted (coalesceCalls r b) = (coalesceDPM b.samples r.maxDPM).2 :=
  counted_cons_removed _ rfl r.name .samplesCapped (fun _ => rfl) _

omit [DecidableEq V] in
theorem emits_coalesceCalls (r : LoopRunner) (b : Batch V) : emits (coalesceCalls r b) = [] := by
  unfold coalesceCalls
  split <;> rfl

omit [DecidableEq V] in
theorem saves_coalesceCalls (r : LoopRunner) (b : Batch V) : saves (coalesceCalls r b) = [] := by
  unfold coalesceCalls
  split <;> rfl

/-- The watermark a batch carries, as it is saved. -/
def batchWatermark (epoch : Int64) (b : Batch V) : Watermark :=
  { time := b.watermark.time, cursor := b.watermark.cursor, epoch := epoch }

/-! ### The two ways a batch ends -/

/-- A run that passed every bucket and committed the batch's own watermark. -/
def Finished (r : LoopRunner) (env : Env V) (b : Batch V) (calls : List (Call V)) : Prop :=
  ∃ during committed, calls = coalesceCalls r b ++ during ++ committed ∧
    Passed (splitByBucket (coalesced r b)) during ∧
    Commits b.key env.save (some (batchWatermark env.epoch b)) committed

/-- A run that passed the buckets of `pre` and stopped at `failing`. -/
def Halted (r : LoopRunner) (env : Env V) (b : Batch V) (pre : List (Batch V)) (failing : Batch V)
    (calls : List (Call V)) : Prop :=
  ∃ during last committed, calls = coalesceCalls r b ++ (during ++ last) ++ committed ∧
    Passed pre during ∧ Stopped failing last ∧
    Commits b.key env.save (interiorWatermark env.epoch pre) committed

theorem processSamples_spec (r : LoopRunner) (g : Guard) {env : Env V} {b : Batch V}
    (hlive : env.leaderAtCommit = true) (hwm : b.watermark.time ≠ 0) :
    Finished r env b (processSamples r g env b).2.2 ∨
    ∃ pre failing post, splitByBucket (coalesced r b) = pre ++ failing :: post ∧
      Halted r env b pre failing (processSamples r g env b).2.2 := by
  have hspec := processBuckets_spec r.name env.emit (splitByBucket (coalesced r b)) g none
  unfold processSamples
  change _ ∨ _ at hspec
  rcases hrun : processBuckets r.name env.emit g none (splitByBucket (coalesced r b)) with
    ⟨g', during, e, frontier⟩
  rw [hrun] at hspec
  have hrun' := hrun
  unfold coalesced at hrun'
  simp only [hrun']
  rcases hspec with ⟨he, hpass, -⟩ |
    ⟨he, pre, failing, post, before, last, hsplit, hcalls, hpre, hlast, hfr⟩
  · obtain rfl : e = .advanced := he
    have hzero : Time.isZero b.watermark.time = false := by simpa [Time.isZero] using hwm
    simp only [hzero, Bool.not_false, Bool.or_true, Bool.true_or, if_true]
    exact Or.inl ⟨during, _, rfl, hpass, commit_commits r hlive _ _ _⟩
  · refine Or.inr ⟨pre, failing, post, hsplit, ?_⟩
    obtain rfl : during = before ++ last := hcalls
    obtain rfl : frontier = frontierAfter none pre := hfr
    have hcommit := commitInterior_commits r hlive b.key pre
    cases e with
    | advanced => exact absurd rfl he
    | terminal =>
      refine ⟨before, last, _, List.append_assoc _ _ _, hpre, hlast, ?_⟩
      exact hcommit.append_quiet (enterDegraded_quiet _ _)
    | retryable => exact ⟨before, last, _, rfl, hpre, hlast, hcommit⟩

omit [DecidableEq V] in
theorem processBatch_calls (r : LoopRunner) (g : Guard) {env : Env V} {b : Batch V}
    (hlogs : b.logs = []) (hstart : env.leaderAtStart = true) :
    (processBatch r g env b).2.2 = (processSamples r g env b).2.2 := by
  unfold processBatch
  simp [hstart, hlogs]

/-! ### What each ending accounts for -/

theorem coalesced_add (r : LoopRunner) (b : Batch V) :
    (b.samples : Multiset (Sample V)) - (coalesced r b).samples
      + ((splitByBucket (coalesced r b)).flatMap Batch.samples : List (Sample V)) = b.samples := by
  rw [Multiset.coe_eq_coe.mpr (splitByBucket_perm (coalesced r b))]
  exact sub_add_sublist (coalesceDPM_sublist b.samples r.maxDPM)

theorem Finished.settled {r : LoopRunner} {env : Env V} {b : Batch V} {calls : List (Call V)}
    (h : Finished r env b calls) : settled calls = b.samples := by
  obtain ⟨during, committed, rfl, hpass, hcommit⟩ := h
  rw [settled_append, settled_append, hcommit.settled, add_zero, settled_coalesceCalls,
    hpass.settled, coalesced_add]

theorem Finished.counted {r : LoopRunner} {env : Env V} {b : Batch V} {calls : List (Call V)}
    (h : Finished r env b calls) : counted calls = b.samples.length := by
  obtain ⟨during, committed, rfl, hpass, hcommit⟩ := h
  have hlen := coalesceDPM_length_add b.samples r.maxDPM
  rw [counted_append, counted_append, hcommit.counted, counted_coalesceCalls, hpass.counted,
    (splitByBucket_perm (coalesced r b)).length_eq]
  unfold coalesced
  dsimp only
  omega

theorem Finished.saves {r : LoopRunner} {env : Env V} {b : Batch V} {calls : List (Call V)}
    (h : Finished r env b calls) : saves calls = [(b.key, batchWatermark env.epoch b)] := by
  obtain ⟨during, committed, rfl, hpass, hcommit⟩ := h
  rw [saves_append, saves_append, saves_coalesceCalls, hpass.saves, hcommit.saves]
  rfl

theorem Finished.accepted {r : LoopRunner} {env : Env V} {b : Batch V} {calls : List (Call V)}
    (h : Finished r env b calls) : ∀ p ∈ emits calls, Accepted p.2 := by
  obtain ⟨during, committed, rfl, hpass, hcommit⟩ := h
  intro p hp
  rw [emits_append, emits_append, emits_coalesceCalls, hcommit.emits, List.nil_append,
    List.append_nil] at hp
  exact (hpass.emits p hp).1

theorem Halted.settled {r : LoopRunner} {env : Env V} {b : Batch V} {pre post : List (Batch V)}
    {failing c : Batch V} {calls : List (Call V)} (h : Halted r env b pre failing calls)
    (hok : BucketsOK (splitByBucket (coalesced r b)))
    (hsplit : splitByBucket (coalesced r b) = pre ++ failing :: post) (hc : c ∈ pre) :
    (b.samples : Multiset (Sample V)).filter (·.timestamp ≤ bucketTime c)
      = (settled calls).filter (·.timestamp ≤ bucketTime c) := by
  obtain ⟨during, last, committed, rfl, hpass, hstop, hcommit⟩ := h
  -- neither the bucket stopped at nor a later one has a sample this early
  have hlater : ((failing :: post).flatMap Batch.samples : Multiset (Sample V)).filter
      (·.timestamp ≤ bucketTime c) = 0 := by
    rw [Multiset.filter_eq_nil]
    intro s hs
    exact not_le.mpr (hok.lt_of_later hsplit hc hs)
  have hlast : (GenaiBridge.settled last).filter (·.timestamp ≤ bucketTime c) = 0 := by
    rw [Multiset.filter_eq_nil]
    intro s hs
    refine not_le.mpr (hok.lt_of_later hsplit hc ?_)
    exact List.mem_flatMap.mpr ⟨failing, by simp, Multiset.mem_of_le hstop.settled hs⟩
  have hall := congrArg (Multiset.filter (·.timestamp ≤ bucketTime c)) (coalesced_add r b)
  rw [hsplit, List.flatMap_append, ← Multiset.coe_add, Multiset.filter_add, Multiset.filter_add,
    hlater, add_zero] at hall
  rw [settled_append, settled_append, settled_append, hcommit.settled, settled_coalesceCalls,
    hpass.settled, Multiset.filter_add, Multiset.filter_add, Multiset.filter_add, hlast,
    Multiset.filter_zero, add_zero, add_zero, hall]

theorem Halted.saves {r : LoopRunner} {env : Env V} {b : Batch V} {pre : List (Batch V)}
    {failing : Batch V} {calls : List (Call V)} (h : Halted r env b pre failing calls) :
    saves calls = ((interiorWatermark env.epoch pre).map fun w => (b.key, w)).toList := by
  obtain ⟨during, last, committed, rfl, hpass, hstop, hcommit⟩ := h
  rw [saves_append, saves_append, saves_append, saves_coalesceCalls, hpass.saves, hstop.saves,
    hcommit.saves]
  rfl

theorem Halted.emits {r : LoopRunner} {env : Env V} {b : Batch V} {pre : List (Batch V)}
    {failing : Batch V} {calls : List (Call V)} (h : Halted r env b pre failing calls) :
    ∃ earlier sub err, emits calls = earlier ++ [(sub, some err)] ∧
      isAdvancePast err = false ∧ sub.samples.Sublist failing.samples ∧ sub.samples ≠ [] ∧
      ∀ p ∈ earlier, Accepted p.2 ∧ ∃ c ∈ pre, p.1.samples.Sublist c.samples := by
  obtain ⟨during, last, committed, rfl, hpass, hstop, hcommit⟩ := h
  obtain ⟨sub, err, hlast, herr, -, hsub, hne⟩ := hstop.emits
  refine ⟨GenaiBridge.emits during, sub, err, ?_, herr, hsub, hne, ?_⟩
  · rw [emits_append, emits_append, emits_append, emits_coalesceCalls, hlast, hcommit.emits,
      List.nil_append, List.append_nil]
  · intro p hp
    obtain ⟨hacc, c, hc, -, hsub'⟩ := hpass.emits p hp
    exact ⟨hacc, c, hc, hsub'⟩

/-! ### The contiguous prefix -/

/-- **`ProcessBatch` commits a contiguous prefix and loses nothing uncounted.**

With a live leader context and for whatever the emitter and the store answer:
a watermark that reaches the store has every sample at or before it settled (the two
sides count equal samples separately); if every `Emit` returned nil or a rejection to
advance past, the one watermark saved is the batch's and the four counters add up to
the batch; otherwise the loop stopped at a bucket, saved the time of the one before
it with no cursor (nothing if there is none), and emitted nothing of a later bucket. -/
theorem processBatch_prefix_settled (r : LoopRunner) (g : Guard) (env : Env V) (b : Batch V)
    (hlogs : b.logs = []) (hwm : b.watermark.time ≠ 0)
    (hrange : ∀ s ∈ b.samples, Time.InUnixNanoRange s.timestamp)
    (hstart : env.leaderAtStart = true) (hlive : env.leaderAtCommit = true) :
    let calls := (processBatch r g env b).2.2
    (∀ w outcome, Call.save b.key w outcome ∈ calls → outcome.landed = true →
      (b.samples : Multiset (Sample V)).filter (·.timestamp ≤ w.time)
        = (settled calls).filter (·.timestamp ≤ w.time)) ∧
    ((∀ p ∈ emits calls, Accepted p.2) →
      saves calls = [(b.key, ⟨b.watermark.time, b.watermark.cursor, env.epoch⟩)] ∧
      counted calls = b.samples.length) ∧
    ((∃ p ∈ emits calls, ¬Accepted p.2) →
      ∃ pre failing post earlier sub err,
        splitByBucket (coalesced r b) = pre ++ failing :: post ∧
        emits calls = earlier ++ [(sub, some err)] ∧
        (∀ p ∈ earlier, Accepted p.2 ∧ ∃ c ∈ pre, p.1.samples.Sublist c.samples) ∧
        isAdvancePast err = false ∧ sub.samples ≠ [] ∧ sub.samples.Sublist failing.samples ∧
        saves calls
          = (pre.getLast?.map fun c => (b.key, ⟨bucketTime c, "", env.epoch⟩)).toList) := by
  intro calls
  have hcalls : calls = (processSamples r g env b).2.2 := processBatch_calls r g hlogs hstart
  have hok : BucketsOK (splitByBucket (coalesced r b)) := splitByBucket_ok fun s hs =>
    hrange s ((coalesceDPM_sublist b.samples r.maxDPM).subset hs)
  have hspec := processSamples_spec r g hlive hwm
  rw [← hcalls] at hspec
  rcases hspec with hfin | ⟨pre, failing, post, hsplit, hhalt⟩
  · refine ⟨?_, ?_, ?_⟩
    · intro w outcome _ _
      rw [hfin.settled]
    · intro _
      exact ⟨hfin.saves, hfin.counted⟩
    · rintro ⟨p, hp, hbad⟩
      exact absurd (hfin.accepted p hp) hbad
  · obtain ⟨earlier, sub, err, hemits, herr, hsub, hne, hearlier⟩ := hhalt.emits
    refine ⟨?_, ?_, ?_⟩
    · intro w outcome hsave _
      have hmem := mem_saves hsave
      rw [hhalt.saves, interiorWatermark] at hmem
      cases hlast : pre.getLast? with
      | none => simp [hlast] at hmem
      | some c =>
        have hw : w.time = bucketTime c := by
          simp only [hlast, Option.map_some, Option.toList_some, List.mem_singleton,
            Prod.mk.injEq] at hmem
          rw [hmem.2]
        rw [hw]
        exact hhalt.settled hok hsplit (List.mem_of_getLast? hlast)
    · intro hacc
      have := hacc (sub, some err) (by rw [hemits]; simp) err rfl
      rw [herr] at this
      cases this
    · intro _
      refine ⟨pre, failing, post, earlier, sub, err, hsplit, hemits, hearlier, herr, hne, hsub, ?_⟩
      rw [hhalt.saves, interiorWatermark, Option.map_map]
      rfl

/-! Two minutes of one series, of which the emitter takes the first and cannot take the second. -/

private def costLoop : LoopRunner := { key := ⟨"portkey", "analytics", "otlp"⟩, maxDPM := 1 }

private def openGuard : Guard :=
  { allow := fun _ => true, deny := fun _ => false, budget := 0, denyByLoop := fun _ => none,
    seen := fun _ => ∅, newLabelValues := [] }

private def twoMinutes : Batch Nat :=
  { key := costLoop.key
    samples := [{ name := "cost", value := 3, timestamp := Time.unixEpoch + 2 * minute },
      { name := "cost", value := 5, timestamp := Time.unixEpoch + minute }]
    watermark := { time := Time.unixEpoch + 2 * minute } }

private def secondRefused : Env Nat :=
  { leaderAtStart := true, leaderAtCommit := true, epoch := 7
    emit := fun b =>
      if bucketTime b = Time.unixEpoch + minute then none else some (.retryable 503 "unavailable")
    save := fun _ => .ok, load := none }

theorem processBatch_second_minute_refused :
    let calls := (processBatch costLoop openGuard secondRefused twoMinutes).2.2
    Call.save costLoop.key ⟨Time.unixEpoch + minute, "", 7⟩ .ok ∈ calls ∧
    (twoMinutes.samples : Multiset (Sample Nat)).filter (·.timestamp ≤ Time.unixEpoch + minute)
      = (settled calls).filter (·.timestamp ≤ Time.unixEpoch + minute) := by
  have hsave : Call.save costLoop.key ⟨Time.unixEpoch + minute, "", 7⟩ .ok
      ∈ (processBatch costLoop openGuard secondRefused twoMinutes).2.2 := by decide +kernel
  have hrange : ∀ s ∈ twoMinutes.samples, Time.InUnixNanoRange s.timestamp := by
    simp [twoMinutes, Time.InUnixNanoRange, Time.unixEpoch, minute, minInt64, maxInt64]
  exact ⟨hsave, (processBatch_prefix_settled costLoop openGuard secondRefused twoMinutes rfl
    (by decide) hrange rfl rfl).1 _ _ hsave rfl⟩

end GenaiBridge
