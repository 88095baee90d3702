/-
One batch at a time.

The busy flag is what the ticker and the worker agree by.  It is set before a batch is
queued and cleared when the batch is finished with, by another goroutine than the one that
set it, and a batch dropped at the end of a leadership leaves it set.  The invariant ties it
to the batches that are still open: while one is, the flag is set and the ticker has not
passed its check.
-/
import GenaiBridge.Bridge.Scheduler
import Mathlib.Logic.Relation

namespace GenaiBridge

variable {V : Type}

/-- The ticker has found the loop free and not yet queued a batch. -/
def Ticker.Engaged : Ticker V → Prop
  | .waiting | .returned => False
  | .free | .collecting _ | .enqueuing _ | .sending _ | .refused => True

/-- The batch the ticker has collected and not yet queued. -/
def Ticker.holds : Ticker V → List (CollectedBatch V)
  | .enqueuing b | .sending b => [b]
  | .waiting | .free | .collecting _ | .refused | .returned => []

namespace Flight

/-! ### Batches that are still open -/

/-- The batch was queued in this leadership and has not been processed. -/
def Unprocessed (s : Flight V) (b : CollectedBatch V) : Prop :=
  .enqueued s.leadership b ∈ s.history ∧ ∀ calls, .processed s.leadership b calls ∉ s.history

/-- A batch is queued, in the hands of the worker, or has been left by it. -/
def Occupied (s : Flight V) : Prop :=
  s.queue ≠ [] ∨ s.worker.holds ≠ [] ∨ ∃ b, s.Unprocessed b

/-- The invariant of a loop. -/
structure Single (s : Flight V) : Prop where
  /-- There is room for a batch. -/
  depth : 0 < s.depth
  /-- At most one batch is queued or in the hands of the worker. -/
  one : s.queue.length + s.worker.holds.length ≤ 1
  /-- The busy flag covers the open batches, -/
  busy : s.Occupied → s.runner.busy = true
  /-- which there are none of once the ticker has passed its check. -/
  free : s.ticker.Engaged → ¬ s.Occupied
  /-- The flag is set before the batch is sent. -/
  marked : ∀ b, s.ticker = .sending b → s.runner.busy = true
  /-- An unprocessed batch is where it can be seen, unless the worker has left it. -/
  seen : ∀ b, s.Unprocessed b → b ∈ s.queue ∨ b ∈ s.worker.holds ∨ s.worker = .returned
  /-- The worker clears the flag for a batch that is processed. -/
  finishing : ∀ b, s.worker = .finishing b → ∃ calls, .processed s.leadership b calls ∈ s.history
  /-- The batches at hand are of this leadership. -/
  queued : ∀ b ∈ s.queue, b.leadership = s.leadership
  held : ∀ b ∈ s.worker.holds, b.leadership = s.leadership
  collected : ∀ b ∈ s.ticker.holds, b.leadership = s.leadership
  /-- So were those of the past, each of its own. -/
  enqueued : ∀ n b, .enqueued n b ∈ s.history → n ≤ s.leadership
  processed : ∀ n b calls, .processed n b calls ∈ s.history → b.leadership = n
  /-- `Collect` runs with what `Since` yields of the runner as it is. -/
  since : ∀ wm, s.ticker = .collecting wm → ∃ load, s.runner.since load = some wm

theorem single_new (key : CheckpointKey) (queueDepth maxDPM : Int) :
    (Flight.new (V := V) key queueDepth maxDPM).Single where
  depth := by
    simp only [Flight.new]
    split <;> omega
  one := by simp [Flight.new, Worker.holds]
  busy := by simp [Flight.new, Occupied, Worker.holds, Unprocessed]
  free := fun h => h.elim
  marked := by simp [Flight.new]
  seen := by simp [Flight.new, Unprocessed]
  finishing := by simp [Flight.new]
  queued := by simp [Flight.new]
  held := by simp [Flight.new, Worker.holds]
  collected := by simp [Flight.new, Ticker.holds]
  enqueued := by simp [Flight.new]
  processed := by simp [Flight.new]
  since := by simp [Flight.new]

/-! ### The ticker -/

/-- A loop with nothing open stays so when the ticker moves on or changes the busy flag. -/
private theorem Single.moveTicker {s : Flight V} (hs : s.Single) (hfree : ¬ s.Occupied)
    {r : LoopRunner} {t : Ticker V} (hmarked : ∀ b, t = .sending b → r.busy = true)
    (hcollected : ∀ b ∈ t.holds, b.leadership = s.leadership)
    (hsince : ∀ wm, t = .collecting wm → ∃ load, r.since load = some wm) :
    Single { s with runner := r, ticker := t } :=
  { hs with
    busy := fun h => absurd h hfree
    free := fun _ => hfree
    marked := hmarked
    collected := hcollected
    since := hsince }

/-- The send: the queue was empty. -/
private theorem Single.send {s : Flight V} (hs : s.Single) {b : CollectedBatch V}
    (ht : s.ticker = .sending b) : (s.send b).Single := by
  have hfree : ¬ s.Occupied := hs.free (ht ▸ trivial)
  have hqueue : s.queue = [] := by
    by_contra h
    exact hfree (Or.inl h)
  have hheld : s.worker.holds = [] := by
    by_contra h
    exact hfree (Or.inr (Or.inl h))
  have hcollected : b.leadership = s.leadership := hs.collected b (by simp [ht, Ticker.holds])
  exact {
    depth := hs.depth
    one := by simp [Flight.send, hqueue, hheld]
    busy := fun _ => hs.marked b ht
    free := fun h => h.elim
    marked := fun _ h => by cases h
    seen := by
      rintro c ⟨hc, hopen⟩
      rcases List.mem_cons.mp hc with heq | hc
      · cases heq
        exact Or.inl (by simp [Flight.send])
      · have hopen' : s.Unprocessed c := ⟨hc, fun calls h => hopen calls (List.mem_cons_of_mem _ h)⟩
        exact absurd (Or.inr (Or.inr ⟨c, hopen'⟩)) hfree
    finishing := fun c h => by
      have hnone := h ▸ hheld
      cases hnone
    queued := by
      intro c hc
      simp only [Flight.send, hqueue, List.nil_append, List.mem_singleton] at hc
      exact hc ▸ hcollected
    held := hs.held
    collected := fun _ h => by cases h
    enqueued := by
      intro n c hc
      rcases List.mem_cons.mp hc with heq | hc
      · cases heq
        exact le_refl _
      · exact hs.enqueued n c hc
    processed := by
      intro n c calls hc
      rcases List.mem_cons.mp hc with heq | hc
      · cases heq
      · exact hs.processed n c calls hc
    since := fun _ h => by cases h }

/-! ### The worker -/

/-- A worker that takes on no batch opens none. -/
private theorem occupied_of_worker {s : Flight V} {w : Worker V}
    (hholds : w.holds ≠ [] → s.worker.holds ≠ []) (h : Occupied { s with worker := w }) :
    s.Occupied := by
  rcases h with h | h | ⟨b, hb⟩
  · exact Or.inl h
  · exact Or.inr (Or.inl (hholds h))
  · exact Or.inr (Or.inr ⟨b, hb⟩)

/-- A worker that goes on from the re-check with its batch. -/
private theorem Single.begin {s : Flight V} (hs : s.Single) {b : CollectedBatch V}
    (hw : s.worker = .dequeued b) : Single { s with worker := .processing b } := by
  have hholds : s.worker.holds = [b] := by rw [hw]; rfl
  have hless : Occupied { s with worker := .processing b } → s.Occupied :=
    occupied_of_worker (fun _ => by simp [hholds])
  exact { hs with
    one := by
      have hone := hs.one
      rwa [hholds] at hone
    busy := fun h => hs.busy (hless h)
    free := fun ht h => hs.free ht (hless h)
    seen := by
      intro c hc
      have hseen := hs.seen c hc
      rw [hholds] at hseen
      exact hseen.imp_right fun h => Or.inl (h.resolve_right (by simp [hw]))
    finishing := fun _ h => by cases h
    held := by
      have hheld := hs.held
      rwa [hholds] at hheld }

/-- A worker that returns, with or without a batch in its hands: the flag stays set for it. -/
private theorem Single.returnWorker {s : Flight V} (hs : s.Single) :
    Single { s with worker := .returned } := by
  have hless : Occupied { s with worker := .returned } → s.Occupied :=
    occupied_of_worker (fun h => absurd rfl h)
  exact { hs with
    one := (Nat.le_add_right _ _).trans hs.one
    busy := fun h => hs.busy (hless h)
    free := fun ht h => hs.free ht (hless h)
    seen := fun _ _ => Or.inr (Or.inr rfl)
    finishing := fun _ h => by cases h
    held := fun _ h => by cases h }

/-- The receive: the batch passes from the queue into the hands of the worker. -/
private theorem Single.dequeue {s : Flight V} (hs : s.Single) {b : CollectedBatch V}
    {rest : List (CollectedBatch V)} (hw : s.worker = .waiting) (hq : s.queue = b :: rest) :
    Single { s with queue := rest, worker := .dequeued b } := by
  have hoccupied : s.Occupied := Or.inl (by simp [hq])
  have hrest : rest = [] := by
    have hone := hs.one
    rw [hq, List.length_cons] at hone
    exact List.length_eq_zero_iff.mp (by omega)
  exact { hs with
    one := by simp [hrest, Worker.holds]
    busy := fun _ => hs.busy hoccupied
    free := fun ht _ => hs.free ht hoccupied
    seen := by
      intro c hc
      rcases hs.seen c hc with h | h | h
      · rw [hq] at h
        rcases List.mem_cons.mp h with rfl | h
        · exact Or.inr (Or.inl (List.mem_singleton.mpr rfl))
        · exact Or.inl h
      · rw [hw] at h
        cases h
      · rw [hw] at h
        cases h
    finishing := fun _ h => by cases h
    queued := fun c hc => hs.queued c (hq ▸ List.mem_cons_of_mem _ hc)
    held := by
      intro c hc
      rw [List.mem_singleton.mp hc]
      exact hs.queued b (by simp [hq]) }

/-- `ProcessBatch` up to its deferred function. -/
private theorem Single.process [LT V] [DecidableLT V] {s : Flight V} (hs : s.Single)
    {b : CollectedBatch V} (hw : s.worker = .processing b) (g : Guard) (env : Env V) :
    (s.process g env b).Single := by
  have hholds : s.worker.holds = [b] := by rw [hw]; rfl
  have hoccupied : s.Occupied := Or.inr (Or.inl (by simp [hholds]))
  have hidle : ¬ s.ticker.Engaged := fun ht => hs.free ht hoccupied
  have hmem : ∀ {c : CollectedBatch V}, (s.process g env b).Unprocessed c → s.Unprocessed c := by
    rintro c ⟨hc, hopen⟩
    rcases List.mem_cons.mp hc with heq | hc
    · cases heq
    · exact ⟨hc, fun calls h => hopen calls (List.mem_cons_of_mem _ h)⟩
  exact {
    depth := hs.depth
    one := by
      have hone := hs.one
      rwa [hholds] at hone
    busy := fun _ => hs.busy hoccupied
    free := fun ht => absurd ht hidle
    marked := hs.marked
    seen := by
      intro c hc
      have hseen := hs.seen c (hmem hc)
      rw [hholds] at hseen
      exact hseen.imp_right fun h => Or.inl (h.resolve_right (by simp [hw]))
    finishing := by
      intro c hc
      cases hc
      exact ⟨_, List.mem_cons_self⟩
    queued := hs.queued
    held := by
      have hheld := hs.held
      rwa [hholds] at hheld
    collected := hs.collected
    enqueued := by
      intro n c hc
      rcases List.mem_cons.mp hc with heq | hc
      · cases heq
      · exact hs.enqueued n c hc
    processed := by
      intro n c calls hc
      rcases List.mem_cons.mp hc with heq | hc
      · cases heq
        exact hs.held b (by simp [hholds])
      · exact hs.processed n c calls hc
    since := fun wm h => by
      have ht : s.ticker = .collecting wm := h
      exact absurd (ht ▸ trivial) hidle }

/-- The deferred clearing of the flag: no batch is open any more. -/
private theorem Single.finish {s : Flight V} (hs : s.Single) {b : CollectedBatch V}
    (hw : s.worker = .finishing b) : Single { s.setBusy false with worker := .waiting } := by
  have hholds : s.worker.holds = [b] := by rw [hw]; rfl
  have hqueue : s.queue = [] := by
    have hone := hs.one
    rw [hholds, List.length_singleton] at hone
    exact List.length_eq_zero_iff.mp (by omega)
  have hidle : ¬ s.ticker.Engaged := fun ht => hs.free ht (Or.inr (Or.inl (by simp [hholds])))
  have hnone : ∀ c, ¬ s.Unprocessed c := by
    intro c hc
    rcases hs.seen c hc with h | h | h
    · rw [hqueue] at h
      cases h
    · rw [hholds, List.mem_singleton] at h
      obtain ⟨calls, hcalls⟩ := hs.finishing b hw
      exact hc.2 calls (h ▸ hcalls)
    · rw [hw] at h
      cases h
  have hfree : ¬ Occupied { s.setBusy false with worker := .waiting } := by
    rintro (h | h | ⟨c, hc⟩)
    · exact h hqueue
    · exact h rfl
    · exact hnone c hc
  exact { hs with
    one := by simp [Flight.setBusy, hqueue, Worker.holds]
    busy := fun h => absurd h hfree
    free := fun _ => hfree
    marked := fun c h => by
      have ht : s.ticker = .sending c := h
      exact absurd (ht ▸ trivial) hidle
    seen := fun c hc => absurd hc (hnone c)
    finishing := fun _ h => by cases h
    held := fun _ h => by cases h
    since := hs.since }

/-! ### Whole runs -/

/-- A new leadership starts with nothing open: what was queued is drained. -/
private theorem Single.start {s : Flight V} (hs : s.Single) : s.start.Single := by
  have hnone : ∀ b, ¬ s.start.Unprocessed b := by
    rintro b ⟨hb, -⟩
    have hle := hs.enqueued _ _ hb
    simp only [Flight.start] at hle
    omega
  have hfree : ¬ s.start.Occupied := by
    rintro (h | h | ⟨b, hb⟩)
    · exact h rfl
    · exact h rfl
    · exact hnone b hb
  exact {
    depth := hs.depth
    one := Nat.zero_le _
    busy := fun h => absurd h hfree
    free := fun _ => hfree
    marked := fun _ h => by cases h
    seen := fun b hb => absurd hb (hnone b)
    finishing := fun _ h => by cases h
    queued := fun _ h => by cases h
    held := fun _ h => by cases h
    collected := fun _ h => by cases h
    enqueued := fun n b hb => (hs.enqueued n b hb).trans (Nat.le_succ _)
    processed := hs.processed
    since := fun _ h => by cases h }

variable [LT V] [DecidableLT V]

theorem Single.step {s s' : Flight V} (hs : s.Single) (h : Step s s') : s'.Single := by
  cases h with
  | start => exact hs.start
  | cancel => exact { hs with }
  | tickerDone =>
    exact { hs with
      free := fun h => h.elim
      marked := fun _ h => by cases h
      collected := fun _ h => by cases h
      since := fun _ h => by cases h }
  | tick ht hb =>
    have hfree : ¬ s.Occupied := fun h => by simp [hs.busy h] at hb
    exact hs.moveTicker hfree (fun _ h => by cases h) (fun _ h => by cases h)
      (fun _ h => by cases h)
  | since load ht hsince =>
    refine hs.moveTicker (hs.free (ht ▸ trivial)) (fun _ h => by cases h)
      (fun _ h => by cases h) ?_
    rintro wm ⟨⟩
    exact ⟨load, hsince⟩
  | sinceFailed ht | collectFailed ht | collectDegraded ht | refuse ht | unmark ht =>
    exact hs.moveTicker (hs.free (ht ▸ trivial)) (fun _ h => by cases h)
      (fun _ h => by cases h) (fun _ h => by cases h)
  | collect b ht =>
    refine hs.moveTicker (hs.free (ht ▸ trivial)) (fun _ h => by cases h) ?_
      (fun _ h => by cases h)
    intro c hc
    rw [List.mem_singleton.mp hc]
    rfl
  | enqueue ht =>
    refine hs.moveTicker (hs.free (ht ▸ trivial)) (fun _ _ => rfl) ?_ (fun _ h => by cases h)
    intro c hc
    exact hs.collected c (ht ▸ hc)
  | send ht => exact hs.send ht
  | workerDone | drop => exact hs.returnWorker
  | dequeue hw hq => exact hs.dequeue hw hq
  | begin hw => exact hs.begin hw
  | process g env hw => exact hs.process hw g env
  | finish hw => exact hs.finish hw

theorem Single.run {s s' : Flight V} (hs : s.Single) (h : Relation.ReflTransGen Step s s') :
    s'.Single := by
  induction h with
  | refl => exact hs
  | tail _ hstep ih => exact ih.step hstep

/-- **Single flight across leaderships.**  In every state a loop can get to, one batch at most
is queued or in the hands of the worker; while `Collect` runs, every batch queued in this
leadership has been processed, and its watermark is what `Since` yields of the runner as that
left it; a batch about to be sent finds the queue empty; and a batch is only ever processed in
the leadership it was collected in. -/
theorem single_flight (key : CheckpointKey) (queueDepth maxDPM : Int) {s : Flight V}
    (hrun : Relation.ReflTransGen Step (Flight.new key queueDepth maxDPM) s) :
    s.queue.length + s.worker.holds.length ≤ 1 ∧
    (∀ wm, s.ticker = .collecting wm →
      (s.queue = [] ∧ s.worker.holds = []) ∧
      (∀ b, .enqueued s.leadership b ∈ s.history →
        ∃ calls, .processed s.leadership b calls ∈ s.history) ∧
      ∃ load, s.runner.since load = some wm) ∧
    (∀ b, s.ticker = .sending b → s.queue = [] ∧ s.queue.length < s.depth) ∧
    (∀ b, s.worker = .processing b → b.leadership = s.leadership) ∧
    ∀ n b calls, .processed n b calls ∈ s.history → b.leadership = n := by
  have hs : s.Single := (single_new key queueDepth maxDPM).run hrun
  have hempty : s.ticker.Engaged → s.queue = [] := by
    intro ht
    by_contra h
    exact hs.free ht (Or.inl h)
  refine ⟨hs.one, ?_, ?_, ?_, hs.processed⟩
  · intro wm ht
    have hengaged : s.ticker.Engaged := ht ▸ trivial
    have hheld : s.worker.holds = [] := by
      by_contra h
      exact hs.free hengaged (Or.inr (Or.inl h))
    refine ⟨⟨hempty hengaged, hheld⟩, ?_, hs.since wm ht⟩
    intro b hb
    by_contra hopen
    exact hs.free hengaged (Or.inr (Or.inr ⟨b, hb, fun calls h => hopen ⟨calls, h⟩⟩))
  · intro b ht
    have hqueue := hempty (ht ▸ trivial)
    exact ⟨hqueue, by simpa [hqueue] using hs.depth⟩
  · intro b hw
    exact hs.held b (by simp [hw, Worker.holds])

/-- A batch is queued as the leadership ends, and left there.  The next leadership drains it,
and when its own first batch has been processed it collects again. -/
theorem single_flight_second_leadership :
    ∃ (s : Flight Nat) (wm : Watermark) (left own : CollectedBatch Nat),
      Relation.ReflTransGen Step (Flight.new ⟨"portkey", "analytics", "f"⟩ 0 1) s ∧
      (s.ticker = .collecting wm ∧ s.leadership = 2 ∧ left.leadership = 1) ∧
      (.enqueued 1 left ∈ s.history ∧ .enqueued 2 own ∈ s.history) ∧
      (∃ calls, .processed 2 own calls ∈ s.history) ∧
      ∀ calls, .processed 2 left calls ∉ s.history := by
  let b : Batch Nat := { key := ⟨"portkey", "analytics", "f"⟩, watermark := { time := 5 } }
  let g : Guard := newGuard ⟨[], [], .empty, 0⟩
  let env : Env Nat := ⟨true, true, 1, fun _ => none, fun _ => .ok, none⟩
  have hfirst : Relation.ReflTransGen Step (Flight.new (V := Nat) b.key 0 1) _ :=
    Relation.ReflTransGen.refl |>.tail (.start rfl rfl) |>.tail (.tick rfl rfl)
      |>.tail (.since (some {}) rfl rfl) |>.tail (.collect b rfl) |>.tail (.enqueue rfl)
      |>.tail .cancel |>.tail (.send rfl (by decide)) |>.tail (.tickerDone rfl rfl)
      |>.tail (.workerDone rfl rfl)
  have hsecond := hfirst |>.tail (.start rfl rfl) |>.tail (.tick rfl rfl)
    |>.tail (.since (some {}) rfl rfl) |>.tail (.collect b rfl) |>.tail (.enqueue rfl)
    |>.tail (.send rfl (by decide)) |>.tail (.dequeue rfl rfl) |>.tail (.begin rfl rfl)
    |>.tail (.process g env rfl) |>.tail (.finish rfl) |>.tail (.tick rfl rfl)
    |>.tail (.since none rfl rfl)
  obtain ⟨-, hcollect, -, -, hprocessed⟩ := single_flight _ _ _ hsecond
  refine ⟨_, _, ⟨1, 0, b⟩, ⟨2, 1, b⟩, hsecond, ⟨rfl, rfl, rfl⟩, ⟨?_, ?_⟩, ?_, ?_⟩
  · exact List.mem_cons_of_mem _ (List.mem_cons_of_mem _ List.mem_cons_self)
  · exact List.mem_cons_of_mem _ List.mem_cons_self
  · exact (hcollect _ rfl).2.1 _ (List.mem_cons_of_mem _ List.mem_cons_self)
  · intro calls hcalls
    cases hprocessed _ _ _ hcalls

end Flight

end GenaiBridge
