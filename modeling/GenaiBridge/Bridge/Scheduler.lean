/-
The two goroutines of one loop: its ticker and its worker.

`Scheduler.Run` resets the runner, starts both and returns when both have returned; the
next leadership runs it again.  A step is what one goroutine does between two points where
the other can see it: a locked section, an end of a channel operation, a call.  Where a
`select` has two ready cases either may be taken, so a cancelled leader context does not
stop a tick, a send or a receive.
-/
import GenaiBridge.Bridge.Runner

namespace GenaiBridge

/-- A batch with the leadership in which `Collect` returned it, numbered by the events before. -/
structure CollectedBatch (V : Type) where
  leadership : Nat
  number : Nat
  batch : Batch V

/-- Where the ticker stands in `tickLoop` and `runOnce`. -/
inductive Ticker (V : Type)
  /-- Before the first tick, or at the `select` of `tickLoop`. -/
  | waiting
  /-- `Busy` was false. -/
  | free
  /-- Inside `Collect`, called with this watermark. -/
  | collecting (since : Watermark)
  /-- Inside `Enqueue`, before the busy flag is set. -/
  | enqueuing (b : CollectedBatch V)
  /-- At the `select` of `Enqueue`. -/
  | sending (b : CollectedBatch V)
  /-- `Enqueue` saw the cancellation; the busy flag is still set. -/
  | refused
  | returned

/-- Where the worker stands in `LoopRunner.Run`. -/
inductive Worker (V : Type)
  /-- At its `select`. -/
  | waiting
  /-- Has a batch, before the cancellation re-check. -/
  | dequeued (b : CollectedBatch V)
  /-- Inside `ProcessBatch`. -/
  | processing (b : CollectedBatch V)
  /-- At the deferred clearing of the busy flag. -/
  | finishing (b : CollectedBatch V)
  | returned

/-- The batch the worker has taken from the queue and not finished with. -/
def Worker.holds {V : Type} : Worker V → List (CollectedBatch V)
  | .dequeued b | .processing b | .finishing b => [b]
  | .waiting | .returned => []

/-- What is recorded of the past of a loop, with the leadership in which it happened. -/
inductive FlightEvent (V : Type)
  /-- `Enqueue` put the batch into the queue. -/
  | enqueued (leadership : Nat) (b : CollectedBatch V)
  /-- `ProcessBatch` ran, with the calls it made. -/
  | processed (leadership : Nat) (b : CollectedBatch V) (calls : List (Call V))

/-- A loop of the scheduler: its runner, its queue and its two goroutines. -/
structure Flight (V : Type) where
  /-- How many times `Scheduler.Run` was entered. -/
  leadership : Nat
  /-- `leaderCtx.Err() != nil`. -/
  cancelled : Bool
  runner : LoopRunner
  queue : List (CollectedBatch V)
  /-- `cap(r.q)`. -/
  depth : Nat
  ticker : Ticker V
  worker : Worker V
  /-- The events so far, the latest first. -/
  history : List (FlightEvent V)

namespace Flight

variable {V : Type}

/-- A loop before the first leadership, as `NewLoopRunner` makes its runner and queue. -/
def new (key : CheckpointKey) (queueDepth maxDPM : Int) : Flight V where
  leadership := 0
  cancelled := true
  runner := .new key maxDPM
  queue := []
  depth := (if queueDepth < 1 then 1 else queueDepth).toNat
  ticker := .returned
  worker := .returned
  history := []

/-- `runner.busy = b`, under the lock. -/
def setBusy (s : Flight V) (b : Bool) : Flight V := { s with runner := { s.runner with busy := b } }

/-- The state after `Scheduler.Run` has called `Reset` and started the goroutines. -/
def start (s : Flight V) : Flight V :=
  { s with
    leadership := s.leadership + 1
    cancelled := false
    runner := (s.runner.reset (V := V)).1
    queue := []
    ticker := .waiting
    worker := .waiting }

/-- What `Collect` returned, as a batch of the current leadership. -/
def collected (s : Flight V) (b : Batch V) : CollectedBatch V := ⟨s.leadership, s.history.length, b⟩

/-- The state after the send of `Enqueue`. -/
def send (s : Flight V) (b : CollectedBatch V) : Flight V :=
  { s with
    queue := s.queue ++ [b]
    ticker := .waiting
    history := .enqueued s.leadership b :: s.history }

/-- The state after `ProcessBatch` but for its deferred function. -/
def process [LT V] [DecidableLT V] (s : Flight V) (g : Guard) (env : Env V)
    (b : CollectedBatch V) : Flight V :=
  let (r, _, calls) := processBatch s.runner g env b.batch
  { s with
    runner := { r with busy := s.runner.busy }
    worker := .finishing b
    history := .processed s.leadership b calls :: s.history }

/-- One step of the loop.  What the store, the source and the emitter answer is free, and so is
the guard, which other loops share. -/
inductive Step [LT V] [DecidableLT V] : Flight V → Flight V → Prop
  /-- The next leadership.  The previous `Run` has returned: it waits for both goroutines. -/
  | start {s : Flight V} (ht : s.ticker = .returned) (hw : s.worker = .returned) : Step s s.start
  | cancel {s : Flight V} : Step s { s with cancelled := true }
  -- the ticker; a tick that finds the loop busy changes nothing
  | tickerDone {s : Flight V} (ht : s.ticker = .waiting) (hc : s.cancelled = true) :
      Step s { s with ticker := .returned }
  | tick {s : Flight V} (ht : s.ticker = .waiting) (hb : s.runner.busy = false) :
      Step s { s with ticker := .free }
  | sinceFailed {s : Flight V} (ht : s.ticker = .free) : Step s { s with ticker := .waiting }
  | since {s : Flight V} {wm : Watermark} (load : Option Watermark) (ht : s.ticker = .free)
      (hsince : s.runner.since load = some wm) : Step s { s with ticker := .collecting wm }
  | collectFailed {s : Flight V} {wm : Watermark} (ht : s.ticker = .collecting wm) :
      Step s { s with ticker := .waiting }
  | collectDegraded {s : Flight V} {wm : Watermark} (ht : s.ticker = .collecting wm) :
      Step s { s with
        runner := (s.runner.enterDegraded (V := V) "granularity_unexpected").1
        ticker := .waiting }
  | collect {s : Flight V} {wm : Watermark} (b : Batch V) (ht : s.ticker = .collecting wm) :
      Step s { s with ticker := .enqueuing (s.collected b) }
  | enqueue {s : Flight V} {b : CollectedBatch V} (ht : s.ticker = .enqueuing b) :
      Step s { s.setBusy true with ticker := .sending b }
  | send {s : Flight V} {b : CollectedBatch V} (ht : s.ticker = .sending b)
      (hroom : s.queue.length < s.depth) : Step s (s.send b)
  | refuse {s : Flight V} {b : CollectedBatch V} (ht : s.ticker = .sending b)
      (hc : s.cancelled = true) : Step s { s with ticker := .refused }
  | unmark {s : Flight V} (ht : s.ticker = .refused) :
      Step s { s.setBusy false with ticker := .waiting }
  -- the worker
  | workerDone {s : Flight V} (hw : s.worker = .waiting) (hc : s.cancelled = true) :
      Step s { s with worker := .returned }
  | dequeue {s : Flight V} {b : CollectedBatch V} {rest : List (CollectedBatch V)}
      (hw : s.worker = .waiting) (hq : s.queue = b :: rest) :
      Step s { s with queue := rest, worker := .dequeued b }
  /-- The re-check: the batch is dropped, and the busy flag stays set. -/
  | drop {s : Flight V} {b : CollectedBatch V} (hw : s.worker = .dequeued b)
      (hc : s.cancelled = true) : Step s { s with worker := .returned }
  | begin {s : Flight V} {b : CollectedBatch V} (hw : s.worker = .dequeued b)
      (hc : s.cancelled = false) : Step s { s with worker := .processing b }
  | process {s : Flight V} {b : CollectedBatch V} (g : Guard) (env : Env V)
      (hw : s.worker = .processing b) : Step s (s.process g env b)
  | finish {s : Flight V} {b : CollectedBatch V} (hw : s.worker = .finishing b) :
      Step s { s.setBusy false with worker := .waiting }

end Flight

end GenaiBridge
