/-
One tick of a loop.

`runOnce` gives up where a batch is still in flight or the checkpoint cannot be read.
Otherwise it says how far the loop is behind, counts what has become too old to store,
and collects: a batch goes to the runner, an error is sorted by what it is.  Whether a
batch is in flight, and what `Load` and `Collect` answer, is what a tick is given.
-/
import GenaiBridge.Bridge.Analytics
import GenaiBridge.Bridge.Backfill
import GenaiBridge.Bridge.Runner

namespace GenaiBridge

variable {V : Type}

/-- How `runOnce` sorts an error of `Collect`. -/
inductive CollectFailure
  /-- `source.ErrQuotaExceeded`. -/
  | quotaExceeded
  /-- `source.ErrGranularityUnexpected`. -/
  | granularityUnexpected
  | other
deriving DecidableEq, Repr

/-- A call of the scheduler's own metrics. -/
inductive TickMetric
  | windowLag (lag : Int)
  | samplesSkipped (reason : String) (n : Int)
  | emitError (kind : String)
deriving DecidableEq, Repr

/-- What a tick leaves behind. -/
structure Ticked (V : Type) where
  runner : LoopRunner
  count : BackfillCount
  metrics : List TickMetric
  /-- What `Degrade` reports. -/
  calls : List (Call V) := []
  /-- The batch handed to the runner. -/
  enqueued : Option (Batch V) := none
  more : Bool := false

/-- `runOnce`. -/
def runOnce (sp : BackfillSpec) (r : LoopRunner) (count : BackfillCount) (now : Int) (busy : Bool)
    (load : Option Watermark) (collect : Watermark → Except CollectFailure (Batch V)) :
    Ticked V :=
  if busy then { runner := r, count, metrics := [], more := 0 < sp.window }
  else
    match r.since load with
    | none => { runner := r, count, metrics := [.emitError "checkpoint_load"] }
    | some wm =>
      let lag : List TickMetric :=
        if Time.isZero wm.time then [] else [.windowLag (Time.sub now wm.time)]
      let (mins, count) := count.runOnce sp ⟨now, busy, some wm.time⟩
      let metrics :=
        lag ++ if 0 < mins then [.samplesSkipped "backfill_unstorable" mins] else []
      match collect wm with
      | .error .quotaExceeded =>
        { runner := r, count, metrics := metrics ++ [.samplesSkipped "quota_exceeded" 1] }
      | .error .granularityUnexpected =>
        let (r, calls) := r.degrade "granularity_unexpected"
        { runner := r, count, metrics := metrics ++ [.emitError "granularity_unexpected"]
          calls }
      | .error .other => { runner := r, count, metrics := metrics ++ [.emitError "collect"] }
      | .ok b =>
        -- more than one window behind: the next tick comes sooner
        { runner := r, count, metrics, enqueued := some b
          more := 0 < sp.window && !Time.isZero b.watermark.time &&
            sp.window < Time.sub now b.watermark.time }

/-! ### The ticks of the analytics loop -/

/-- What `errors.Is` finds in an error of the analytics loop. -/
def CollectError.failure : CollectError → CollectFailure
  | .quotaExceeded => .quotaExceeded
  | .derive (.granularityUnexpected _ _) => .granularityUnexpected
  | _ => .other

namespace AnalyticsLoop

/-- What the loop's `LoopSpec` holds of its window. -/
def backfillSpec (l : AnalyticsLoop) : BackfillSpec := ⟨l.window, l.maxBackfill⟩

/-- What one tick is given: the scheduler's clock and what `Busy` and `Load` answer, the source
with a clock of its own, and what the runner meets if there is a batch. -/
structure Tick (V : Type) where
  now : Int
  busy : Bool
  load : Option Watermark
  source : AnalyticsEnv V
  guard : Guard
  env : Env V

/-- The loop and its runner between ticks. -/
structure Led (V : Type) where
  runner : LoopRunner
  count : BackfillCount
  state : AnalyticsState V

/-- The watermark a tick collects from. -/
def Led.since (s : Led V) (t : Tick V) : Option Watermark :=
  if t.busy then none else s.runner.since t.load

variable [Div V] [OfNat V 1000] [BEq V]

/-- The call of `runOnce`. -/
def ticked (sha256 : String → String) (l : AnalyticsLoop) (s : Led V) (t : Tick V) : Ticked V :=
  runOnce l.backfillSpec s.runner s.count t.now t.busy t.load fun since =>
    (l.collect sha256 t.source s.state since).result.mapError CollectError.failure

variable [LT V] [DecidableLT V]

/-- A tick, and what the runner does with its batch before the next one that is not skipped. -/
def tick (sha256 : String → String) (l : AnalyticsLoop) (s : Led V) (t : Tick V) :
    Led V × List (Call V) :=
  let out := l.ticked sha256 s t
  let state := match s.since t with
    | none => s.state
    | some since => (l.collect sha256 t.source s.state since).state
  match out.enqueued with
  | none => (⟨out.runner, out.count, state⟩, out.calls)
  | some b =>
    let (r, _, calls) := processBatch out.runner t.guard t.env b
    (⟨r, out.count, state⟩, out.calls ++ calls)

end AnalyticsLoop

end GenaiBridge
