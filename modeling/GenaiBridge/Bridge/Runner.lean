/-
The loop runner: what happens to a collected batch.

`processBatch` coalesces the samples, splits them into one sub-batch per
timestamp, guards and emits the sub-batches in ascending order, and commits the
position it got to once.  The emitter, the checkpoint store and the leader context
are an `Env`: what each of them answers.  What the runner does to the outside is
the list of `Call`s it makes, with the answers it got.
-/
import GenaiBridge.Bridge.Emit
import GenaiBridge.Bridge.Guard

namespace GenaiBridge

/-- What a `Save` came to.  A write that fails may still have reached the store. -/
inductive SaveOutcome
  | ok
  /-- `ErrStaleWrite`: refused by the fence. -/
  | stale
  | failed (landed : Bool)
deriving DecidableEq, Repr

/-- Whether the store holds the watermark after this outcome. -/
def SaveOutcome.landed : SaveOutcome → Bool
  | .ok => true
  | .stale => false
  | .failed landed => landed

/-- A call of the `Metrics` seam. -/
inductive Metric
  | samplesCapped (n : Nat)
  | guardDropped (n : Nat)
  | emittedSamples (n : Nat)
  | emittedLogs (n : Nat)
  | samplesSkipped (reason : String) (n : Nat)
  | emitError (kind : String)
  | lastSuccess (t : Int)
  | loopDegraded (reason : String) (degraded : Bool)
deriving DecidableEq, Repr

/-- A call the runner makes to one of its collaborators, with the answer. -/
inductive Call (V : Type)
  | coalesce (samples kept : List (Sample V))
  | sanitize (samples kept : List (Sample V))
  | sanitizeLogs (logs kept : List LogRecord)
  | emit (b : Batch V) (err : Option EmitError)
  | save (key : CheckpointKey) (w : Watermark) (outcome : SaveOutcome)
  | load (key : CheckpointKey) (stored : Option Watermark)
  | metric (loop : String) (m : Metric)
deriving DecidableEq

/-- What the runner's surroundings answer while one batch is processed. -/
structure Env (V : Type) where
  /-- `leaderCtx.Err() == nil` when `ProcessBatch` starts. -/
  leaderAtStart : Bool
  /-- `ctx.Err() == nil` when `commit` is about to save. -/
  leaderAtCommit : Bool
  /-- `EpochFromContext(leaderCtx)`. -/
  epoch : Int64
  emit : Batch V → Option EmitError
  save : Watermark → SaveOutcome
  /-- What `Load` returns after a stale write; `none` is an error. -/
  load : Option Watermark

/-- `schedule.LoopRunner`, without its queue. -/
structure LoopRunner where
  /-- `loop.Key()`. -/
  key : CheckpointKey
  maxDPM : Int
  busy : Bool := false
  frontier : Watermark := {}
  hasFront : Bool := false
  saveFails : Nat := 0
  degraded : Bool := false
  degradeReason : String := ""
  firstOK : Bool := false
deriving DecidableEq

/-- `checkpointFailThreshold`. -/
def checkpointFailThreshold : Nat := 5

/-! ### Classifying an emit error -/

/-- `isAdvancePast`. -/
def isAdvancePast : EmitError → Bool
  | .reject reason _ _ => reason.advancesPast
  | .retryable _ _ | .other _ => false

/-- `isTerminalHalt`. -/
def isTerminalHalt : EmitError → Bool
  | .reject reason _ _ => reason == .badEncoding || reason == .unknown
  | .retryable _ _ | .other _ => false

/-- `rejectReason`. -/
def rejectReason : EmitError → String
  | .reject .duplicateTimestamp _ _ => "duplicate_timestamp"
  | .reject .tooOld _ _ => "too_old"
  | .reject .payloadTooLarge _ _ => "payload_too_large"
  | .reject .badEncoding _ _ => "bad_encoding"
  | .reject .unknown _ _ => "unknown_4xx"
  | .reject .none _ _ | .retryable _ _ | .other _ => "unknown"

section

variable {V : Type}

/-- `splitByBucket`: one sub-batch per timestamp, ascending. -/
def splitByBucket (b : Batch V) : List (Batch V) :=
  let groups := Lib.groupBy (fun s : Sample V => Time.unixNano s.timestamp) b.samples
  let keys := (groups.map Prod.fst).insertionSort (· ≤ ·)
  keys.map fun k => { key := b.key, samples := Lib.lookupGroup groups k }

/-- The timestamp of a bucket, which is that of its first sample. -/
def bucketTime (b : Batch V) : Int := (b.samples.head?.map Sample.timestamp).getD 0

namespace LoopRunner

/-- `r.name`. -/
def name (r : LoopRunner) : String := r.key.loop

/-- `NewLoopRunner`, but for the queue. -/
def new (key : CheckpointKey) (maxDPM : Int) : LoopRunner :=
  { key, maxDPM := if maxDPM < 1 then 1 else maxDPM }

/-- `Since`; `load` is what `Load` returns, `none` an error. -/
def since (r : LoopRunner) (load : Option Watermark) : Option Watermark :=
  if r.hasFront then some r.frontier else load

/-- A metric call under the runner's loop name. -/
def metric (r : LoopRunner) (m : Metric) : Call V := .metric r.name m

/-- `enterDegraded`. -/
def enterDegraded (r : LoopRunner) (reason : String) : LoopRunner × List (Call V) :=
  if r.degraded then (r, [])
  else ({ r with degraded := true, degradeReason := reason },
    [r.metric (.loopDegraded reason true)])

/-- `Degrade`. -/
def degrade (r : LoopRunner) (reason : String) : LoopRunner × List (Call V) :=
  r.enterDegraded reason

/-- `Reset`, but for the queue. -/
def reset (r : LoopRunner) : LoopRunner × List (Call V) :=
  ({ r with busy := false, hasFront := false, frontier := {}, saveFails := 0, degraded := false
            degradeReason := if r.degraded then "" else r.degradeReason, firstOK := false },
    if r.degraded then [r.metric (.loopDegraded r.degradeReason false)] else [])

/-- `commit` after a `Save` that failed for another reason than the fence. -/
def commitFailed (r : LoopRunner) : LoopRunner × List (Call V) :=
  let r := { r with saveFails := r.saveFails + 1 }
  let err : Call V := r.metric (.emitError "checkpoint_save")
  if checkpointFailThreshold ≤ r.saveFails && !r.degraded then
    ({ r with degraded := true, degradeReason := "checkpoint-save failures" },
      [err, r.metric (.loopDegraded "checkpoint-save failures" true)])
  else (r, [err])

/-- `commit` after a `Save` the fence refused: take over what is stored, loudly if it is behind. -/
def commitStale (r : LoopRunner) (key : CheckpointKey) (w : Watermark) (load : Option Watermark) :
    LoopRunner × List (Call V) :=
  match load with
  | none => (r, [.load key none])
  | some stored =>
    ({ r with frontier := stored, hasFront := true },
      .load key (some stored) ::
        if stored.time < w.time then [r.metric (.emitError "checkpoint_fenced")] else [])

/-- `commit` after a successful `Save`. -/
def commitOK (r : LoopRunner) (w : Watermark) : LoopRunner × List (Call V) :=
  let calls : List (Call V) :=
    if r.degraded then [r.metric (.loopDegraded r.degradeReason false)] else []
  let r := { r with
    saveFails := 0
    degraded := false
    degradeReason := if r.degraded then "" else r.degradeReason
    firstOK := true }
  if !r.hasFront || r.frontier.time < w.time
      || (w.time == r.frontier.time && w.cursor != "" && w.cursor != r.frontier.cursor) then
    ({ r with frontier := w, hasFront := true }, calls)
  else (r, calls)

/-- `commit`: save the watermark once and follow it in memory. -/
def commit (r : LoopRunner) (env : Env V) (key : CheckpointKey) (t : Int) (cursor : String) :
    LoopRunner × List (Call V) :=
  if !env.leaderAtCommit then (r, [])
  else
    let w : Watermark := { time := t, cursor := cursor, epoch := env.epoch }
    let outcome := env.save w
    let (r', calls) := match outcome with
      | .failed _ => r.commitFailed
      | .stale => r.commitStale key w env.load
      | .ok => r.commitOK w
    (r', .save key w outcome :: calls)

end LoopRunner

/-! ### The buckets of one batch -/

/-- What the loop body decides for one bucket: go on, or stop the batch. -/
inductive BucketEnd
  | advanced
  | terminal
  | retryable
deriving DecidableEq, Repr

/-- The body of the loop over the buckets: guard the bucket, emit what is left of it. -/
def processBucket (loop : String) (emit : Batch V → Option EmitError) (g : Guard)
    (bucket : Batch V) : Guard × List (Call V) × BucketEnd :=
  let (sub, dropped, g) := g.sanitize bucket
  let guarded : List (Call V) := .sanitize bucket.samples sub.samples ::
    if 0 < dropped then [.metric loop (.guardDropped dropped)] else []
  -- a bucket the guard dropped whole still advances the position
  if sub.samples.isEmpty then (g, guarded, .advanced)
  else
    match emit sub with
    | none =>
      (g, guarded ++ [.emit sub none, .metric loop (.emittedSamples sub.samples.length),
        .metric loop (.lastSuccess (bucketTime bucket))], .advanced)
    | some err =>
      if isAdvancePast err then
        (g, guarded ++ [.emit sub (some err),
          .metric loop (.samplesSkipped (rejectReason err) sub.samples.length)], .advanced)
      else if isTerminalHalt err then
        (g, guarded ++ [.emit sub (some err), .metric loop (.emitError (rejectReason err))],
          .terminal)
      else
        (g, guarded ++ [.emit sub (some err), .metric loop (.emitError "retryable_exhausted")],
          .retryable)

/-- The loop of `ProcessBatch` over the buckets.  The frontier is the last bucket advanced over. -/
def processBuckets (loop : String) (emit : Batch V → Option EmitError) :
    Guard → Option Int → List (Batch V) → Guard × List (Call V) × BucketEnd × Option Int
  | g, frontier, [] => (g, [], .advanced, frontier)
  | g, frontier, bucket :: rest =>
    let (g, calls, e) := processBucket loop emit g bucket
    match e with
    | .advanced =>
      let (g, more, e, frontier) :=
        processBuckets loop emit g (some (bucketTime bucket)) rest
      (g, calls ++ more, e, frontier)
    | .terminal => (g, calls, .terminal, frontier)
    | .retryable => (g, calls, .retryable, frontier)

/-- `processLogs`; the flag says whether to go on to the commit. -/
def processLogs (r : LoopRunner) (g : Guard) (env : Env V) (b : Batch V) :
    Bool × LoopRunner × Guard × List (Call V) :=
  let (kept, dropped, g) := g.sanitizeLogs r.key.string b.logs
  let guarded : List (Call V) := .sanitizeLogs b.logs kept ::
    if 0 < dropped then [r.metric (.guardDropped dropped)] else []
  if kept.isEmpty then (true, r, g, guarded)
  else
    let sub : Batch V := { key := b.key, logs := kept }
    match env.emit sub with
    | none =>
      let success : List (Call V) :=
        if Time.isZero b.watermark.time then [] else [r.metric (.lastSuccess b.watermark.time)]
      (true, r, g, guarded ++ [.emit sub none, r.metric (.emittedLogs kept.length)] ++ success)
    | some err =>
      if isAdvancePast err then
        (true, r, g, guarded ++ [.emit sub (some err),
          r.metric (.samplesSkipped (rejectReason err) kept.length)])
      else if isTerminalHalt err then
        let (r', calls) := r.enterDegraded "terminal emit reject (logs)"
        (false, r', g, guarded ++ [.emit sub (some err),
          r.metric (.emitError (rejectReason err))] ++ calls)
      else
        (false, r, g, guarded ++ [.emit sub (some err),
          r.metric (.emitError "retryable_exhausted")])

/-- `commit` at an interior bucket, if one was advanced over: with an empty cursor. -/
def commitInterior (r : LoopRunner) (env : Env V) (key : CheckpointKey) (frontier : Option Int) :
    LoopRunner × List (Call V) :=
  match frontier with
  | none => (r, [])
  | some t => r.commit env key t ""

variable [LT V] [DecidableLT V]

/-- `ProcessBatch` from the coalescing on. -/
def processSamples (r : LoopRunner) (g : Guard) (env : Env V) (b : Batch V) :
    LoopRunner × Guard × List (Call V) :=
  let (kept, capped) := coalesceDPM b.samples r.maxDPM
  let cut : List (Call V) := .coalesce b.samples kept ::
    if 0 < capped then [r.metric (.samplesCapped capped)] else []
  let (g, calls, e, frontier) :=
    processBuckets r.name env.emit g none (splitByBucket { b with samples := kept })
  match e with
  | .terminal =>
    let (r, committed) := commitInterior r env b.key frontier
    -- after the commit, whose success would clear the degraded state again
    let (r, degraded) := r.enterDegraded "terminal emit reject"
    (r, g, cut ++ calls ++ committed ++ degraded)
  | .retryable =>
    let (r, committed) := commitInterior r env b.key frontier
    (r, g, cut ++ calls ++ committed)
  | .advanced =>
    if frontier.isSome || !Time.isZero b.watermark.time || b.watermark.cursor != "" then
      let (r, committed) := r.commit env b.key b.watermark.time b.watermark.cursor
      (r, g, cut ++ calls ++ committed)
    else (r, g, cut ++ calls)

/-- `ProcessBatch`: the runner, the guard and the calls made. -/
def processBatch (r : LoopRunner) (g : Guard) (env : Env V) (b : Batch V) :
    LoopRunner × Guard × List (Call V) :=
  if !env.leaderAtStart then ({ r with busy := false }, g, [])
  else
    let (go, r, g, logCalls) :=
      if b.logs.isEmpty then (true, r, g, []) else processLogs r g env b
    if go then
      let (r, g, calls) := processSamples r g env b
      ({ r with busy := false }, g, logCalls ++ calls)
    else ({ r with busy := false }, g, logCalls)

end

end GenaiBridge
