/-
From the answers of the analytics API to samples, and the memory of what was emitted.

`derive` is a pure function of the answers and of two bounds: of each data point it
computes the end of its bucket, and keeps the ones that end after `since` and no
later than `now.Add(-settle)`.  `RevisionHistory` remembers the values of a trailing
band of buckets, to notice one that changes after it settled.
-/
import GenaiBridge.Bridge.Emit
import GenaiBridge.Lib.Rfc3339

namespace GenaiBridge

variable {V : Type}

/-- `dataPoint`: one bucket of one graph. -/
structure DataPoint (V : Type) where
  timestamp : String
  total : V
  totalRequestUnits : V
  totalResponseUnits : V
  avg : V
  p50 : V
  p90 : V
  p99 : V
deriving DecidableEq

/-- `graphResponse`. -/
structure GraphResponse (V : Type) where
  dataPoints : List (DataPoint V)
  isQuotaExceeded : Bool

/-- `metricSuffix`: the graphs there are, and the suffix of each one's metric. -/
def metricSuffix : String → Option String
  | "requests" => some "requests"
  | "cost" => some "cost_usd"
  | "tokens" => some "tokens"
  | "latency" => some "latency_seconds"
  | "errors" => some "errors"
  | "users" => some "users"
  | _ => none

/-- `nameFor`. -/
def nameFor (metricPrefix graph : String) : String :=
  metricPrefix ++ "_" ++ (metricSuffix graph).getD ""

/-- `latencyStats`, with what `quantile` picks for each. -/
def latencyStats : List (String × (DataPoint V → V)) :=
  [("p50", DataPoint.p50), ("p90", DataPoint.p90), ("p99", DataPoint.p99), ("avg", DataPoint.avg)]

/-- `tokenTypes`. -/
def tokenTypes : List (String × (DataPoint V → V)) :=
  [("total", DataPoint.total), ("input", DataPoint.totalRequestUnits),
    ("output", DataPoint.totalResponseUnits)]

/-! ### Deriving samples -/

/-- An error of `derive`. -/
inductive DeriveError
  /-- `portkey: bad timestamp`. -/
  | badTimestamp (timestamp : String)
  /-- `ErrGranularityUnexpected`: a step that is not a positive multiple of the granularity. -/
  | granularityUnexpected (graph : String) (step : Int)
deriving DecidableEq, Repr

/-- `time.Parse(time.RFC3339, dp.Timestamp)`. -/
def DataPoint.time (dp : DataPoint V) : Option Int := Lib.Rfc3339.parse dp.timestamp.toList

/-- The data points with their parsed times. -/
def timedPoints : List (DataPoint V) → Except DeriveError (List (Int × DataPoint V))
  | [] => .ok []
  | dp :: rest =>
    match dp.time with
    | none => .error (.badTimestamp dp.timestamp)
    | some t => (timedPoints rest).map ((t, dp) :: ·)

/-- The granularity guard on points in ascending order. -/
def checkSteps (graph : String) (gran : Int) : List (Int × DataPoint V) → Except DeriveError Unit
  | p :: q :: rest =>
    let step := Time.sub q.1 p.1
    if step ≤ 0 ∨ step.tmod gran ≠ 0 then .error (.granularityUnexpected graph step)
    else checkSteps graph gran (q :: rest)
  | _ => .ok ()

/-- One gauge of a graph. -/
def graphSample (metricPrefix graph : String) (bend : Int) (labels : Labels) (value : V) :
    Sample V :=
  { name := nameFor metricPrefix graph, kind := .gauge, labels, value, timestamp := bend }

/-- The samples of one data point: one per statistic for the latency graph, one per token type for
the tokens graph, one for any other. -/
def pointSamples [Div V] [OfNat V 1000] (metricPrefix graph : String) (bend : Int)
    (dp : DataPoint V) : List (Sample V) :=
  if graph = "latency" then
    -- the API reports milliseconds, the metric is in seconds
    latencyStats.map fun q =>
      graphSample metricPrefix graph bend (.insert .empty "quantile" q.1) (q.2 dp / 1000)
  else if graph = "tokens" then
    tokenTypes.map fun tt =>
      graphSample metricPrefix graph bend (.insert .empty "token_type" tt.1) (tt.2 dp)
  else [graphSample metricPrefix graph bend .empty dp.total]

/-- The end of the bucket a data point is stamped with. -/
def bucketEnd (gran : Int) (startSemantics : Bool) (t : Int) : Int :=
  if startSemantics then t + gran else t

/-- The two filters of `derive` on the end of a bucket: forward only, and settled. -/
def inRange (since cutoff bend : Int) : Bool := since < bend ∧ bend ≤ cutoff

/-- The body of `derive`'s loop over the graphs. -/
def deriveGraph [Div V] [OfNat V 1000] (metricPrefix : String) (since cutoff gran : Int)
    (startSemantics : Bool) (graph : String) (r : GraphResponse V) :
    Except DeriveError (List (Sample V)) :=
  match timedPoints r.dataPoints with
  | .error e => .error e
  | .ok pts =>
    let pts := pts.insertionSort fun p q => p.1 ≤ q.1
    match checkSteps graph gran pts with
    | .error e => .error e
    | .ok () => .ok <| pts.flatMap fun p =>
      let bend := bucketEnd gran startSemantics p.1
      if inRange since cutoff bend then pointSamples metricPrefix graph bend p.2 else []

/-- The loop of `derive` over the graphs, in the order of their names. -/
def deriveGraphs [Div V] [OfNat V 1000] (metricPrefix : String) (since cutoff gran : Int)
    (startSemantics : Bool) :
    List (String × GraphResponse V) → Except DeriveError (List (Sample V))
  | [] => .ok []
  | (g, r) :: rest =>
    match deriveGraph metricPrefix since cutoff gran startSemantics g r with
    | .error e => .error e
    | .ok out =>
      (deriveGraphs metricPrefix since cutoff gran startSemantics rest).map (out ++ ·)

/-- `derive`. -/
def derive [Div V] [OfNat V 1000] (resp : Lib.SortedMap String (GraphResponse V))
    (metricPrefix : String) (since now settle gran : Int) (startSemantics : Bool) :
    Except DeriveError (List (Sample V)) :=
  deriveGraphs metricPrefix since (Time.addNeg now settle) gran startSemantics resp.entries

/-! ### What was emitted -/

/-- `revisionHistory`: per key the last value recorded, and the bucket's end. -/
structure RevisionHistory (V : Type) where
  band : Int
  seen : Lib.SortedMap String V
  when : Lib.SortedMap String Int

/-- `revisionKey`. -/
def revisionKey (s : Sample V) : String :=
  seriesKey s ++ "@" ++ toString (Time.unixNano s.timestamp)

namespace RevisionHistory

/-- `newRevisionHistory`. -/
def new (band : Int) : RevisionHistory V := { band, seen := .empty, when := .empty }

/-- One turn of the loop of `evict`. -/
def evictEntry (cutoff : Int) (h : RevisionHistory V) (e : String × Int) : RevisionHistory V :=
  if e.2 < cutoff then { h with when := h.when.erase e.1, seen := h.seen.erase e.1 } else h

/-- `evict`: drop what is older than the band. -/
def evict (h : RevisionHistory V) (now : Int) : RevisionHistory V :=
  h.when.entries.foldl (evictEntry (Time.addNeg now h.band)) h

/-- The loop of `observe`: the ends of the buckets revised, and the history with these samples. -/
def record [BEq V] (h : RevisionHistory V) : List (Sample V) → List Int × RevisionHistory V
  | [] => ([], h)
  | s :: rest =>
    let k := revisionKey s
    let revised := match h.seen.get? k with
      | some prev => if prev != s.value then [s.timestamp] else []
      | none => []
    let (more, h') := record
      { h with seen := h.seen.insert k s.value, when := h.when.insert k s.timestamp } rest
    (revised ++ more, h')

/-- `observe`. -/
def observe [BEq V] (h : RevisionHistory V) (samples : List (Sample V)) (now : Int) :
    List Int × RevisionHistory V :=
  let (revised, h') := h.record samples
  (revised, h'.evict now)

end RevisionHistory

end GenaiBridge
