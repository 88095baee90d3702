/-
The OTLP emitter: the message made of a list of samples, and how it is sent.

Marshalling, compression and the server are what the emitter calls; they are arguments.
`Wire.post` is one call of `post` with all its attempts: how many requests it sent, all
with the same body, and what it returned.  A list too large for one request is halved,
before sending when the compressed body exceeds `MaxBytes` and after it when the server
answers 413, so an emission is a sequence of posts.
-/
import GenaiBridge.Bridge.Emit
import GenaiBridge.Lib.MapOrder

namespace GenaiBridge

variable {V : Type}

/-! ### The message -/

/-- `commonpb.KeyValue`, with a text for its value. -/
structure KeyValue where
  key : String
  value : String
deriving DecidableEq, Repr

/-- `metricspb.NumberDataPoint`; the time is a `uint64`. -/
structure NumberDataPoint (V : Type) where
  attributes : List KeyValue
  timeUnixNano : Nat
  value : V
deriving DecidableEq, Repr

/-- `metricspb.Metric`, a gauge. -/
structure GaugeMetric (V : Type) where
  name : String
  unit : String
  dataPoints : List (NumberDataPoint V)
deriving DecidableEq, Repr

/-- `metricspb.ResourceMetrics`, with its one scope. -/
structure ResourceMetrics (V : Type) where
  attributes : List KeyValue
  scope : String
  metrics : List (GaugeMetric V)
deriving DecidableEq, Repr

/-- `scopeName`. -/
def scopeName : String := "genai-otel-bridge"

/-- `sortedKVs`. -/
def sortedKVs (o : Lib.MapOrder) (m : Labels) : List KeyValue :=
  (m.inKeyOrder o).map fun e => ⟨e.1, e.2⟩

/-- `labelKey`. -/
def labelKey (o : Lib.MapOrder) (m : Labels) : String :=
  String.join ((m.inKeyOrder o).map fun e => lengthPrefixed e.1 ++ lengthPrefixed e.2)

/-- The comparison `Encode` sorts by: name, unit, labels, time. -/
def sampleBefore (o : Lib.MapOrder) (a b : Sample V) : Bool :=
  if a.name ≠ b.name then a.name < b.name
  else if a.unit ≠ b.unit then a.unit < b.unit
  else if labelKey o a.labels ≠ labelKey o b.labels then labelKey o a.labels < labelKey o b.labels
  else a.timestamp < b.timestamp

/-- An error of `Encode` or `EncodeLogs`. -/
inductive EncodeError
  | delta (name : String)
  | kind (kind : MetricKind) (name : String)
  | marshal (err : String)
  | marshalLogs (err : String)
deriving DecidableEq, Repr

/-- The number of a `MetricKind`. -/
def MetricKind.number : MetricKind → Nat
  | .gauge => 0
  | .sum => 1

/-- Its text. -/
def EncodeError.text : EncodeError → String
  | .delta name =>
    "otlp: Delta temporality not accepted by the GC gateway (use Cumulative): " ++ name
  | .kind k name =>
    "otlp: v1 emits Gauge only, got kind=" ++ toString k.number ++ " for " ++ name
  | .marshal err => "otlp: marshal ResourceMetrics: " ++ err
  | .marshalLogs err => "otlp: marshal ResourceLogs: " ++ err

/-- The data point of a sample. -/
def dataPointOf (o : Lib.MapOrder) (s : Sample V) : NumberDataPoint V :=
  { attributes := sortedKVs o s.labels
    timeUnixNano := (Time.unixNano s.timestamp % 2 ^ 64).toNat
    value := s.value }

/-- Add a data point to the metric at hand, the last one, or open a metric for it. -/
def addDataPoint (metrics : List (GaugeMetric V)) (name unit : String) (dp : NumberDataPoint V) :
    List (GaugeMetric V) :=
  match metrics.getLast? with
  | none => [⟨name, unit, [dp]⟩]
  | some cur =>
    if cur.name ≠ name ∨ cur.unit ≠ unit then metrics ++ [⟨name, unit, [dp]⟩]
    else metrics.dropLast ++ [{ cur with dataPoints := cur.dataPoints ++ [dp] }]

/-- The loop of `Encode` over the sorted samples. -/
def groupMetrics (o : Lib.MapOrder) (metrics : List (GaugeMetric V)) :
    List (Sample V) → Except EncodeError (List (GaugeMetric V))
  | [] => .ok metrics
  | s :: rest =>
    if s.temporality = .delta then .error (.delta s.name)
    else if s.kind ≠ .gauge then .error (.kind s.kind s.name)
    else groupMetrics o (addDataPoint metrics s.name s.unit (dataPointOf o s)) rest

/-- The message `Encode` builds. -/
def resourceMetrics (o : Lib.MapOrder) (identity : Labels) (samples : List (Sample V)) :
    Except EncodeError (ResourceMetrics V) :=
  let sorted := samples.insertionSort fun a b => !sampleBefore o b a
  (groupMetrics o [] sorted).map fun metrics =>
    { attributes := sortedKVs o identity, scope := scopeName, metrics }

/-- `protowire.AppendVarint`, on a length. -/
def varint (n : Nat) : List UInt8 :=
  if n < 128 then [n.toUInt8] else (n % 128 + 128).toUInt8 :: varint (n / 128)

/-- `protowire.AppendTag` for field 1 of type bytes, and `protowire.AppendBytes`. -/
def wrapField (body : List UInt8) : List UInt8 := 0x0a :: (varint body.length ++ body)

/-- `Encode`. -/
def encode (o : Lib.MapOrder) (marshal : ResourceMetrics V → Except String (List UInt8))
    (identity : Labels) (samples : List (Sample V)) : Except EncodeError (List UInt8) :=
  match resourceMetrics o identity samples with
  | .error err => .error err
  | .ok rm =>
    match marshal rm with
    | .error err => .error (.marshal err)
    | .ok body => .ok (wrapField body)

/-! ### Sending it -/

/-- One call of `post`: the items in it, the body, how many requests carried it, and what it
returned. -/
structure Post (α : Type) where
  items : List α
  body : List UInt8
  requests : Nat
  err : Option EmitError
deriving DecidableEq, Repr

/-- What an emission did, what it returned, and the server afterwards. -/
structure Emission (α σ : Type) where
  posts : List (Post α)
  err : Option EmitError
  server : σ
deriving DecidableEq

namespace Emission

variable {α σ : Type}

/-- The bodies of the requests, in the order sent. -/
def bodies (e : Emission α σ) : List (List UInt8) :=
  e.posts.flatMap fun p => List.replicate p.requests p.body

/-- A second emission after the first, unless that failed. -/
def andThen (first : Emission α σ) (rest : σ → Emission α σ) : Emission α σ :=
  match first.err with
  | some _ => first
  | none => { rest first.server with posts := first.posts ++ (rest first.server).posts }

end Emission

/-- What the emitter calls to send a body: `gzipBytes`, and `post` against a server. -/
structure Wire (σ : Type) where
  gzip : List UInt8 → Except String (List UInt8)
  post : List UInt8 → σ → (Nat × Option EmitError) × σ

/-- An error is a rejection with `ReasonPayloadTooLarge`. -/
def isPayloadTooLarge : Option EmitError → Bool
  | some (.reject .payloadTooLarge _ _) => true
  | _ => false

section Splitting

variable {α σ : Type}

/-- The body of `emitSamples` and `emitLogs`, over an encoding. -/
def emitSplitting (encode : List α → Except EncodeError (List UInt8)) (gzipError : String)
    (wire : Wire σ) (maxBytes : Int) (items : List α) (server : σ) : Emission α σ :=
  match encode items with
  | .error err => ⟨[], some (.reject .badEncoding 0 err.text), server⟩
  | .ok body =>
    match wire.gzip body with
    | .error err => ⟨[], some (.other (gzipError ++ err)), server⟩
    | .ok gz =>
      let mid := items.length / 2
      if _ : 0 < maxBytes ∧ maxBytes < gz.length ∧ 1 < items.length then
        (emitSplitting encode gzipError wire maxBytes (items.take mid) server).andThen
          (emitSplitting encode gzipError wire maxBytes (items.drop mid))
      else
        let ((requests, err), server) := wire.post gz server
        let post : Post α := ⟨items, gz, requests, err⟩
        if _ : isPayloadTooLarge err ∧ 1 < items.length then
          let halves :=
            (emitSplitting encode gzipError wire maxBytes (items.take mid) server).andThen
              (emitSplitting encode gzipError wire maxBytes (items.drop mid))
          { halves with posts := post :: halves.posts }
        else ⟨[post], err, server⟩
termination_by items.length
decreasing_by all_goals simp only [List.length_take, List.length_drop]; omega

end Splitting

/-- `otlp.Emitter`: the settings an emission depends on. -/
structure Emitter where
  identity : Labels
  maxBytes : Int

/-- `emitSamples`. -/
def Emitter.emitSamples {σ : Type} (o : Lib.MapOrder)
    (marshal : ResourceMetrics V → Except String (List UInt8)) (wire : Wire σ) (e : Emitter)
    (samples : List (Sample V)) (server : σ) : Emission (Sample V) σ :=
  emitSplitting (encode o marshal e.identity) "otlp: gzip: " wire e.maxBytes samples server

end GenaiBridge
