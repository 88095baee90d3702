/-
The OTLP emitter's side for logs: the messages made of a list of records, and how they
are sent.

The records are grouped by their indexed attributes, which become resource attributes, so
a request holds one `ResourceLogs` for each group, in the order of the groups' keys.
-/
import GenaiBridge.Bridge.Otlp
import Mathlib.Order.Lex
import Mathlib.Data.List.Lex

namespace GenaiBridge

/-! ### The messages -/

/-- `logspb.LogRecord`; an empty trace id is none, and the body is a text if there is one. -/
structure OtlpLogRecord where
  timeUnixNano : Nat
  severityText : String
  attributes : List KeyValue
  traceId : List UInt8
  body : Option String
deriving DecidableEq, Repr

/-- `logspb.ResourceLogs`, with its one scope. -/
structure ResourceLogs where
  attributes : List KeyValue
  scope : String
  logRecords : List OtlpLogRecord
deriving DecidableEq, Repr

/-- `mergeAttrs`: `maps.Copy` of `a`, then of `b`. -/
def mergeAttrs (o : Lib.MapOrder) (a b : Labels) : Labels :=
  (o.visit b.entries).foldl (fun out e => out.insert e.1 e.2)
    ((o.visit a.entries).foldl (fun out e => out.insert e.1 e.2) .empty)

/-- `bytes.Compare(a, b) < 0`. -/
def bytesBefore (a b : List UInt8) : Bool := a.map UInt8.toNat < b.map UInt8.toNat

/-- The comparison `EncodeLogs` sorts the records of a group by: time, severity, attributes, trace
id. -/
def recordBefore (o : Lib.MapOrder) (a b : LogRecord) : Bool :=
  if a.timestamp ≠ b.timestamp then a.timestamp < b.timestamp
  else if a.severity ≠ b.severity then a.severity < b.severity
  else if labelKey o a.recordAttributes ≠ labelKey o b.recordAttributes then
    labelKey o a.recordAttributes < labelKey o b.recordAttributes
  else bytesBefore a.traceID b.traceID

/-- The message of a record. -/
def logRecordOf (o : Lib.MapOrder) (r : LogRecord) : OtlpLogRecord :=
  { timeUnixNano := (Time.unixNano r.timestamp % 2 ^ 64).toNat
    severityText := r.severity
    attributes := sortedKVs o r.recordAttributes
    traceId := if r.traceID.length = 16 then r.traceID else []
    body := if r.body ≠ "" then some r.body else none }

/-- The indexed attributes of a group: those of the record that opened it. -/
def groupIndexed : List LogRecord → Labels
  | [] => .empty
  | r :: _ => r.indexedAttributes

/-- The message of a group. -/
def resourceLogsOf (o : Lib.MapOrder) (identity : Labels) (recs : List LogRecord) : ResourceLogs :=
  { attributes := sortedKVs o (mergeAttrs o identity (groupIndexed recs))
    scope := scopeName
    logRecords := (recs.insertionSort fun a b => !recordBefore o b a).map (logRecordOf o) }

/-- The messages `EncodeLogs` builds, one for each group. -/
def resourceLogs (o : Lib.MapOrder) (identity : Labels) (logs : List LogRecord) :
    List ResourceLogs :=
  let groups := Lib.groupBy (fun r => labelKey o r.indexedAttributes) logs
  let order := (o.visit (groups.map Prod.fst)).insertionSort (· ≤ ·)
  order.map fun k => resourceLogsOf o identity (Lib.lookupGroup groups k)

/-- The messages marshalled and wrapped, one after the other. -/
def wrapResourceLogs (marshal : ResourceLogs → Except String (List UInt8)) :
    List ResourceLogs → Except EncodeError (List UInt8)
  | [] => .ok []
  | rl :: rest =>
    match marshal rl with
    | .error err => .error (.marshalLogs err)
    | .ok body => (wrapResourceLogs marshal rest).map (wrapField body ++ ·)

/-- `EncodeLogs`. -/
def encodeLogs (o : Lib.MapOrder) (marshal : ResourceLogs → Except String (List UInt8))
    (identity : Labels) (logs : List LogRecord) : Except EncodeError (List UInt8) :=
  wrapResourceLogs marshal (resourceLogs o identity logs)

/-! ### Sending them -/

/-- `emitLogs`. -/
def Emitter.emitLogs {σ : Type} (o : Lib.MapOrder)
    (marshal : ResourceLogs → Except String (List UInt8)) (wire : Wire σ) (e : Emitter)
    (logs : List LogRecord) (server : σ) : Emission LogRecord σ :=
  emitSplitting (encodeLogs o marshal e.identity) "otlp: gzip logs: " wire e.maxBytes logs server

end GenaiBridge
