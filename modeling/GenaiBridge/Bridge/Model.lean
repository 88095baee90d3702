/-
The seam between sources, the emitter and the checkpoint store.

These are the types of `internal/model`.  A sample's value is a `float64` in the
source; nothing the core does with a value needs more than comparing two of them,
so the value type is a parameter.
-/
import GenaiBridge.Bridge.Time
import GenaiBridge.Lib.SortedMap
import Mathlib.Data.String.Basic
import Mathlib.Data.List.Sort

namespace GenaiBridge

/-- A `map[string]string` of labels or attributes. -/
abbrev Labels := Lib.SortedMap String String

/-- `model.MetricKind`. -/
inductive MetricKind
  | gauge
  | sum
deriving DecidableEq, Repr

/-- `model.Temporality`. -/
inductive Temporality
  | unset
  | delta
  | cumulative
deriving DecidableEq, Repr

/-- `model.Sample`: one derived metric data point. -/
structure Sample (V : Type) where
  name : String
  kind : MetricKind := .gauge
  temporality : Temporality := .unset
  monotonic : Bool := false
  unit : String := ""
  labels : Labels := .empty
  value : V
  timestamp : Int
deriving DecidableEq

/-- `model.LogRecord`: one structured log line. -/
structure LogRecord where
  timestamp : Int
  body : String
  severity : String
  indexedAttributes : Labels
  recordAttributes : Labels
  /-- Sixteen bytes, or none. -/
  traceID : List UInt8
deriving DecidableEq

/-- `model.CheckpointKey`: the name of a watermark. -/
structure CheckpointKey where
  sourceInstance : String
  loop : String
  outputFingerprint : String
deriving DecidableEq, Repr

/-- `CheckpointKey.String`. -/
def CheckpointKey.string (k : CheckpointKey) : String :=
  k.sourceInstance ++ "/" ++ k.loop ++ "/" ++ k.outputFingerprint

/-- `unicode.IsSpace`. -/
def isSpace (c : Char) : Bool :=
  let n := c.toNat
  (9 ≤ n ∧ n ≤ 13) ∨ n = 0x20 ∨ n = 0x85 ∨ n = 0xA0 ∨ n = 0x1680 ∨ (0x2000 ≤ n ∧ n ≤ 0x200A) ∨
    n = 0x2028 ∨ n = 0x2029 ∨ n = 0x202F ∨ n = 0x205F ∨ n = 0x3000

/-- `strings.TrimSpace`. -/
def trimSpace (s : String) : String :=
  String.ofList ((s.toList.dropWhile isSpace).reverse.dropWhile isSpace).reverse

/-- `model.Fingerprint`, over the hexadecimal digest of a text: the first 16 digits of the digest
of the sorted series names, each ended by a zero byte, and the naming configuration. -/
def fingerprint (sha256 : String → String) (seriesNames : List String) (namingConfig : String) :
    String :=
  let names := seriesNames.insertionSort (· ≤ ·)
  let text := String.join (names.map fun n => n ++ "\x00") ++ trimSpace namingConfig
  String.ofList ((sha256 text).toList.take 16)

/-- `model.Watermark`: a loop's position.  The zero value is the zero time, no cursor, epoch 0. -/
structure Watermark where
  time : Int := 0
  cursor : String := ""
  epoch : Int64 := 0
deriving DecidableEq, Repr

/-- `model.Batch`: what one `Collect` produces. -/
structure Batch (V : Type) where
  key : CheckpointKey
  samples : List (Sample V) := []
  logs : List LogRecord := []
  watermark : Watermark := {}
deriving DecidableEq

end GenaiBridge
