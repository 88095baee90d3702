/-
The emit seam: its error taxonomy, and the cap on data points per minute.

`EmitError` is what an `Emit` can return besides nil, with the reasons a gateway
rejection carries.  `coalesceDPM` is the stage that runs before a batch is split
into buckets: of the points one series has inside one minute it keeps the newest
`maxDPM`.
-/
import GenaiBridge.Bridge.Model
import GenaiBridge.Lib.Groups
import Mathlib.Data.List.Sort

namespace GenaiBridge

/-- `emit.RejectReason`. -/
inductive RejectReason
  | none
  | duplicateTimestamp
  | tooOld
  | payloadTooLarge
  | badEncoding
  | unknown
deriving DecidableEq, Repr

/-- An error an `Emit` returns: a `RejectError`, a `RetryableError`, or some other error. -/
inductive EmitError
  | reject (reason : RejectReason) (status : Int) (msg : String)
  | retryable (status : Int) (err : String)
  | other (msg : String)
deriving DecidableEq, Repr

namespace RejectReason

/-- `RejectError.AdvancesPast`: the rejections of single samples, which a retry would repeat. -/
def advancesPast : RejectReason → Bool
  | .duplicateTimestamp | .tooOld | .payloadTooLarge => true
  | .none | .badEncoding | .unknown => false

end RejectReason

/-! ### The cap on data points per minute -/

/-- One length-prefixed field of a series key. -/
def lengthPrefixed (s : String) : String := toString s.utf8ByteSize ++ ":" ++ s

variable {V : Type}

/-- `seriesKey`: name, unit and labels in key order, each with its length in front. -/
def seriesKey (s : Sample V) : String :=
  lengthPrefixed s.name ++ lengthPrefixed s.unit
    ++ String.join (s.labels.entries.map fun e => lengthPrefixed e.1 ++ lengthPrefixed e.2)

/-- The group a sample competes in: its series and its minute. -/
def dpmKey (s : Sample V) : String × Int :=
  (seriesKey s, Time.unixNano (Time.truncate s.timestamp minute))

section Coalesce

variable [LT V] [DecidableLT V]

/-- Newest first; at equal times the larger value first. -/
def dpmBefore (a b : Sample V × Nat) : Bool :=
  if a.1.timestamp = b.1.timestamp then b.1.value < a.1.value
  else b.1.timestamp < a.1.timestamp

/-- The indexed samples of one group that are kept. -/
def survivors (maxDPM : Nat) (idxs : List (Sample V × Nat)) : List (Sample V × Nat) :=
  if idxs.length ≤ maxDPM then idxs
  -- `sort.SliceStable` keeps equal elements in place, so `b` moves ahead only if it is strictly before
  else (idxs.insertionSort fun a b => !dpmBefore b a).take maxDPM

/-- `maxDPM` as `CoalesceDPM` uses it: at least one. -/
def dpmLimit (maxDPM : Int) : Nat := if maxDPM < 1 then 1 else maxDPM.toNat

/-- The groups `CoalesceDPM` forms, each sample with its position in the input. -/
def dpmGroups (samples : List (Sample V)) : List ((String × Int) × List (Sample V × Nat)) :=
  Lib.groupBy (fun p => dpmKey p.1) samples.zipIdx

/-- The positions that are kept. -/
def dpmKeep (samples : List (Sample V)) (maxDPM : Int) : List Nat :=
  (dpmGroups samples).flatMap fun g => (survivors (dpmLimit maxDPM) g.2).map Prod.snd

/-- How many samples are suppressed, summed over the groups. -/
def dpmCapped (samples : List (Sample V)) (maxDPM : Int) : Nat :=
  ((dpmGroups samples).map fun g => g.2.length - (survivors (dpmLimit maxDPM) g.2).length).sum

/-- `CoalesceDPM`: the surviving samples in input order, and how many were suppressed. -/
def coalesceDPM (samples : List (Sample V)) (maxDPM : Int) : List (Sample V) × Nat :=
  if samples.isEmpty then (samples, 0)
  else if dpmCapped samples maxDPM = 0 then (samples, 0)
  else ((samples.zipIdx.filter fun p => (dpmKeep samples maxDPM).contains p.2).map Prod.fst,
    dpmCapped samples maxDPM)

end Coalesce

end GenaiBridge
