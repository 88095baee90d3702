/-
The functions on the way from a batch to its buckets that range over a map.

Elsewhere a map is its entries in key order.  In the source it is a hash map, and these
functions collect its keys or walk its groups in the order of the visit; here that order
is an argument.
-/
import GenaiBridge.Bridge.Runner
import GenaiBridge.Lib.MapOrder

namespace GenaiBridge

variable {V : Type}

/-- `seriesKey`, over the labels as the map yields them. -/
def seriesKeyIn (o : Lib.MapOrder) (s : Sample V) : String :=
  lengthPrefixed s.name ++ lengthPrefixed s.unit
    ++ String.join ((s.labels.inKeyOrder o).map fun e => lengthPrefixed e.1 ++ lengthPrefixed e.2)

/-- `CoalesceDPM`, over the groups as the map yields them. -/
def coalesceDPMIn [LT V] [DecidableLT V] (o : Lib.MapOrder) (samples : List (Sample V))
    (maxDPM : Int) : List (Sample V) × Nat :=
  if samples.isEmpty then (samples, 0)
  else
    let key := fun s : Sample V =>
      (seriesKeyIn o s, Time.unixNano (Time.truncate s.timestamp minute))
    let groups := o.visit (Lib.groupBy (fun p => key p.1) samples.zipIdx)
    let kept := fun g : (String × Int) × List (Sample V × Nat) =>
      survivors (dpmLimit maxDPM) g.2
    let keep := groups.flatMap fun g => (kept g).map Prod.snd
    let capped := (groups.map fun g => g.2.length - (kept g).length).sum
    if capped = 0 then (samples, 0)
    else ((samples.zipIdx.filter fun p => keep.contains p.2).map Prod.fst, capped)

/-- `splitByBucket`, over the groups as the map yields them. -/
def splitByBucketIn (o : Lib.MapOrder) (b : Batch V) : List (Batch V) :=
  let groups := Lib.groupBy (fun s : Sample V => Time.unixNano s.timestamp) b.samples
  let keys := (o.visit (groups.map Prod.fst)).insertionSort (· ≤ ·)
  keys.map fun k => { key := b.key, samples := Lib.lookupGroup groups k }

end GenaiBridge
