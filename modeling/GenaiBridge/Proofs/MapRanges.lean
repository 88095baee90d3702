/-
The order in which a map is visited changes no result.

Where the source ranges over a map it sorts the keys, or only marks positions and adds
up counts, which come out the same in any order.
-/
import GenaiBridge.Bridge.MapRanges
import GenaiBridge.Bridge.Otlp
import Mathlib.Algebra.BigOperators.Group.List.Basic

namespace GenaiBridge

variable {V : Type}

/-! ### From a batch to its buckets -/

theorem seriesKeyIn_eq (o : Lib.MapOrder) (s : Sample V) : seriesKeyIn o s = seriesKey s := by
  rw [seriesKeyIn, seriesKey, Lib.SortedMap.inKeyOrder_eq]

theorem coalesceDPMIn_eq [LT V] [DecidableLT V] (o : Lib.MapOrder) (samples : List (Sample V))
    (maxDPM : Int) : coalesceDPMIn o samples maxDPM = coalesceDPM samples maxDPM := by
  have hperm : (o.visit (dpmGroups samples)).Perm (dpmGroups samples) := o.perm _
  have hcapped : ((o.visit (dpmGroups samples)).map fun g =>
      g.2.length - (survivors (dpmLimit maxDPM) g.2).length).sum = dpmCapped samples maxDPM :=
    (hperm.map _).sum_eq
  have hkeep : ∀ i, ((o.visit (dpmGroups samples)).flatMap fun g =>
      (survivors (dpmLimit maxDPM) g.2).map Prod.snd).contains i =
        (dpmKeep samples maxDPM).contains i := fun i =>
    (hperm.flatMap_right _).contains_eq
  unfold coalesceDPMIn
  simp only [seriesKeyIn_eq]
  change (if samples.isEmpty then _ else if ((o.visit (dpmGroups samples)).map _).sum = 0 then _
    else ((samples.zipIdx.filter fun p => ((o.visit (dpmGroups samples)).flatMap _).contains p.2).map
      Prod.fst, ((o.visit (dpmGroups samples)).map _).sum)) = _
  simp only [hcapped, hkeep]
  rfl

theorem splitByBucketIn_eq (o : Lib.MapOrder) (b : Batch V) :
    splitByBucketIn o b = splitByBucket b := by
  unfold splitByBucketIn splitByBucket
  dsimp only
  rw [o.insertionSort_visit]

/-! ### From a bucket to its requests -/

theorem sortedKVs_eq (o : Lib.MapOrder) (m : Labels) :
    sortedKVs o m = m.entries.map fun e => ⟨e.1, e.2⟩ := by
  rw [sortedKVs, Lib.SortedMap.inKeyOrder_eq]

theorem labelKey_eq (o : Lib.MapOrder) (m : Labels) :
    labelKey o m = String.join (m.entries.map fun e => lengthPrefixed e.1 ++ lengthPrefixed e.2) := by
  rw [labelKey, Lib.SortedMap.inKeyOrder_eq]

variable (o o' : Lib.MapOrder)

private theorem sampleBefore_order :
    (sampleBefore o : Sample V → Sample V → Bool) = sampleBefore o' := by
  funext a b
  simp only [sampleBefore, labelKey_eq]

private theorem groupMetrics_order (metrics : List (GaugeMetric V)) (samples : List (Sample V)) :
    groupMetrics o metrics samples = groupMetrics o' metrics samples := by
  induction samples generalizing metrics with
  | nil => rfl
  | cons s rest ih => simp only [groupMetrics, dataPointOf, sortedKVs_eq, ih]

/-- The message does not depend on the order. -/
theorem resourceMetrics_order (identity : Labels) (samples : List (Sample V)) :
    resourceMetrics o identity samples = resourceMetrics o' identity samples := by
  unfold resourceMetrics
  dsimp only
  rw [sampleBefore_order o o', groupMetrics_order o o', sortedKVs_eq, sortedKVs_eq]

/-- **Nor does the emission of a list of samples.** -/
theorem emitSamples_order {σ : Type} (marshal : ResourceMetrics V → Except String (List UInt8))
    (wire : Wire σ) (e : Emitter) (samples : List (Sample V)) (server : σ) :
    e.emitSamples o marshal wire samples server = e.emitSamples o' marshal wire samples server := by
  have hencode : encode o marshal e.identity = encode o' marshal e.identity := by
    funext items
    unfold encode
    rw [resourceMetrics_order o o']
  unfold Emitter.emitSamples
  rw [hencode]

end GenaiBridge
