/-
What a receiver reads of an OTLP message: the labels of an attribute list, and the time
of a `uint64`, taken for the `int64` it was made from.
-/
import GenaiBridge.Proofs.MapRanges
import GenaiBridge.Proofs.SeriesKey

namespace GenaiBridge

/-- The labels of a list of attributes. -/
def readLabels (kvs : List KeyValue) : Labels :=
  kvs.foldl (fun m kv => m.insert kv.key kv.value) .empty

theorem readLabels_sortedKVs (o : Lib.MapOrder) (m : Labels) :
    readLabels (sortedKVs o m) = m := by
  rw [sortedKVs_eq, readLabels, List.foldl_map]
  refine Lib.SortedMap.ext_get? fun k => ?_
  rw [Lib.SortedMap.get?_copy (List.Perm.refl _), Lib.SortedMap.get?_empty, Option.or_none]

/-- Nanoseconds since the Unix epoch. -/
def readUnixNano (n : Nat) : Int := wrap64 n

theorem readUnixNano_unixNano {t : Int} (h : Time.InUnixNanoRange t) :
    readUnixNano (Time.unixNano t % 2 ^ 64).toNat = t - Time.unixEpoch := by
  rw [Time.unixNano_of_inRange h]
  obtain ⟨hlo, hhi⟩ := h
  unfold readUnixNano wrap64
  unfold minInt64 at hlo
  unfold maxInt64 at hhi
  omega

/-- **The label key stands for one label map**, whatever the characters in it are. -/
theorem labelKey_inj {o : Lib.MapOrder} {m m' : Labels} (h : labelKey o m = labelKey o m') :
    m = m' := by
  have htext := congrArg String.toList h
  simp only [labelKey_eq, String.toList_join, List.flatMap_map, String.toList_append] at htext
  exact labels_eq_of_join_eq htext

end GenaiBridge
