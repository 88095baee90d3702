/-
What the split into buckets guarantees.

`splitByBucket` groups the samples by `UnixNano` and walks the groups in ascending
key order.  For timestamps inside the `UnixNano` range the key determines the
instant, so every bucket holds samples of one instant, the buckets ascend strictly,
and together they hold every sample once.  That is all the loop over the buckets
relies on.
-/
import GenaiBridge.Bridge.Runner
import Mathlib.Data.List.Sort

namespace GenaiBridge

variable {V : Type}

/-- Buckets as the loop over them needs them. -/
structure BucketsOK (l : List (Batch V)) : Prop where
  /-- No bucket is empty, so each has a timestamp. -/
  nonempty : ∀ c ∈ l, c.samples ≠ []
  /-- A bucket holds samples of one instant. -/
  uniform : ∀ c ∈ l, ∀ s ∈ c.samples, s.timestamp = bucketTime c
  ascending : l.Pairwise fun c d => bucketTime c < bucketTime d

/-- In ascending buckets, a sample of a later bucket is later than every earlier bucket. -/
theorem BucketsOK.lt_of_later {buckets pre later : List (Batch V)} (hok : BucketsOK buckets)
    (hsplit : buckets = pre ++ later) {c : Batch V} (hc : c ∈ pre) {s : Sample V}
    (hs : s ∈ later.flatMap Batch.samples) : bucketTime c < s.timestamp := by
  subst hsplit
  obtain ⟨d, hd, hsd⟩ := List.mem_flatMap.mp hs
  rw [hok.uniform d (List.mem_append_right _ hd) s hsd]
  exact (List.pairwise_append.mp hok.ascending).2.2 c hc d hd

/-- The distinct `UnixNano` values of a batch, ascending. -/
def bucketKeys (b : Batch V) : List Int :=
  ((Lib.groupBy (fun s : Sample V => Time.unixNano s.timestamp) b.samples).map
    Prod.fst).insertionSort (· ≤ ·)

/-- The samples of a batch with one `UnixNano` value. -/
def bucketOf (b : Batch V) (k : Int) : Batch V :=
  { key := b.key, samples := b.samples.filter fun s => Time.unixNano s.timestamp = k }

theorem splitByBucket_eq (b : Batch V) : splitByBucket b = (bucketKeys b).map (bucketOf b) := by
  unfold splitByBucket bucketKeys bucketOf
  refine List.map_congr_left fun k _ => ?_
  rw [Lib.lookupGroup_groupBy]

/-! ### The keys -/

theorem bucketKeys_nodup (b : Batch V) : (bucketKeys b).Nodup := by
  rw [bucketKeys, (List.perm_insertionSort _ _).nodup_iff]
  exact Lib.keys_groupBy_nodup _ _

theorem bucketKeys_sorted (b : Batch V) : (bucketKeys b).Pairwise (· < ·) := by
  have hle : (bucketKeys b).Pairwise (· ≤ ·) := List.pairwise_insertionSort _ _
  refine (List.Pairwise.and hle (bucketKeys_nodup b)).imp ?_
  rintro i j ⟨h, hne⟩
  exact lt_of_le_of_ne h hne

theorem mem_bucketKeys {b : Batch V} {k : Int} :
    k ∈ bucketKeys b ↔ ∃ s ∈ b.samples, Time.unixNano s.timestamp = k := by
  rw [bucketKeys, List.mem_insertionSort, Lib.mem_keys_groupBy, List.mem_map]

/-! ### One bucket -/

theorem mem_bucketOf {b : Batch V} {k : Int} {s : Sample V} :
    s ∈ (bucketOf b k).samples ↔ s ∈ b.samples ∧ Time.unixNano s.timestamp = k := by
  simp [bucketOf]

theorem bucketOf_ne_nil {b : Batch V} {k : Int} (hk : k ∈ bucketKeys b) :
    (bucketOf b k).samples ≠ [] := by
  obtain ⟨s, hs, hval⟩ := mem_bucketKeys.mp hk
  exact List.ne_nil_of_mem (mem_bucketOf.mpr ⟨hs, hval⟩)

theorem timestamp_of_mem_bucketOf {b : Batch V}
    (hrange : ∀ s ∈ b.samples, Time.InUnixNanoRange s.timestamp) {k : Int} {s : Sample V}
    (hs : s ∈ (bucketOf b k).samples) : s.timestamp = k + Time.unixEpoch := by
  obtain ⟨hmem, hkey⟩ := mem_bucketOf.mp hs
  rw [Time.unixNano_of_inRange (hrange s hmem)] at hkey
  omega

theorem bucketTime_bucketOf {b : Batch V}
    (hrange : ∀ s ∈ b.samples, Time.InUnixNanoRange s.timestamp) {k : Int}
    (hk : k ∈ bucketKeys b) : bucketTime (bucketOf b k) = k + Time.unixEpoch := by
  unfold bucketTime
  cases hs : (bucketOf b k).samples with
  | nil => exact absurd hs (bucketOf_ne_nil hk)
  | cons s rest => exact timestamp_of_mem_bucketOf hrange (s := s) (by simp [hs])

/-! ### The whole split -/

theorem splitByBucket_ok {b : Batch V}
    (hrange : ∀ s ∈ b.samples, Time.InUnixNanoRange s.timestamp) :
    BucketsOK (splitByBucket b) := by
  rw [splitByBucket_eq]
  refine ⟨?_, ?_, ?_⟩
  · intro c hc
    obtain ⟨k, hk, rfl⟩ := List.mem_map.mp hc
    exact bucketOf_ne_nil hk
  · intro c hc s hs
    obtain ⟨k, hk, rfl⟩ := List.mem_map.mp hc
    rw [bucketTime_bucketOf hrange hk]
    exact timestamp_of_mem_bucketOf hrange hs
  · rw [List.pairwise_map]
    refine (bucketKeys_sorted b).imp_of_mem ?_
    intro j k hj hk hlt
    rw [bucketTime_bucketOf hrange hj, bucketTime_bucketOf hrange hk]
    omega

/-- Every sample is in exactly one bucket. -/
theorem splitByBucket_perm (b : Batch V) :
    ((splitByBucket b).flatMap Batch.samples).Perm b.samples := by
  rw [splitByBucket_eq, List.flatMap_map]
  refine Lib.flatMap_filter_perm (fun s : Sample V => Time.unixNano s.timestamp) _ _
    (bucketKeys_nodup b) ?_
  intro s hs
  exact mem_bucketKeys.mpr ⟨s, hs, rfl⟩

/-- **The bucket of an instant** whose `UnixNano` no other sample has. -/
theorem filter_splitByBucket {b : Batch V} {e : Int}
    (hown : ∀ s ∈ b.samples, Time.unixNano s.timestamp = Time.unixNano e → s.timestamp = e)
    (he : ∃ s ∈ b.samples, s.timestamp = e) :
    (splitByBucket b).filter (fun c => bucketTime c = e) =
      [{ key := b.key, samples := b.samples.filter fun s => s.timestamp = e }] := by
  have htime : ∀ k ∈ bucketKeys b, bucketTime (bucketOf b k) = e ↔ k = Time.unixNano e := by
    intro k hk
    unfold bucketTime
    rcases hs : (bucketOf b k).samples with _ | ⟨s, rest⟩
    · exact absurd hs (bucketOf_ne_nil hk)
    · obtain ⟨hmem, hkey⟩ := mem_bucketOf.mp (show s ∈ (bucketOf b k).samples by simp [hs])
      show s.timestamp = e ↔ _
      constructor
      · rintro rfl
        exact hkey.symm
      · rintro rfl
        exact hown s hmem hkey
  have hkeys : (bucketKeys b).filter ((fun c => decide (bucketTime c = e)) ∘ bucketOf b) =
      [Time.unixNano e] := by
    have hfilter : (bucketKeys b).filter ((fun c => decide (bucketTime c = e)) ∘ bucketOf b) =
        (bucketKeys b).filter fun k => k = Time.unixNano e :=
      List.filter_congr fun k hk => by simpa using htime k hk
    have hmem : Time.unixNano e ∈ bucketKeys b := by
      obtain ⟨s, hs, rfl⟩ := he
      exact mem_bucketKeys.mpr ⟨s, hs, rfl⟩
    rw [hfilter, List.filter_eq, List.count_eq_one_of_mem (bucketKeys_nodup b) hmem]
    rfl
  rw [splitByBucket_eq, List.filter_map, hkeys, List.map_singleton, bucketOf]
  have hsamples : (b.samples.filter fun s => Time.unixNano s.timestamp = Time.unixNano e) =
      b.samples.filter fun s => s.timestamp = e := by
    refine List.filter_congr fun s hs => ?_
    rw [decide_eq_decide]
    exact ⟨hown s hs, fun h => by rw [h]⟩
  rw [hsamples]

end GenaiBridge
