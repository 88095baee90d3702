/-
What the history of emitted buckets reports, and what it keeps.

A key stands for one series and one bucket's end, as long as `UnixNano` tells the ends
apart.  Then a call reports the samples whose bucket is remembered with another value, and
leaves the values that were observed last, of the buckets within the band; the two maps
change together.
-/
import GenaiBridge.Bridge.Derive
import GenaiBridge.Proofs.SeriesKey

namespace GenaiBridge

open Lib (SortedMap)

variable {V : Type}

/-! ### Keys -/

/-- What a key stands for: a series and the end of a bucket. -/
def Sample.bucket (s : Sample V) : String × String × Labels × Int :=
  (s.name, s.unit, s.labels, s.timestamp)

/-- **Two samples have one key** just if they are of one series and their timestamps are congruent
modulo 2^64 nanoseconds. -/
theorem revisionKey_eq_iff {s s' : Sample V} : revisionKey s = revisionKey s' ↔
    (s.name = s'.name ∧ s.unit = s'.unit ∧ s.labels = s'.labels) ∧
      18446744073709551616 ∣ s.timestamp - s'.timestamp := by
  rw [← Time.unixNano_eq_iff]
  constructor
  · intro h
    have htext := congrArg String.toList h
    simp only [revisionKey, String.toList_append, List.append_assoc, Lib.toList_toString] at htext
    have hfree : ∀ n, '@' ∉ Lib.decimal n := fun n hmem => by
      rcases Lib.mem_decimal hmem with h | h <;> cases h
    have hlast := Lib.separator_append_inj (hfree _) (hfree _) htext
    rw [hlast, List.append_cancel_right_eq, String.toList_inj] at htext
    exact ⟨eq_of_seriesKey_eq htext, Lib.decimal_injective hlast⟩
  · rintro ⟨⟨hname, hunit, hlabels⟩, hnano⟩
    unfold revisionKey seriesKey
    rw [hname, hunit, hlabels, hnano]

namespace RevisionHistory

/-! ### One call -/

/-- Eviction takes a key out of both maps, just if it is listed with a time before the cutoff. -/
theorem get?_evictEntries (cutoff : Int) (k : String) : ∀ (entries : List (String × Int))
    (h : RevisionHistory V),
    ((entries.foldl (evictEntry cutoff) h).seen.get? k,
      (entries.foldl (evictEntry cutoff) h).when.get? k) =
      if ∃ e ∈ entries, e.1 = k ∧ e.2 < cutoff then (none, none)
      else (h.seen.get? k, h.when.get? k) := by
  intro entries
  induction entries with
  | nil => simp
  | cons e entries ih =>
    intro h
    have hstep : ((evictEntry cutoff h e).seen.get? k, (evictEntry cutoff h e).when.get? k) =
        if e.1 = k ∧ e.2 < cutoff then (none, none) else (h.seen.get? k, h.when.get? k) := by
      unfold evictEntry
      by_cases hold : e.2 < cutoff
      · by_cases hk : k = e.1
        · simp [hold, hk, SortedMap.get?_erase]
        · simp [hold, hk, Ne.symm hk, SortedMap.get?_erase]
      · simp [hold]
    rw [List.foldl_cons, ih, hstep]
    by_cases hhead : e.1 = k ∧ e.2 < cutoff
    · simp [hhead]
    · simp only [List.exists_mem_cons_iff, hhead, false_or, if_false]

/-- **What eviction leaves** under a key. -/
theorem get?_evict (h : RevisionHistory V) (now : Int) (k : String) :
    ((∃ t, h.when.get? k = some t ∧ t < Time.addNeg now h.band) ∧
      (h.evict now).seen.get? k = none ∧ (h.evict now).when.get? k = none) ∨
    ((∀ t, h.when.get? k = some t → Time.addNeg now h.band ≤ t) ∧
      (h.evict now).seen.get? k = h.seen.get? k ∧ (h.evict now).when.get? k = h.when.get? k) := by
  have hget := get?_evictEntries (Time.addNeg now h.band) k h.when.entries h
  by_cases hold : ∃ e ∈ h.when.entries, e.1 = k ∧ e.2 < Time.addNeg now h.band
  · rw [if_pos hold] at hget
    obtain ⟨⟨_, t⟩, hmem, rfl, hlt⟩ := hold
    exact .inl ⟨⟨t, SortedMap.get?_eq_some.mpr hmem, hlt⟩, Prod.mk.inj hget⟩
  · rw [if_neg hold] at hget
    refine .inr ⟨fun t ht => ?_, Prod.mk.inj hget⟩
    by_contra hlt
    exact hold ⟨(k, t), SortedMap.get?_eq_some.mp ht, rfl, not_le.mp hlt⟩

section Record

variable [BEq V]

/-- The history with one more sample. -/
def put (h : RevisionHistory V) (s : Sample V) : RevisionHistory V :=
  { h with
    seen := h.seen.insert (revisionKey s) s.value
    when := h.when.insert (revisionKey s) s.timestamp }

omit [BEq V] in
theorem get?_put_of_ne {h : RevisionHistory V} {s : Sample V} {k : String}
    (hk : k ≠ revisionKey s) :
    (h.put s).seen.get? k = h.seen.get? k ∧ (h.put s).when.get? k = h.when.get? k :=
  ⟨SortedMap.get?_insert_of_ne _ _ hk, SortedMap.get?_insert_of_ne _ _ hk⟩

/-- Whether a sample revises what a history remembers. -/
def revisedBy (h : RevisionHistory V) (s : Sample V) : Bool :=
  (h.seen.get? (revisionKey s)).any (· != s.value)

theorem record_cons (h : RevisionHistory V) (s : Sample V) (rest : List (Sample V)) :
    h.record (s :: rest) = ((if h.revisedBy s then [s.timestamp] else []) ++
      ((h.put s).record rest).1, ((h.put s).record rest).2) := by
  rw [record, revisedBy]
  cases h.seen.get? (revisionKey s) with
  | none => rfl
  | some prev => rfl

@[simp] theorem record_band : ∀ (samples : List (Sample V)) (h : RevisionHistory V),
    (h.record samples).2.band = h.band := by
  intro samples
  induction samples with
  | nil => exact fun _ => rfl
  | cons s rest ih => exact fun h => ih _

/-- The samples of a call, if their keys differ: those that revise something are reported, and all
of them are recorded. -/
theorem record_spec : ∀ {samples : List (Sample V)},
    samples.Pairwise (fun s s' => revisionKey s ≠ revisionKey s') → ∀ h : RevisionHistory V,
    (h.record samples).1 = (samples.filter h.revisedBy).map Sample.timestamp ∧
    (∀ s ∈ samples, (h.record samples).2.seen.get? (revisionKey s) = some s.value ∧
      (h.record samples).2.when.get? (revisionKey s) = some s.timestamp) ∧
    ∀ k, (∀ s ∈ samples, revisionKey s ≠ k) →
      (h.record samples).2.seen.get? k = h.seen.get? k ∧
      (h.record samples).2.when.get? k = h.when.get? k := by
  intro samples
  induction samples with
  | nil =>
    intro _ h
    exact ⟨rfl, by simp, fun _ _ => ⟨rfl, rfl⟩⟩
  | cons s rest ih =>
    intro hdiff h
    obtain ⟨hhead, hrest⟩ := List.pairwise_cons.mp hdiff
    rw [record_cons]
    set h₁ := h.put s with hh₁
    obtain ⟨hreported, hrecorded, hothers⟩ := ih hrest h₁
    have hkeep : ∀ s' ∈ rest, h₁.revisedBy s' = h.revisedBy s' := by
      intro s' hs'
      unfold revisedBy
      rw [hh₁, (get?_put_of_ne (hhead s' hs').symm).1]
    refine ⟨?_, List.forall_mem_cons.mpr ⟨?_, hrecorded⟩, fun k hk => ?_⟩
    · rw [hreported, List.filter_congr hkeep, List.filter_cons]
      by_cases hrevised : h.revisedBy s = true
      · simp [hrevised]
      · simp [hrevised]
    · obtain ⟨hseen, hwhen⟩ := hothers (revisionKey s) fun s' hs' => (hhead s' hs').symm
      exact ⟨hseen.trans (SortedMap.get?_insert_self _ _ _),
        hwhen.trans (SortedMap.get?_insert_self _ _ _)⟩
    · obtain ⟨hk, hk'⟩ := List.forall_mem_cons.mp hk
      obtain ⟨hseen, hwhen⟩ := hothers k hk'
      obtain ⟨hput, hput'⟩ := @get?_put_of_ne _ h s k hk.symm
      exact ⟨hseen.trans hput, hwhen.trans hput'⟩

/-! ### Runs -/

/-- A call of `observe`. -/
structure Observation (V : Type) where
  samples : List (Sample V)
  now : Int

/-- The history after calls, the latest one first. -/
def after (band : Int) : List (Observation V) → RevisionHistory V
  | [] => new band
  | c :: earlier => ((after band earlier).observe c.samples c.now).2

omit [BEq V] in
/-- A bucket was observed in a call, the latest one first, has not been evicted since, and last had
this value. -/
inductive Remembers (band : Int) :
    List (Observation V) → String × String × Labels × Int → V → Prop
  | observed {earlier : List (Observation V)} {c : Observation V} {s : Sample V}
      (hs : s ∈ c.samples) (hband : c.now - band ≤ s.timestamp) :
      Remembers band (c :: earlier) s.bucket s.value
  | kept {earlier : List (Observation V)} {c : Observation V}
      {b : String × String × Labels × Int} {v : V} (h : Remembers band earlier b v)
      (hnot : ∀ s ∈ c.samples, s.bucket ≠ b) (hband : c.now - band ≤ b.2.2.2) :
      Remembers band (c :: earlier) b v

omit [BEq V] in
theorem remembers_cons {band : Int} {earlier : List (Observation V)} {c : Observation V}
    {b : String × String × Labels × Int} {v : V} :
    Remembers band (c :: earlier) b v ↔ c.now - band ≤ b.2.2.2 ∧
      ((∃ s ∈ c.samples, s.bucket = b ∧ s.value = v) ∨
        (∀ s ∈ c.samples, s.bucket ≠ b) ∧ Remembers band earlier b v) := by
  constructor
  · intro h
    cases h with
    | observed hs hband => exact ⟨hband, .inl ⟨_, hs, rfl, rfl⟩⟩
    | kept h hnot hband => exact ⟨hband, .inr ⟨hnot, h⟩⟩
  · rintro ⟨hband, ⟨s, hs, rfl, rfl⟩ | ⟨hnot, h⟩⟩
    · exact .observed hs hband
    · exact .kept h hnot hband

omit [BEq V] in
theorem revisionKey_of_bucket_eq {s s' : Sample V} (h : s.bucket = s'.bucket) :
    revisionKey s = revisionKey s' := by
  simp only [Sample.bucket, Prod.mk.injEq] at h
  obtain ⟨hname, hunit, hlabels, htime⟩ := h
  exact revisionKey_eq_iff.mpr ⟨⟨hname, hunit, hlabels⟩, by rw [htime, sub_self]; exact dvd_zero _⟩

/-- What the history holds of one bucket is what is remembered of it. -/
def Agrees (h : RevisionHistory V) (s : Sample V) (P : V → Prop) : Prop :=
  (∀ v, h.seen.get? (revisionKey s) = some v ↔ P v) ∧
    ∀ t, h.when.get? (revisionKey s) = some t ↔ t = s.timestamp ∧ ∃ v, P v

/-- The history holds what is remembered, of the samples in `U`, and nothing else. -/
structure Tracks (band : Int) (U : Sample V → Prop) (calls : List (Observation V))
    (h : RevisionHistory V) : Prop where
  band_eq : h.band = band
  agrees : ∀ s, U s → h.Agrees s (Remembers band calls s.bucket)
  others : ∀ k, (∀ s, U s → revisionKey s ≠ k) → h.seen.get? k = none ∧ h.when.get? k = none

omit [BEq V] in
theorem agrees_evict {h : RevisionHistory V} {s : Sample V} {P : V → Prop} {cutoff now : Int}
    (hcutoff : Time.addNeg now h.band = cutoff) (hagrees : h.Agrees s P) :
    (h.evict now).Agrees s fun v => cutoff ≤ s.timestamp ∧ P v := by
  obtain ⟨hseen, hwhen⟩ := hagrees
  rcases get?_evict h now (revisionKey s) with ⟨⟨t, ht, hlt⟩, hs, hw⟩ | ⟨hle, hs, hw⟩
  · obtain ⟨rfl, -⟩ := (hwhen t).mp ht
    rw [hcutoff] at hlt
    constructor
    · intro v
      rw [hs]
      exact iff_of_false nofun fun h => absurd h.1 (not_le.mpr hlt)
    · intro t
      rw [hw]
      exact iff_of_false nofun fun ⟨_, _, h⟩ => absurd h.1 (not_le.mpr hlt)
  · rw [hcutoff] at hle
    have hband : ∀ v, P v → cutoff ≤ s.timestamp :=
      fun v hv => hle s.timestamp ((hwhen _).mpr ⟨rfl, v, hv⟩)
    constructor
    · intro v
      rw [hs, hseen]
      exact ⟨fun hv => ⟨hband v hv, hv⟩, And.right⟩
    · intro t
      rw [hw, hwhen]
      exact and_congr_right fun _ => exists_congr fun v => ⟨fun hv => ⟨hband v hv, hv⟩, And.right⟩

theorem agrees_record {h : RevisionHistory V} {c : Observation V} {s : Sample V} {P : V → Prop}
    (hagrees : h.Agrees s P) (hdiff : (c.samples.map Sample.bucket).Nodup)
    (hkeys : c.samples.Pairwise fun s s' => revisionKey s ≠ revisionKey s')
    (hs : ∀ s' ∈ c.samples, revisionKey s' = revisionKey s → s'.bucket = s.bucket) :
    (h.record c.samples).2.Agrees s fun v =>
      (∃ s' ∈ c.samples, s'.bucket = s.bucket ∧ s'.value = v) ∨
        (∀ s' ∈ c.samples, s'.bucket ≠ s.bucket) ∧ P v := by
  obtain ⟨-, hrecorded, hothers⟩ := record_spec hkeys h
  by_cases hobserved : ∃ s' ∈ c.samples, s'.bucket = s.bucket
  · obtain ⟨s₀, hs₀, hbucket⟩ := hobserved
    have hvalue : ∀ v, ((∃ s' ∈ c.samples, s'.bucket = s.bucket ∧ s'.value = v) ∨
        (∀ s' ∈ c.samples, s'.bucket ≠ s.bucket) ∧ P v) ↔ s₀.value = v := by
      intro v
      constructor
      · rintro (⟨s', hs', hbucket', rfl⟩ | ⟨hnot, -⟩)
        · rw [List.inj_on_of_nodup_map hdiff hs₀ hs' (hbucket.trans hbucket'.symm)]
        · exact absurd hbucket (hnot s₀ hs₀)
      · rintro rfl
        exact .inl ⟨s₀, hs₀, hbucket, rfl⟩
    have htime : s₀.timestamp = s.timestamp := congrArg (fun b => b.2.2.2) hbucket
    obtain ⟨hseen, hwhen⟩ := hrecorded s₀ hs₀
    rw [revisionKey_of_bucket_eq hbucket] at hseen hwhen
    simp only [Agrees, hvalue, hseen, hwhen, htime, Option.some.injEq, exists_eq', and_true]
    exact ⟨fun _ => trivial, fun _ => eq_comm⟩
  · have hnot : ∀ s' ∈ c.samples, s'.bucket ≠ s.bucket := fun s' hs' heq => hobserved ⟨s', hs', heq⟩
    obtain ⟨hseen, hwhen⟩ := hothers (revisionKey s) fun s' hs' heq => hnot s' hs' (hs s' hs' heq)
    have hvalue : ∀ v, ((∃ s' ∈ c.samples, s'.bucket = s.bucket ∧ s'.value = v) ∨
        (∀ s' ∈ c.samples, s'.bucket ≠ s.bucket) ∧ P v) ↔ P v := by
      intro v
      constructor
      · rintro (⟨s', hs', hbucket', -⟩ | ⟨-, hv⟩)
        · exact absurd hbucket' (hnot s' hs')
        · exact hv
      · exact fun hv => .inr ⟨hnot, hv⟩
    simp only [Agrees, hvalue, hseen, hwhen]
    exact hagrees

omit [BEq V] in
theorem pairwise_keys {U : Sample V → Prop}
    (hU : ∀ s s', U s → U s' → revisionKey s = revisionKey s' → s.bucket = s'.bucket)
    {samples : List (Sample V)} (hsamples : ∀ s ∈ samples, U s)
    (hdiff : (samples.map Sample.bucket).Nodup) :
    samples.Pairwise fun s s' => revisionKey s ≠ revisionKey s' := by
  rw [List.Nodup, List.pairwise_map] at hdiff
  exact hdiff.imp_of_mem fun hs hs' hne hkey =>
    hne (hU _ _ (hsamples _ hs) (hsamples _ hs') hkey)

omit [BEq V] in
@[simp] theorem evict_band (h : RevisionHistory V) (now : Int) : (h.evict now).band = h.band := by
  unfold evict
  generalize h.when.entries = entries
  generalize Time.addNeg now h.band = cutoff
  induction entries generalizing h with
  | nil => rfl
  | cons e entries ih =>
    rw [List.foldl_cons, ih]
    unfold evictEntry
    split <;> rfl

theorem tracks_observe {band : Int} (hlo : minInt64 < band)
    {U : Sample V → Prop}
    (hU : ∀ s s', U s → U s' → revisionKey s = revisionKey s' → s.bucket = s'.bucket)
    {calls : List (Observation V)} {h : RevisionHistory V} (htracks : Tracks band U calls h)
    {c : Observation V} (hc : ∀ s ∈ c.samples, U s)
    (hdiff : (c.samples.map Sample.bucket).Nodup) :
    Tracks band U (c :: calls) (h.observe c.samples c.now).2 := by
  have hkeys := pairwise_keys hU hc hdiff
  have hband : (h.record c.samples).2.band = band := by rw [record_band, htracks.band_eq]
  have hcutoff : Time.addNeg c.now (h.record c.samples).2.band = c.now - band := by
    rw [hband, Time.addNeg_of_ne hlo.ne']
  refine ⟨?_, fun s hs => ?_, fun k hk => ?_⟩
  · show ((h.record c.samples).2.evict c.now).band = band
    rw [evict_band, hband]
  · have hrecord := agrees_record (htracks.agrees s hs) hdiff hkeys
      fun s' hs' => hU s' s (hc s' hs') hs
    have hevict := agrees_evict hcutoff hrecord
    simp only [Agrees, remembers_cons]
    exact hevict
  · obtain ⟨hseen, hwhen⟩ := (record_spec hkeys h).2.2 k fun s hs => hk s (hc s hs)
    rw [(htracks.others k hk).1] at hseen
    rw [(htracks.others k hk).2] at hwhen
    show ((h.record c.samples).2.evict c.now).seen.get? k = none ∧
      ((h.record c.samples).2.evict c.now).when.get? k = none
    rcases get?_evict (h.record c.samples).2 c.now k with ⟨-, hnone⟩ | ⟨-, hsame, hsame'⟩
    · exact hnone
    · exact ⟨hsame.trans hseen, hsame'.trans hwhen⟩

omit [BEq V] in
theorem Tracks.exists_key {band : Int} {U : Sample V → Prop} {calls : List (Observation V)}
    {h : RevisionHistory V} (htracks : Tracks band U calls h) {k : String}
    (hk : h.seen.get? k ≠ none ∨ h.when.get? k ≠ none) : ∃ s, U s ∧ revisionKey s = k := by
  by_contra hnone
  have hothers := htracks.others k fun s hs hkey => hnone ⟨s, hs, hkey⟩
  exact hk.elim (fun h => h hothers.1) fun h => h hothers.2

/-- What the samples of the calls are told apart by: those of one call differ, and no two of one
series are a multiple of 2^64 nanoseconds apart. -/
structure ToldApart (calls : List (Observation V)) : Prop where
  buckets : ∀ c ∈ calls, (c.samples.map Sample.bucket).Nodup
  nano : ∀ c ∈ calls, ∀ c' ∈ calls, ∀ s ∈ c.samples, ∀ s' ∈ c'.samples,
    s.name = s'.name → s.unit = s'.unit → s.labels = s'.labels →
    18446744073709551616 ∣ s.timestamp - s'.timestamp → s.timestamp = s'.timestamp

omit [BEq V] in
/-- Timestamps that `UnixNano` represents are told apart. -/
theorem toldApart_of_inRange {calls : List (Observation V)}
    (hbuckets : ∀ c ∈ calls, (c.samples.map Sample.bucket).Nodup)
    (hrange : ∀ c ∈ calls, ∀ s ∈ c.samples, Time.InUnixNanoRange s.timestamp) :
    ToldApart calls := by
  refine ⟨hbuckets, fun c hc c' hc' s hs s' hs' _ _ _ hdvd => ?_⟩
  have hs := hrange c hc s hs
  have hs' := hrange c' hc' s' hs'
  unfold Time.InUnixNanoRange minInt64 maxInt64 at hs hs'
  omega

/-- The samples that some call observed. -/
def Observed (calls : List (Observation V)) (s : Sample V) : Prop := ∃ c ∈ calls, s ∈ c.samples

omit [BEq V] in
theorem ToldApart.key_inj {calls : List (Observation V)} (h : ToldApart calls) :
    ∀ s s', Observed calls s → Observed calls s' → revisionKey s = revisionKey s' →
      s.bucket = s'.bucket := by
  rintro s s' ⟨c, hc, hs⟩ ⟨c', hc', hs'⟩ hkey
  obtain ⟨⟨hname, hunit, hlabels⟩, hdvd⟩ := revisionKey_eq_iff.mp hkey
  have htime := h.nano c hc c' hc' s hs s' hs' hname hunit hlabels hdvd
  simp only [Sample.bucket, hname, hunit, hlabels, htime]

theorem tracks_after {band : Int} (hlo : minInt64 < band)
    {all : List (Observation V)} (hall : ToldApart all) : ∀ {calls : List (Observation V)},
    (∀ c ∈ calls, c ∈ all) → Tracks band (Observed all) calls (after band calls) := by
  intro calls
  induction calls with
  | nil =>
    intro _
    refine ⟨rfl, fun s _ => ⟨fun v => ?_, fun t => ?_⟩, fun _ _ => ⟨rfl, rfl⟩⟩
    · exact iff_of_false nofun nofun
    · exact iff_of_false nofun fun ⟨_, _, h⟩ => nomatch h
  | cons c calls ih =>
    intro hsub
    obtain ⟨hc, hsub⟩ := List.forall_mem_cons.mp hsub
    exact tracks_observe hlo hall.key_inj (ih hsub) (fun s hs => ⟨c, hc, hs⟩)
      (hall.buckets c hc)

/-- **Each revision is reported once.**  A call returns one timestamp for each of its samples whose
bucket was observed in an earlier call, has not been evicted since and last had another value.
After it the entries are buckets remembered, within the band, with the values observed last, and the
two maps have the same keys. -/
theorem revisions_reported_once {band : Int} (hlo : minInt64 < band)
    {c : Observation V} {earlier : List (Observation V)} (hcalls : ToldApart (c :: earlier)) :
    let r := (after band earlier).observe c.samples c.now
    (∃ picked : List (Sample V), picked.Sublist c.samples ∧
      (∀ s ∈ c.samples, s ∈ picked ↔
        ∃ v, Remembers band earlier s.bucket v ∧ (v != s.value) = true) ∧
      r.1 = picked.map Sample.timestamp) ∧
    (∀ k v, r.2.seen.get? k = some v → ∃ s : Sample V, revisionKey s = k ∧
      r.2.when.get? k = some s.timestamp ∧ c.now - band ≤ s.timestamp ∧
      Remembers band (c :: earlier) s.bucket v) ∧
    r.2.seen.keys = r.2.when.keys := by
  intro r
  have hbefore : Tracks band (Observed (c :: earlier)) earlier (after band earlier) :=
    tracks_after hlo hcalls fun _ hc => List.mem_cons_of_mem _ hc
  have hafter : Tracks band (Observed (c :: earlier)) (c :: earlier) r.2 :=
    tracks_after hlo hcalls fun _ hc => hc
  have hobserved : ∀ s ∈ c.samples, Observed (c :: earlier) s :=
    fun s hs => ⟨c, List.mem_cons_self, hs⟩
  have hkeys := pairwise_keys hcalls.key_inj hobserved (hcalls.buckets c List.mem_cons_self)
  refine ⟨⟨c.samples.filter (after band earlier).revisedBy, List.filter_sublist, fun s hs => ?_,
    (record_spec hkeys _).1⟩, fun k v hv => ?_, SortedMap.keys_eq_of_get? fun k => ?_⟩
  · rw [List.mem_filter, revisedBy, Option.any_eq_true]
    simp only [hs, true_and, (hbefore.agrees s (hobserved s hs)).1]
  · obtain ⟨s, hs, rfl⟩ := hafter.exists_key (.inl (by rw [hv]; exact Option.some_ne_none v))
    obtain ⟨hseen, hwhen⟩ := hafter.agrees s hs
    have hremembers := (hseen v).mp hv
    exact ⟨s, rfl, (hwhen _).mpr ⟨rfl, v, hremembers⟩, (remembers_cons.mp hremembers).1, hremembers⟩
  · by_cases hk : ∃ s, Observed (c :: earlier) s ∧ revisionKey s = k
    · obtain ⟨s, hs, rfl⟩ := hk
      obtain ⟨hseen, hwhen⟩ := hafter.agrees s hs
      rw [Bool.eq_iff_iff, Option.isSome_iff_exists, Option.isSome_iff_exists]
      simp only [hseen, hwhen, exists_eq_left]
    · obtain ⟨hseen, hwhen⟩ := hafter.others k fun s hs hkey => hk ⟨s, hs, hkey⟩
      rw [hseen, hwhen]
      rfl

end Record

/-- The requests of the minute that ends `n` minutes into June 2026. -/
def requestsAt (n value : Int) : Sample Int :=
  { name := "portkey_api_requests", value, timestamp := 63915868800 * second + n * minute }

/-- The second of two buckets changes between two calls. -/
theorem revisions_reported_once_changed :
    let first : Observation Int := ⟨[requestsAt 1 10, requestsAt 2 20], 63915868800 * second⟩
    let second : Observation Int := ⟨[requestsAt 1 10, requestsAt 2 999], 63915868800 * second⟩
    ∃ picked : List (Sample Int), requestsAt 2 999 ∈ picked ∧
      ((after (5 * minute) [first]).observe second.samples second.now).1 =
        picked.map Sample.timestamp := by
  intro first second
  have hcalls : ToldApart [second, first] := by
    refine toldApart_of_inRange (by decide +kernel) ?_
    unfold Time.InUnixNanoRange
    decide +kernel
  obtain ⟨⟨picked, -, hpicked, hrevised⟩, -⟩ :=
    @revisions_reported_once Int _ (5 * minute) (by decide) second [first] hcalls
  refine ⟨picked, (hpicked _ (by decide +kernel)).mpr ⟨20, ?_, by decide⟩, hrevised⟩
  exact .observed (c := first) (s := requestsAt 2 20) (by decide +kernel) (by decide)

/-- **A bucket 2^64 nanoseconds later is taken for a revision**: it was never observed, but has the
key of one that was. -/
theorem distant_bucket_reported :
    let first : Observation Int := ⟨[requestsAt 1 10], 63915868800 * second⟩
    let distant : Sample Int :=
      { requestsAt 1 20 with timestamp := (requestsAt 1 20).timestamp + 18446744073709551616 }
    let second : Observation Int := ⟨[distant], 63915868800 * second⟩
    (∀ c ∈ [second, first], (c.samples.map Sample.bucket).Nodup) ∧ first.now ≤ second.now ∧
    ((after (5 * minute) [first]).observe second.samples second.now).1 = [distant.timestamp] ∧
      ∀ v, ¬ Remembers (5 * minute) [first] distant.bucket v := by
  intro first distant second
  refine ⟨by decide +kernel, le_refl _, by decide +kernel, fun v h => ?_⟩
  obtain ⟨-, ⟨s, hs, hbucket, -⟩ | ⟨-, h⟩⟩ := remembers_cons.mp h
  · obtain rfl := List.mem_singleton.mp hs
    exact absurd hbucket (by decide +kernel)
  · cases h

end RevisionHistory

end GenaiBridge
