/-
The metric encoding is canonical, and nothing is lost in it.

`Encode` sorts the samples by name, unit, labels and time, and opens a metric where name
or unit change.  The sort key tells samples apart that differ in one of the four, so the
order of the input does not matter; and the sort puts the samples of one name and unit
next to each other, so each name and unit has one metric.  A receiver that reads every
data point with the name and unit of its metric gets the samples back.
-/
import GenaiBridge.Proofs.Readback
import GenaiBridge.Proofs.Coalesce
import GenaiBridge.Lib.SortBy

namespace GenaiBridge

variable {V : Type}

/-! ### What is read -/

/-- What a receiver reads of a data point: the time in nanoseconds since the Unix epoch. -/
structure MetricReading (V : Type) where
  name : String
  unit : String
  labels : Labels
  time : Int
  value : V
deriving DecidableEq

/-- The reading of a data point under a name and a unit. -/
def NumberDataPoint.reading (name unit : String) (dp : NumberDataPoint V) : MetricReading V :=
  ⟨name, unit, readLabels dp.attributes, readUnixNano dp.timeUnixNano, dp.value⟩

/-- The readings of the data points of some metrics. -/
def metricReadings (metrics : List (GaugeMetric V)) : List (MetricReading V) :=
  metrics.flatMap fun m => m.dataPoints.map (NumberDataPoint.reading m.name m.unit)

/-- A sample as a receiver should read it. -/
def Sample.reading (s : Sample V) : MetricReading V :=
  ⟨s.name, s.unit, s.labels, s.timestamp - Time.unixEpoch, s.value⟩

theorem reading_dataPointOf {s : Sample V} (o : Lib.MapOrder)
    (h : Time.InUnixNanoRange s.timestamp) :
    (dataPointOf o s).reading s.name s.unit = s.reading := by
  simp only [dataPointOf, NumberDataPoint.reading, Sample.reading, readLabels_sortedKVs,
    readUnixNano_unixNano h]

/-! ### The order of the samples -/

/-- What the samples are sorted by. -/
def sampleKey (s : Sample V) : String ×ₗ String ×ₗ String ×ₗ Int :=
  toLex (s.name, toLex (s.unit, toLex (labelKey .stored s.labels, s.timestamp)))

theorem comparesBy_sampleKey (o : Lib.MapOrder) :
    Lib.ComparesBy (sampleKey : Sample V → _) (sampleBefore o) := by
  unfold sampleBefore
  simp only [labelKey_eq o, ← labelKey_eq .stored]
  exact .level _ (.level _ (.level _ (.last _)))

/-- The name, unit, labels and time of a sample. -/
def Sample.point (s : Sample V) : String × String × Labels × Int :=
  (s.name, s.unit, s.labels, s.timestamp)

theorem point_eq_of_sampleKey_eq {s s' : Sample V} (h : sampleKey s = sampleKey s') :
    s.point = s'.point := by
  simp only [sampleKey, toLex_inj, Prod.mk.injEq] at h
  obtain ⟨hname, hunit, hlabels, htime⟩ := h
  simp only [Sample.point, hname, hunit, labelKey_inj hlabels, htime]

/-- The name and unit a metric is for. -/
def GaugeMetric.nameUnit (m : GaugeMetric V) : String ×ₗ String := toLex (m.name, m.unit)

/-- The name and unit of a sample. -/
def Sample.nameUnit (s : Sample V) : String ×ₗ String := toLex (s.name, s.unit)

theorem nameUnit_le_of_sampleKey_le {s s' : Sample V} (h : sampleKey s ≤ sampleKey s') :
    s.nameUnit ≤ s'.nameUnit := by
  simp only [sampleKey, Sample.nameUnit, Prod.Lex.toLex_le_toLex] at h ⊢
  rcases h with hname | ⟨hname, hunit | ⟨hunit, -⟩⟩
  · exact Or.inl hname
  · exact Or.inr ⟨hname, hunit.le⟩
  · exact Or.inr ⟨hname, hunit.le⟩

/-! ### Metrics from sorted samples -/

theorem metricReadings_addDataPoint (metrics : List (GaugeMetric V)) (name unit : String)
    (dp : NumberDataPoint V) :
    metricReadings (addDataPoint metrics name unit dp) =
      metricReadings metrics ++ [dp.reading name unit] := by
  rcases List.eq_nil_or_concat metrics with rfl | ⟨before, cur, rfl⟩
  · rfl
  · simp only [addDataPoint, List.concat_eq_append, List.getLast?_concat]
    split
    · simp [metricReadings]
    · rename_i hsame
      obtain ⟨hname, hunit⟩ := not_or.mp hsame
      rw [not_not] at hname hunit
      simp [metricReadings, hname, hunit]

theorem nameUnits_addDataPoint (metrics : List (GaugeMetric V)) (s : Sample V)
    (dp : NumberDataPoint V) :
    (addDataPoint metrics s.name s.unit dp).map GaugeMetric.nameUnit =
      if (metrics.map GaugeMetric.nameUnit).getLast? = some s.nameUnit then
        metrics.map GaugeMetric.nameUnit
      else metrics.map GaugeMetric.nameUnit ++ [s.nameUnit] := by
  rcases List.eq_nil_or_concat metrics with rfl | ⟨before, cur, rfl⟩
  · rfl
  · have hiff : (cur.name ≠ s.name ∨ cur.unit ≠ s.unit) ↔ ¬cur.nameUnit = s.nameUnit := by
      simp only [GaugeMetric.nameUnit, Sample.nameUnit, toLex_inj, Prod.mk.injEq]
      tauto
    simp only [addDataPoint, List.concat_eq_append, List.getLast?_concat, List.map_append,
      List.map_cons, List.map_nil, Option.some.injEq, hiff]
    by_cases hsame : cur.nameUnit = s.nameUnit
    · rw [if_neg (not_not.mpr hsame), if_pos hsame, List.dropLast_concat, List.map_append]
      rfl
    · rw [if_pos hsame, if_neg hsame, List.map_append, List.map_append]
      rfl

/-- The samples that can be encoded. -/
def Sample.Encodable (s : Sample V) : Prop := s.kind = .gauge ∧ s.temporality ≠ .delta

theorem groupMetrics_cons {o : Lib.MapOrder} {metrics : List (GaugeMetric V)} {s : Sample V}
    {rest : List (Sample V)} (h : s.Encodable) :
    groupMetrics o metrics (s :: rest) =
      groupMetrics o (addDataPoint metrics s.name s.unit (dataPointOf o s)) rest := by
  rw [groupMetrics, if_neg h.2, if_neg (not_not.mpr h.1)]

theorem groupMetrics_readings {samples : List (Sample V)} (henc : ∀ s ∈ samples, s.Encodable)
    (o : Lib.MapOrder) (metrics : List (GaugeMetric V)) :
    ∃ out, groupMetrics o metrics samples = .ok out ∧
      metricReadings out = metricReadings metrics ++
        samples.map fun s => (dataPointOf o s).reading s.name s.unit := by
  induction samples generalizing metrics with
  | nil => exact ⟨metrics, rfl, by simp⟩
  | cons s rest ih =>
    obtain ⟨hs, hrest⟩ := List.forall_mem_cons.mp henc
    obtain ⟨out, hout, hread⟩ := ih hrest (addDataPoint metrics s.name s.unit (dataPointOf o s))
    refine ⟨out, by rw [groupMetrics_cons hs, hout], ?_⟩
    rw [hread, metricReadings_addDataPoint, List.append_assoc]
    rfl

/-- **The loop opens one metric for a name and unit.**  The metrics there are in order and none of
them is after the samples to come, which are in order too. -/
theorem groupMetrics_nameUnits {samples : List (Sample V)} (henc : ∀ s ∈ samples, s.Encodable)
    (hsorted : samples.Pairwise fun a b => a.nameUnit ≤ b.nameUnit) {o : Lib.MapOrder}
    {metrics out : List (GaugeMetric V)}
    (hmetrics : (metrics.map GaugeMetric.nameUnit).Pairwise (· < ·))
    (hle : ∀ k ∈ metrics.map GaugeMetric.nameUnit, ∀ s ∈ samples, k ≤ s.nameUnit)
    (h : groupMetrics o metrics samples = .ok out) :
    (out.map GaugeMetric.nameUnit).Pairwise (· < ·) ∧ ∀ k, k ∈ out.map GaugeMetric.nameUnit ↔
      k ∈ metrics.map GaugeMetric.nameUnit ∨ k ∈ samples.map Sample.nameUnit := by
  induction samples generalizing metrics with
  | nil =>
    obtain rfl := Except.ok.inj h
    exact ⟨hmetrics, by simp⟩
  | cons s rest ih =>
    obtain ⟨hs, hrest⟩ := List.forall_mem_cons.mp henc
    obtain ⟨hhead, htail⟩ := List.pairwise_cons.mp hsorted
    have hbefore : ∀ k ∈ metrics.map GaugeMetric.nameUnit, k ≤ s.nameUnit := fun k hk =>
      hle k hk s (by simp)
    have hkeys := nameUnits_addDataPoint metrics s (dataPointOf o s)
    rw [groupMetrics_cons hs] at h
    by_cases hlast : (metrics.map GaugeMetric.nameUnit).getLast? = some s.nameUnit
    · rw [if_pos hlast] at hkeys
      have hmem : s.nameUnit ∈ metrics.map GaugeMetric.nameUnit := List.mem_of_getLast? hlast
      obtain ⟨hout, hiff⟩ := ih hrest htail (hkeys ▸ hmetrics)
        (fun k hk t ht => hle k (hkeys ▸ hk) t (List.mem_cons_of_mem _ ht)) h
      refine ⟨hout, fun k => ?_⟩
      rw [hiff k, hkeys, List.map_cons, List.mem_cons]
      constructor
      · rintro (hk | hk)
        · exact Or.inl hk
        · exact Or.inr (Or.inr hk)
      · rintro (hk | rfl | hk)
        · exact Or.inl hk
        · exact Or.inl hmem
        · exact Or.inr hk
    · rw [if_neg hlast] at hkeys
      -- the last metric is another one, so all of them are before the sample
      have hlt : ∀ k ∈ metrics.map GaugeMetric.nameUnit, k < s.nameUnit := by
        intro k hk
        obtain ⟨before, cur, hsplit⟩ := (List.eq_nil_or_concat _).resolve_left
          (List.ne_nil_of_mem hk)
        rw [hsplit, List.concat_eq_append] at hk hmetrics hlast hbefore
        rw [List.getLast?_concat, Option.some.injEq] at hlast
        have hcur : cur < s.nameUnit := lt_of_le_of_ne (hbefore cur (by simp)) hlast
        rcases List.mem_append.mp hk with hk | hk
        · exact lt_trans ((List.pairwise_append.mp hmetrics).2.2 k hk cur (by simp)) hcur
        · rwa [List.mem_singleton.mp hk]
      have hnext : ((addDataPoint metrics s.name s.unit (dataPointOf o s)).map
          GaugeMetric.nameUnit).Pairwise (· < ·) := by
        rw [hkeys]
        refine List.pairwise_append.mpr ⟨hmetrics, List.pairwise_singleton _ _, ?_⟩
        intro k hk t ht
        rw [List.mem_singleton.mp ht]
        exact hlt k hk
      have hnextLe : ∀ k ∈ (addDataPoint metrics s.name s.unit (dataPointOf o s)).map
          GaugeMetric.nameUnit, ∀ t ∈ rest, k ≤ t.nameUnit := by
        intro k hk t ht
        rw [hkeys, List.mem_append, List.mem_singleton] at hk
        rcases hk with hk | rfl
        · exact hle k hk t (List.mem_cons_of_mem _ ht)
        · exact hhead t ht
      obtain ⟨hout, hiff⟩ := ih hrest htail hnext hnextLe h
      refine ⟨hout, fun k => ?_⟩
      rw [hiff k, hkeys, List.map_cons, List.mem_append, List.mem_singleton, List.mem_cons,
        or_assoc]

/-! ### The message -/

/-- With a limit of one, the cap on data points keeps no two samples of one point. -/
theorem coalesceDPM_one_points [LT V] [DecidableLT V] (samples : List (Sample V)) :
    ((coalesceDPM samples 1).1.map Sample.point).Nodup := by
  refine List.pairwise_map.mpr ((coalesceDPM_one_pairwise samples).imp fun hne heq => hne ?_)
  simp only [Sample.point, Prod.mk.injEq] at heq
  obtain ⟨hname, hunit, hlabels, htime⟩ := heq
  simp only [dpmKey, seriesKey, hname, hunit, hlabels, htime]

/-- **The metric encoding is canonical and faithful.**  Samples that `Encode` accepts, no two of one
name, unit, label map and time, have one message: whatever their order is and whatever order the
maps are visited in.  It has one metric for each name and unit, and its data points read back as the
samples.  The cap on data points, with a limit of one, leaves such samples. -/
theorem metric_encoding_faithful [LT V] [DecidableLT V] (identity : Labels)
    (samples : List (Sample V))
    (henc : ∀ s ∈ samples, s.kind = .gauge ∧ s.temporality ≠ .delta)
    (hrange : ∀ s ∈ samples, Time.InUnixNanoRange s.timestamp)
    (hpoints : (samples.map Sample.point).Nodup) :
    (∃ rm, (∀ o samples', samples'.Perm samples →
        resourceMetrics o identity samples' = .ok rm) ∧
      (rm.metrics.map fun m => (m.name, m.unit)).Nodup ∧
      (∀ p, p ∈ (rm.metrics.map fun m => (m.name, m.unit)) ↔
        p ∈ samples.map fun s => (s.name, s.unit)) ∧
      (metricReadings rm.metrics).Perm (samples.map Sample.reading)) ∧
    ∀ all : List (Sample V), ((coalesceDPM all 1).1.map Sample.point).Nodup := by
  refine ⟨?_, coalesceDPM_one_points⟩
  set sorted := samples.insertionSort fun a b => !sampleBefore .stored b a with hsorted
  have hperm : sorted.Perm samples := List.perm_insertionSort _ samples
  have hsortedEnc : ∀ s ∈ sorted, s.Encodable := fun s hs => henc s (hperm.subset hs)
  obtain ⟨metrics, hmetrics, hread⟩ := groupMetrics_readings hsortedEnc .stored []
  have hkeys := groupMetrics_nameUnits hsortedEnc
    (((comparesBy_sampleKey .stored).pairwise_sort samples).imp nameUnit_le_of_sampleKey_le)
    (by simp) (by simp) hmetrics
  refine ⟨⟨sortedKVs .stored identity, scopeName, metrics⟩, fun o samples' hperm' => ?_, ?_, ?_, ?_⟩
  · have hinj : ∀ a ∈ samples', ∀ b ∈ samples', sampleKey a = sampleKey b → a = b :=
      fun a ha b hb heq => List.inj_on_of_nodup_map hpoints (hperm'.subset ha) (hperm'.subset hb)
        (point_eq_of_sampleKey_eq heq)
    rw [resourceMetrics_order o .stored, resourceMetrics,
      (comparesBy_sampleKey .stored).sort_eq_of_perm hperm' hinj, ← hsorted, hmetrics]
    rfl
  · have hnodup := hkeys.1.imp fun h => ne_of_lt h
    exact List.pairwise_map.mpr (List.pairwise_map.mp hnodup)
  · intro p
    have hp := hkeys.2 (toLex p)
    simp only [List.map_nil, List.not_mem_nil, false_or, (hperm.map _).mem_iff] at hp
    exact hp
  · rw [hread]
    have hsame : (sorted.map fun s => (dataPointOf .stored s).reading s.name s.unit) =
        sorted.map Sample.reading :=
      List.map_congr_left fun s hs => reading_dataPointOf .stored (hrange s (hperm.subset hs))
    rw [hsame]
    exact hperm.map _

/-- Two samples at the Unix epoch whose labels a plain join could not tell apart. -/
private def joinedLabels : List (Sample Int) :=
  [{ name := "cost", unit := "USD", value := 1, timestamp := Time.unixEpoch
     labels := Lib.SortedMap.empty.insert "a" "b;c=d" },
   { name := "cost", unit := "USD", value := 2, timestamp := Time.unixEpoch
     labels := (Lib.SortedMap.empty.insert "a" "b").insert "c" "d" }]

/-- They are two data points of one metric. -/
theorem metric_encoding_joined_labels :
    ∃ rm, (∀ o, resourceMetrics o .empty joinedLabels.reverse = .ok rm) ∧
      (∀ p, p ∈ (rm.metrics.map fun m => (m.name, m.unit)) ↔ p = ("cost", "USD")) ∧
      (metricReadings rm.metrics).Perm (joinedLabels.map Sample.reading) := by
  obtain ⟨rm, hrm, -, hkeys, hread⟩ := (metric_encoding_faithful .empty joinedLabels (by decide)
    (by simp [joinedLabels, Time.InUnixNanoRange, minInt64, maxInt64]) (by decide)).1
  exact ⟨rm, fun o => hrm o _ (List.reverse_perm _), by simpa [joinedLabels] using hkeys, hread⟩

end GenaiBridge
