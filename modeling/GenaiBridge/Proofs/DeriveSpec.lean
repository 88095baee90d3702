/-
What `derive` computes, from its arguments alone.

The guard on the granularity looks at neighbours in the order of time.  Neighbours that
are whole steps apart make all points whole steps apart, so what it accepts does not
depend on how the points were ordered, and neither does what comes out: the points that
it accepts have times of their own, and only one way to be sorted.
-/
import GenaiBridge.Lib.SortBy
import GenaiBridge.Proofs.AnalyticsBatch
import Mathlib.Algebra.Ring.Divisibility.Basic

namespace GenaiBridge

open Lib (SortedMap)

variable {V : Type}

/-- The times of the data points of an answer. -/
def GraphResponse.times (r : GraphResponse V) : List Int := r.dataPoints.filterMap DataPoint.time

/-- Whether an error is `ErrGranularityUnexpected`. -/
def DeriveError.isGranularity : DeriveError → Bool
  | .badTimestamp _ => false
  | .granularityUnexpected _ _ => true

/-- The same answers, with the data points of each graph in another order. -/
def Reordered (resp resp' : SortedMap String (GraphResponse V)) : Prop :=
  List.Forall₂ (fun a b => a.1 = b.1 ∧ a.2.dataPoints.Perm b.2.dataPoints)
    resp.entries resp'.entries

/-- The metric, the label and the value of each sample prescribed for a data point.  Latencies come
in milliseconds and leave in seconds. -/
def pointReadings [Div V] [OfNat V 1000] (graph : String) (dp : DataPoint V) :
    List (String × Option (String × String) × V) :=
  match graph with
  | "requests" => [("requests", none, dp.total)]
  | "cost" => [("cost_usd", none, dp.total)]
  | "errors" => [("errors", none, dp.total)]
  | "users" => [("users", none, dp.total)]
  | "tokens" =>
    [("tokens", some ("token_type", "total"), dp.total),
      ("tokens", some ("token_type", "input"), dp.totalRequestUnits),
      ("tokens", some ("token_type", "output"), dp.totalResponseUnits)]
  | "latency" =>
    [("latency_seconds", some ("quantile", "p50"), dp.p50 / 1000),
      ("latency_seconds", some ("quantile", "p90"), dp.p90 / 1000),
      ("latency_seconds", some ("quantile", "p99"), dp.p99 / 1000),
      ("latency_seconds", some ("quantile", "avg"), dp.avg / 1000)]
  | _ => []

/-- The gauge of a reading, stamped with the end of its bucket. -/
def gauge (metricPrefix : String) (bend : Int) (r : String × Option (String × String) × V) :
    Sample V :=
  { name := metricPrefix ++ "_" ++ r.1
    kind := .gauge
    labels := r.2.1.elim .empty fun label => .insert .empty label.1 label.2
    value := r.2.2
    timestamp := bend }

/-- What is prescribed for a data point: a gauge for each of its readings, if its bucket ends after
`since` and not after the cutoff. -/
def prescribed [Div V] [OfNat V 1000] (metricPrefix : String) (since cutoff gran : Int)
    (startSemantics : Bool) (graph : String) (dp : DataPoint V) : List (Sample V) :=
  match dp.time with
  | none => []
  | some t =>
    let bend := if startSemantics then t + gran else t
    if since < bend ∧ bend ≤ cutoff then (pointReadings graph dp).map (gauge metricPrefix bend) else []

/-! ### The times of the points -/

/-- The points whose time can be read, with it. -/
def readable (dps : List (DataPoint V)) : List (Int × DataPoint V) :=
  dps.filterMap fun dp => dp.time.map fun t => (t, dp)

theorem map_fst_readable (dps : List (DataPoint V)) :
    (readable dps).map Prod.fst = dps.filterMap DataPoint.time := by
  unfold readable
  rw [List.map_filterMap]
  refine List.filterMap_congr ?_
  intro dp _
  cases dp.time with
  | none => rfl
  | some t => rfl

theorem timedPoints_readable {dps : List (DataPoint V)} (h : ∀ dp ∈ dps, dp.time.isSome) :
    timedPoints dps = .ok (readable dps) := by
  induction dps with
  | nil => rfl
  | cons dp rest ih =>
    obtain ⟨hdp, hrest⟩ := List.forall_mem_cons.mp h
    obtain ⟨t, ht⟩ := Option.isSome_iff_exists.mp hdp
    unfold timedPoints readable
    rw [ht, ih hrest, List.filterMap_cons, ht]
    rfl

theorem timedPoints_unreadable {dps : List (DataPoint V)} (h : ¬∀ dp ∈ dps, dp.time.isSome) :
    ∃ timestamp, timedPoints dps = .error (.badTimestamp timestamp) := by
  induction dps with
  | nil => exact absurd (fun dp hdp => absurd hdp List.not_mem_nil) h
  | cons dp rest ih =>
    unfold timedPoints
    cases ht : dp.time with
    | none => exact ⟨dp.timestamp, rfl⟩
    | some t =>
      have hrest : ¬∀ dp ∈ rest, dp.time.isSome := by
        intro hrest
        refine h (List.forall_mem_cons.mpr ⟨?_, hrest⟩)
        rw [ht]
        rfl
      obtain ⟨timestamp, hbad⟩ := ih hrest
      refine ⟨timestamp, ?_⟩
      dsimp only
      rw [hbad]
      rfl

/-! ### The guard on the granularity -/

theorem checkSteps_error {graph : String} {gran : Int} :
    ∀ {pts : List (Int × DataPoint V)}, checkSteps graph gran pts ≠ .ok () →
      ∃ step, checkSteps graph gran pts = .error (.granularityUnexpected graph step) := by
  intro pts
  induction pts with
  | nil =>
    intro h
    exact absurd rfl h
  | cons p rest ih =>
    cases rest with
    | nil =>
      intro h
      exact absurd rfl h
    | cons q rest =>
      rw [checkSteps_cons_cons]
      split
      · intro _
        exact ⟨_, rfl⟩
      · exact ih

theorem checkSteps_congr {graph : String} {gran : Int} :
    ∀ {pts pts' : List (Int × DataPoint V)}, pts.map Prod.fst = pts'.map Prod.fst →
      checkSteps graph gran pts = checkSteps graph gran pts' := by
  intro pts
  induction pts with
  | nil =>
    intro pts' h
    rw [List.map_eq_nil_iff.mp h.symm]
  | cons p rest ih =>
    intro pts' h
    obtain ⟨p', rest', rfl, hp, hrest⟩ := List.map_eq_cons_iff.mp h.symm
    have htail := ih hrest.symm
    cases rest with
    | nil =>
      rw [List.map_eq_nil_iff.mp hrest]
      rfl
    | cons q rest =>
      obtain ⟨q', rest', rfl, hq, -⟩ := List.map_eq_cons_iff.mp hrest
      rw [checkSteps_cons_cons, checkSteps_cons_cons, hp, hq, htail]

/-- Between instants less than 290 years apart no step saturates. -/
theorem goodStep_iff {gran : Int} {p q : Int × DataPoint V} (hspan : q.1 - p.1 < years290)
    (hback : p.1 - q.1 < years290) : GoodStep gran p q ↔ p.1 < q.1 ∧ gran ∣ q.1 - p.1 := by
  have hsub : Time.sub q.1 p.1 = q.1 - p.1 := by
    unfold Time.sub minInt64 maxInt64
    unfold years290 hour at hspan hback
    omega
  unfold GoodStep
  rw [hsub, ← Int.dvd_iff_tmod_eq_zero]
  constructor
  · rintro ⟨hpos, hdvd⟩
    exact ⟨by omega, hdvd⟩
  · rintro ⟨hlt, hdvd⟩
    exact ⟨by omega, hdvd⟩

/-- **Neighbours whole steps apart make all points whole steps apart**, in whatever order they were
given. -/
theorem checkSteps_sorted_iff {graph : String} {gran : Int} {pts : List (Int × DataPoint V)}
    (hspan : ∀ p ∈ pts, ∀ q ∈ pts, q.1 - p.1 < years290) :
    checkSteps graph gran (pts.insertionSort fun p q => p.1 ≤ q.1) = .ok () ↔
      (pts.map Prod.fst).Pairwise fun t u => t ≠ u ∧ gran ∣ u - t := by
  have hperm := List.perm_insertionSort (fun p q : Int × DataPoint V => p.1 ≤ q.1) pts
  have hsorted := Lib.pairwise_sort_key (Prod.fst : Int × DataPoint V → Int) pts
  have htrans := isTrans_steps (V := V) gran
  have hsymm : ∀ {p q : Int × DataPoint V}, p.1 ≠ q.1 ∧ gran ∣ q.1 - p.1 →
      q.1 ≠ p.1 ∧ gran ∣ p.1 - q.1 := by
    rintro p q ⟨hne, hdvd⟩
    exact ⟨hne.symm, dvd_sub_comm.mp hdvd⟩
  rw [checkSteps_ok, List.pairwise_map, ← hperm.pairwise_iff hsymm]
  have hchain : (pts.insertionSort fun p q => p.1 ≤ q.1).IsChain (GoodStep gran) ↔
      (pts.insertionSort fun p q => p.1 ≤ q.1).IsChain
        fun p q => p.1 < q.1 ∧ gran ∣ q.1 - p.1 := by
    have hstep : ∀ p ∈ pts.insertionSort (fun p q => p.1 ≤ q.1),
        ∀ q ∈ pts.insertionSort (fun p q => p.1 ≤ q.1),
        (GoodStep gran p q ↔ p.1 < q.1 ∧ gran ∣ q.1 - p.1) := by
      intro p hp q hq
      have hp := hperm.subset hp
      have hq := hperm.subset hq
      exact goodStep_iff (hspan p hp q hq) (hspan q hq p hp)
    exact List.IsChain.iff_of_mem_imp fun p q hp hq => hstep p hp q hq
  rw [hchain, List.isChain_iff_pairwise]
  constructor
  · intro h
    exact h.imp fun hpq => ⟨ne_of_lt hpq.1, hpq.2⟩
  · intro h
    exact hsorted.imp₂ (fun p q hle hpq => ⟨lt_of_le_of_ne hle hpq.1, hpq.2⟩) h

/-! ### One graph -/

/-- **The points that pass have one order.** -/
theorem sort_eq_of_increasing {pts pts' : List (Int × DataPoint V)} (hperm : pts.Perm pts')
    (hlt : (pts.insertionSort fun p q => p.1 ≤ q.1).Pairwise fun p q => p.1 < q.1)
    (hlt' : (pts'.insertionSort fun p q => p.1 ≤ q.1).Pairwise fun p q => p.1 < q.1) :
    (pts.insertionSort fun p q => p.1 ≤ q.1) = pts'.insertionSort fun p q => p.1 ≤ q.1 := by
  have hsorted : (pts.insertionSort fun p q => p.1 ≤ q.1).Perm
      (pts'.insertionSort fun p q => p.1 ≤ q.1) :=
    ((List.perm_insertionSort _ pts).trans hperm).trans (List.perm_insertionSort _ pts').symm
  exact hsorted.eq_of_pairwise (fun p q _ _ hpq hqp => absurd hqp (lt_asymm hpq)) hlt hlt'

variable [Div V] [OfNat V 1000] {metricPrefix graph : String} {since cutoff gran : Int}
  {startSemantics : Bool}

/-- What becomes of an answer whose times can be read. -/
theorem deriveGraph_readable {r : GraphResponse V} (h : ∀ dp ∈ r.dataPoints, dp.time.isSome) :
    deriveGraph metricPrefix since cutoff gran startSemantics graph r =
      (checkSteps graph gran ((readable r.dataPoints).insertionSort fun p q => p.1 ≤ q.1)).map
        fun _ => ((readable r.dataPoints).insertionSort fun p q => p.1 ≤ q.1).flatMap fun p =>
          if inRange since cutoff (bucketEnd gran startSemantics p.1) then
            pointSamples metricPrefix graph (bucketEnd gran startSemantics p.1) p.2
          else [] := by
  unfold deriveGraph
  rw [timedPoints_readable h]
  dsimp only
  cases checkSteps graph gran ((readable r.dataPoints).insertionSort fun p q => p.1 ≤ q.1) with
  | error e => rfl
  | ok _ => rfl

theorem deriveGraph_unreadable {r : GraphResponse V} (h : ¬∀ dp ∈ r.dataPoints, dp.time.isSome) :
    ∃ timestamp, deriveGraph metricPrefix since cutoff gran startSemantics graph r =
      .error (.badTimestamp timestamp) := by
  obtain ⟨timestamp, hbad⟩ := timedPoints_unreadable h
  refine ⟨timestamp, ?_⟩
  unfold deriveGraph
  rw [hbad]

theorem readable_of_deriveGraph {r : GraphResponse V} {out : List (Sample V)}
    (h : deriveGraph metricPrefix since cutoff gran startSemantics graph r = .ok out) :
    ∀ dp ∈ r.dataPoints, dp.time.isSome := by
  by_contra hbad
  obtain ⟨timestamp, herr⟩ := deriveGraph_unreadable hbad
  rw [herr] at h
  cases h

/-- **The samples of a point are the ones prescribed.** -/
theorem pointSamples_eq (hgraph : (metricSuffix graph).isSome) (bend : Int) (dp : DataPoint V) :
    pointSamples metricPrefix graph bend dp =
      (pointReadings graph dp).map (gauge metricPrefix bend) := by
  unfold metricSuffix at hgraph
  split at hgraph
  all_goals first | rfl | cases hgraph

theorem length_pointReadings (hgraph : (metricSuffix graph).isSome) (dp : DataPoint V) :
    (pointReadings graph dp).length =
      if graph = "latency" then 4 else if graph = "tokens" then 3 else 1 := by
  unfold metricSuffix at hgraph
  split at hgraph
  all_goals first | rfl | cases hgraph

theorem flatMap_readable (hgraph : (metricSuffix graph).isSome) (dps : List (DataPoint V)) :
    ((readable dps).flatMap fun p =>
      if inRange since cutoff (bucketEnd gran startSemantics p.1) then
        pointSamples metricPrefix graph (bucketEnd gran startSemantics p.1) p.2
      else []) =
      dps.flatMap (prescribed metricPrefix since cutoff gran startSemantics graph) := by
  induction dps with
  | nil => rfl
  | cons dp rest ih =>
    rw [List.flatMap_cons, ← ih]
    unfold readable prescribed
    rw [List.filterMap_cons]
    cases dp.time with
    | none => rfl
    | some t =>
      have hpoint := @pointSamples_eq V _ _ metricPrefix graph hgraph
        (bucketEnd gran startSemantics t) dp
      simp only [bucketEnd] at hpoint
      simp [inRange, bucketEnd, hpoint]

/-- **A graph that passes yields what is prescribed for its points.** -/
theorem deriveGraph_perm (hgraph : (metricSuffix graph).isSome) {r : GraphResponse V}
    {out : List (Sample V)}
    (h : deriveGraph metricPrefix since cutoff gran startSemantics graph r = .ok out) :
    out.Perm (r.dataPoints.flatMap
      (prescribed metricPrefix since cutoff gran startSemantics graph)) := by
  rw [deriveGraph_readable (readable_of_deriveGraph h)] at h
  obtain ⟨_, -, rfl⟩ := Lib.map_ok.mp h
  rw [← flatMap_readable hgraph]
  exact (List.perm_insertionSort _ _).flatMap_right _

/-- **A graph passes if its times are whole steps apart.** -/
theorem deriveGraph_ok_iff {r : GraphResponse V} (h : ∀ dp ∈ r.dataPoints, dp.time.isSome)
    (hspan : ∀ t ∈ r.times, ∀ u ∈ r.times, u - t < years290) :
    (∃ out, deriveGraph metricPrefix since cutoff gran startSemantics graph r = .ok out) ↔
      r.times.Pairwise fun t u => t ≠ u ∧ gran ∣ u - t := by
  have htimes : r.times = (readable r.dataPoints).map Prod.fst := (map_fst_readable _).symm
  rw [htimes] at hspan ⊢
  have hpoints : ∀ p ∈ readable r.dataPoints, ∀ q ∈ readable r.dataPoints,
      q.1 - p.1 < years290 := by
    intro p hp q hq
    exact hspan _ (List.mem_map_of_mem hp) _ (List.mem_map_of_mem hq)
  rw [← @checkSteps_sorted_iff V graph gran _ hpoints, deriveGraph_readable h]
  constructor
  · rintro ⟨out, hout⟩
    obtain ⟨_, hok, -⟩ := Lib.map_ok.mp hout
    exact hok
  · intro hok
    rw [hok]
    exact ⟨_, rfl⟩

/-- A graph whose times can be read fails in one way only. -/
theorem deriveGraph_error {r : GraphResponse V} (h : ∀ dp ∈ r.dataPoints, dp.time.isSome)
    {e : DeriveError} (herr : deriveGraph metricPrefix since cutoff gran startSemantics graph r =
      .error e) : ∃ step, e = .granularityUnexpected graph step := by
  rw [deriveGraph_readable h] at herr
  have hne : checkSteps graph gran
      ((readable r.dataPoints).insertionSort fun p q => p.1 ≤ q.1) ≠ .ok () := by
    intro hok
    rw [hok] at herr
    cases herr
  obtain ⟨step, hstep⟩ := checkSteps_error hne
  rw [hstep] at herr
  exact ⟨step, (Except.error.inj herr).symm⟩

/-- **The order of the points plays no part**, but for the timestamp that an error quotes. -/
theorem deriveGraph_reordered {r r' : GraphResponse V} (hperm : r.dataPoints.Perm r'.dataPoints) :
    (deriveGraph metricPrefix since cutoff gran startSemantics graph r).mapError
        DeriveError.isGranularity =
      (deriveGraph metricPrefix since cutoff gran startSemantics graph r').mapError
        DeriveError.isGranularity := by
  by_cases hread : ∀ dp ∈ r.dataPoints, dp.time.isSome
  · have hread' : ∀ dp ∈ r'.dataPoints, dp.time.isSome :=
      fun dp hdp => hread dp (hperm.symm.subset hdp)
    rw [deriveGraph_readable hread, deriveGraph_readable hread']
    have hpts : (readable r.dataPoints).Perm (readable r'.dataPoints) := hperm.filterMap _
    have hcheck : checkSteps graph gran
        ((readable r.dataPoints).insertionSort fun p q => p.1 ≤ q.1) =
        checkSteps graph gran
          ((readable r'.dataPoints).insertionSort fun p q => p.1 ≤ q.1) := by
      refine checkSteps_congr ?_
      rw [Lib.map_sort_key, Lib.map_sort_key]
      exact Lib.insertionSort_eq_of_perm (hpts.map _)
    by_cases hok : checkSteps graph gran
        ((readable r.dataPoints).insertionSort fun p q => p.1 ≤ q.1) = .ok ()
    · rw [sort_eq_of_increasing hpts (increasing_of_checkSteps hok)
        (increasing_of_checkSteps (hcheck ▸ hok))]
    · obtain ⟨step, hstep⟩ := checkSteps_error hok
      rw [← hcheck, hstep]
      rfl
  · have hread' : ¬∀ dp ∈ r'.dataPoints, dp.time.isSome :=
      fun h => hread fun dp hdp => h dp (hperm.subset hdp)
    obtain ⟨timestamp, hbad⟩ := @deriveGraph_unreadable V _ _ metricPrefix graph since cutoff gran
      startSemantics r hread
    obtain ⟨timestamp', hbad'⟩ := @deriveGraph_unreadable V _ _ metricPrefix graph since cutoff
      gran startSemantics r' hread'
    rw [hbad, hbad']
    rfl

omit [Div V] [OfNat V 1000] V in
theorem bucketEnd_inj {t u : Int} (h : bucketEnd gran startSemantics t =
    bucketEnd gran startSemantics u) : t = u := by
  unfold bucketEnd at h
  split at h
  · omega
  · exact h

/-- **The samples of a graph** differ, and have its name. -/
theorem deriveGraph_unique {r : GraphResponse V} {out : List (Sample V)}
    (h : deriveGraph metricPrefix since cutoff gran startSemantics graph r = .ok out) :
    (out.Pairwise fun a b => a.identity ≠ b.identity) ∧
      ∀ s ∈ out, s.name = nameFor metricPrefix graph := by
  rw [deriveGraph_readable (readable_of_deriveGraph h)] at h
  obtain ⟨_, hcheck, rfl⟩ := Lib.map_ok.mp h
  have hlt := increasing_of_checkSteps hcheck
  have hmem : ∀ (p : Int × DataPoint V) (s : Sample V),
      (s ∈ if inRange since cutoff (bucketEnd gran startSemantics p.1) then
        pointSamples metricPrefix graph (bucketEnd gran startSemantics p.1) p.2 else []) →
      s ∈ pointSamples metricPrefix graph (bucketEnd gran startSemantics p.1) p.2 := by
    intro p s hs
    split at hs
    · exact hs
    · cases hs
  refine ⟨List.pairwise_flatMap.mpr ⟨?_, ?_⟩, ?_⟩
  · intro p _
    split
    · exact (pointSamples_spec _ _ _ _).1.imp Separate.identity_ne
    · exact List.Pairwise.nil
  · refine hlt.imp ?_
    intro p q hpq a ha b hb heq
    have hends : a.timestamp = b.timestamp := congrArg (fun i => i.2.2) heq
    rw [timestamp_pointSamples (hmem p a ha), timestamp_pointSamples (hmem q b hb)] at hends
    exact ne_of_lt hpq (bucketEnd_inj hends)
  · intro s hs
    obtain ⟨p, -, hs⟩ := List.mem_flatMap.mp hs
    exact ((pointSamples_spec _ _ _ _).2 s (hmem p s hs)).1

/-! ### All graphs -/

/-- The loop over the graphs, up to what an error quotes. -/
theorem mapError_deriveGraphs_cons {k : DeriveError → Bool} (e : String × GraphResponse V)
    (rest : List (String × GraphResponse V)) :
    (deriveGraphs metricPrefix since cutoff gran startSemantics (e :: rest)).mapError k =
      (deriveGraph metricPrefix since cutoff gran startSemantics e.1 e.2).mapError k >>= fun out =>
        ((deriveGraphs metricPrefix since cutoff gran startSemantics rest).mapError k).map
          (out ++ ·) := by
  rw [deriveGraphs]
  cases deriveGraph metricPrefix since cutoff gran startSemantics e.1 e.2 with
  | error err => rfl
  | ok out =>
    cases deriveGraphs metricPrefix since cutoff gran startSemantics rest with
    | error err => rfl
    | ok tail => rfl

theorem deriveGraphs_reordered {graphs graphs' : List (String × GraphResponse V)}
    (h : List.Forall₂ (fun a b => a.1 = b.1 ∧ a.2.dataPoints.Perm b.2.dataPoints) graphs graphs') :
    (deriveGraphs metricPrefix since cutoff gran startSemantics graphs).mapError
        DeriveError.isGranularity =
      (deriveGraphs metricPrefix since cutoff gran startSemantics graphs').mapError
        DeriveError.isGranularity := by
  induction h with
  | nil => rfl
  | @cons a b graphs graphs' hab _ ih =>
    obtain ⟨hname, hperm⟩ := hab
    rw [mapError_deriveGraphs_cons, mapError_deriveGraphs_cons, ih, hname,
      deriveGraph_reordered hperm]

theorem deriveGraphs_ok_iff : ∀ {graphs : List (String × GraphResponse V)},
    (∃ out, deriveGraphs metricPrefix since cutoff gran startSemantics graphs = .ok out) ↔
      ∀ e ∈ graphs, ∃ out,
        deriveGraph metricPrefix since cutoff gran startSemantics e.1 e.2 = .ok out := by
  intro graphs
  induction graphs with
  | nil => exact iff_of_true ⟨[], rfl⟩ fun e he => absurd he List.not_mem_nil
  | cons e rest ih =>
    rw [List.forall_mem_cons, ← ih]
    constructor
    · rintro ⟨out, h⟩
      obtain ⟨head, tail, hhead, htail, -⟩ := deriveGraphs_cons.mp h
      exact ⟨⟨head, hhead⟩, tail, htail⟩
    · rintro ⟨⟨head, hhead⟩, tail, htail⟩
      exact ⟨head ++ tail, deriveGraphs_cons.mpr ⟨head, tail, hhead, htail, rfl⟩⟩

theorem deriveGraphs_error : ∀ {graphs : List (String × GraphResponse V)} {err : DeriveError},
    deriveGraphs metricPrefix since cutoff gran startSemantics graphs = .error err →
      ∃ e ∈ graphs,
        deriveGraph metricPrefix since cutoff gran startSemantics e.1 e.2 = .error err := by
  intro graphs
  induction graphs with
  | nil =>
    intro err h
    cases h
  | cons e rest ih =>
    intro err h
    rw [deriveGraphs] at h
    cases hhead : deriveGraph metricPrefix since cutoff gran startSemantics e.1 e.2 with
    | error err' =>
      rw [hhead] at h
      exact ⟨e, List.mem_cons_self, hhead.trans h⟩
    | ok head =>
      rw [hhead] at h
      cases htail : deriveGraphs metricPrefix since cutoff gran startSemantics rest with
      | error err' =>
        rw [htail] at h
        obtain rfl := Except.error.inj h
        obtain ⟨e', he', herr⟩ := ih htail
        exact ⟨e', List.mem_cons_of_mem _ he', herr⟩
      | ok tail =>
        rw [htail] at h
        cases h

theorem deriveGraphs_perm : ∀ {graphs : List (String × GraphResponse V)} {out : List (Sample V)},
    (∀ e ∈ graphs, (metricSuffix e.1).isSome) →
    deriveGraphs metricPrefix since cutoff gran startSemantics graphs = .ok out →
      out.Perm (graphs.flatMap fun e => e.2.dataPoints.flatMap
        (prescribed metricPrefix since cutoff gran startSemantics e.1)) := by
  intro graphs
  induction graphs with
  | nil =>
    intro out _ h
    obtain rfl := Except.ok.inj h
    exact List.Perm.refl _
  | cons e rest ih =>
    intro out hknown h
    obtain ⟨he, hrest⟩ := List.forall_mem_cons.mp hknown
    obtain ⟨head, tail, hhead, htail, rfl⟩ := deriveGraphs_cons.mp h
    rw [List.flatMap_cons]
    exact (deriveGraph_perm he hhead).append (ih hrest htail)

theorem deriveGraphs_unique : ∀ {graphs : List (String × GraphResponse V)} {out : List (Sample V)},
    (graphs.Pairwise fun a b => a.1 < b.1) → (∀ e ∈ graphs, (metricSuffix e.1).isSome) →
    deriveGraphs metricPrefix since cutoff gran startSemantics graphs = .ok out →
      (out.Pairwise fun a b => a.identity ≠ b.identity) ∧
        ∀ s ∈ out, ∃ e ∈ graphs, s.name = nameFor metricPrefix e.1 := by
  intro graphs
  induction graphs with
  | nil =>
    intro out _ _ h
    obtain rfl := Except.ok.inj h
    exact ⟨List.Pairwise.nil, fun s hs => absurd hs List.not_mem_nil⟩
  | cons e rest ih =>
    intro out hsorted hknown h
    obtain ⟨head, tail, hhead, htail, rfl⟩ := deriveGraphs_cons.mp h
    obtain ⟨hlt, hsorted⟩ := List.pairwise_cons.mp hsorted
    obtain ⟨he, hrest⟩ := List.forall_mem_cons.mp hknown
    obtain ⟨hunique, hname⟩ := deriveGraph_unique hhead
    obtain ⟨huniques, hnames⟩ := ih hsorted hrest htail
    refine ⟨List.pairwise_append.mpr ⟨hunique, huniques, ?_⟩, ?_⟩
    · intro a ha b hb heq
      obtain ⟨e', he', hb⟩ := hnames b hb
      have hsame : a.name = b.name := congrArg Prod.fst heq
      rw [hname a ha, hb] at hsame
      exact absurd (nameFor_inj he (hrest e' he') hsame) (ne_of_lt (hlt e' he'))
    · refine List.forall_mem_append.mpr ⟨?_, ?_⟩
      · intro s hs
        exact ⟨e, List.mem_cons_self, hname s hs⟩
      · intro s hs
        obtain ⟨e', he', hs⟩ := hnames s hs
        exact ⟨e', List.mem_cons_of_mem _ he', hs⟩

/-! ### `derive` -/

/-- **What `derive` computes.**  Of answers for known graphs whose times can be read and are close
enough for a duration, it succeeds on those whose times are whole steps apart and refuses the
others for their granularity.  What it yields are the samples prescribed for each point, no two of
them in one place, and the order of the points plays no part.  The delay is any but the least
duration, which is its own negation. -/
theorem derive_exact (resp : SortedMap String (GraphResponse V))
    (hknown : ∀ g ∈ resp.keys, (metricSuffix g).isSome) (metricPrefix : String)
    (since now settle gran : Int) (startSemantics : Bool) (_hgran : 0 < gran)
    (hsettle : settle ≠ minInt64) :
    ((∀ e ∈ resp.entries, (∀ dp ∈ e.2.dataPoints, dp.time.isSome) ∧
        ∀ t ∈ e.2.times, ∀ u ∈ e.2.times, u - t < years290) →
      ((∃ out, derive resp metricPrefix since now settle gran startSemantics = .ok out) ↔
        ∀ e ∈ resp.entries, e.2.times.Pairwise fun t u => t ≠ u ∧ t % gran = u % gran) ∧
      ∀ err, derive resp metricPrefix since now settle gran startSemantics = .error err →
        ∃ graph step, err = .granularityUnexpected graph step) ∧
    (∀ out, derive resp metricPrefix since now settle gran startSemantics = .ok out →
      out.Perm (resp.entries.flatMap fun e => e.2.dataPoints.flatMap
        (prescribed metricPrefix since (now - settle) gran startSemantics e.1)) ∧
      out.Pairwise fun a b => a.identity ≠ b.identity) ∧
    (∀ graph ∈ resp.keys, ∀ dp : DataPoint V, (pointReadings graph dp).length =
      if graph = "latency" then 4 else if graph = "tokens" then 3 else 1) ∧
    ∀ resp', Reordered resp resp' →
      (derive resp metricPrefix since now settle gran startSemantics).mapError
          DeriveError.isGranularity =
        (derive resp' metricPrefix since now settle gran startSemantics).mapError
          DeriveError.isGranularity := by
  refine ⟨?_, ?_, fun graph hgraph dp => length_pointReadings (hknown graph hgraph) dp,
    fun resp' h => deriveGraphs_reordered h⟩
  · intro hread
    refine ⟨?_, ?_⟩
    · unfold derive
      rw [deriveGraphs_ok_iff]
      refine forall₂_congr ?_
      intro e he
      obtain ⟨hparse, hspan⟩ := hread e he
      rw [deriveGraph_ok_iff hparse hspan]
      have hsteps : ∀ t u : Int, t ≠ u ∧ gran ∣ u - t ↔ t ≠ u ∧ t % gran = u % gran := by
        intro t u
        rw [@eq_comm Int (t % gran), Int.emod_eq_emod_iff_emod_sub_eq_zero,
          Int.dvd_iff_emod_eq_zero]
      simp only [hsteps]
    · intro err herr
      obtain ⟨e, he, herr⟩ := deriveGraphs_error herr
      obtain ⟨step, rfl⟩ := deriveGraph_error (hread e he).1 herr
      exact ⟨e.1, step, rfl⟩
  · intro out hout
    have hgraphs : ∀ e ∈ resp.entries, (metricSuffix e.1).isSome :=
      fun e he => hknown e.1 (List.mem_map_of_mem he)
    rw [← Time.addNeg_of_ne hsettle]
    exact ⟨deriveGraphs_perm hgraphs hout, (deriveGraphs_unique resp.sorted hgraphs hout).1⟩

/-- A data point with one number. -/
def countPoint (timestamp : String) (total : Int) : DataPoint Int :=
  { timestamp, total, totalRequestUnits := 0, totalResponseUnits := 0, avg := 0, p50 := 0, p90 := 0
    p99 := 0 }

/-- Two minutes of requests, the later one first, and a minute of latencies. -/
def twoGraphs : SortedMap String (GraphResponse Int) :=
  ⟨[("latency", ⟨[countPoint "2026-06-01T00:00:00Z" 0], false⟩),
    ("requests", ⟨[countPoint "2026-06-01T00:02:00Z" 5, countPoint "2026-06-01T00:00:00Z" 3],
      false⟩)], by decide⟩

/-- Both minutes of requests and the one of latencies have settled at one o'clock, five minutes
late. -/
theorem derive_exact_two_graphs :
    let now := 63915868800 * second + hour
    (∀ g ∈ twoGraphs.keys, (metricSuffix g).isSome) ∧
    (∃ out, derive twoGraphs "api" 0 now (5 * minute) minute true = .ok out) ∧
    ∀ out, derive twoGraphs "api" 0 now (5 * minute) minute true = .ok out →
      out.length = 6 ∧ out.Pairwise fun a b => a.identity ≠ b.identity := by
  intro now
  have hknown : ∀ g ∈ twoGraphs.keys, (metricSuffix g).isSome := by decide
  obtain ⟨hclass, hout, -, -⟩ := derive_exact twoGraphs hknown "api" 0 now (5 * minute)
    minute true (by decide) (by decide)
  refine ⟨hknown, (hclass (by decide +kernel)).1.mpr (by decide +kernel), ?_⟩
  intro out h
  obtain ⟨hperm, hunique⟩ := hout out h
  refine ⟨?_, hunique⟩
  rw [hperm.length_eq]
  decide +kernel

/-- **A delay of the least duration is taken for its opposite.**  `now` less that delay is in the
year 2318, but nothing comes out: the cutoff of `derive` is in the year 1734. -/
theorem derive_least_settle :
    let now := 63915868800 * second + hour
    (∀ g ∈ twoGraphs.keys, (metricSuffix g).isSome) ∧
    (∀ e ∈ twoGraphs.entries, (∀ dp ∈ e.2.dataPoints, dp.time.isSome) ∧
      ∀ t ∈ e.2.times, ∀ u ∈ e.2.times, u - t < years290) ∧
    derive twoGraphs "api" 0 now minInt64 minute true = .ok [] ∧
    ¬ List.Perm [] (twoGraphs.entries.flatMap fun e => e.2.dataPoints.flatMap
      (prescribed "api" 0 (now - minInt64) minute true e.1)) := by
  decide +kernel

end GenaiBridge
