/-
What `derive` makes of the answers of the API.

The loop over the graphs only ever looks at a data point to parse its time, compare
the end of its bucket with two bounds and copy its numbers into samples, so the ends
of the buckets a call emits are a set that can be written down: the minutes the API
answered for that end after `since` and no later than the cutoff.
-/
import GenaiBridge.Bridge.Derive
import GenaiBridge.Lib.Fallible
import Mathlib.Data.List.Chain

namespace GenaiBridge

variable {V : Type}

/-- The bucket ends samples are stamped with. -/
def ends (samples : List (Sample V)) : Set Int := {e | ∃ s ∈ samples, s.timestamp = e}

/-- An answer to the query `[lo, hi]`: one data point for every minute-aligned bucket `[b, b + 1m]`
that intersects the interval. -/
structure Answers (r : GraphResponse V) (lo hi : Int) : Prop where
  parses : ∀ dp ∈ r.dataPoints, dp.time.isSome
  once : (r.dataPoints.map DataPoint.time).Nodup
  bucket : ∀ b, some b ∈ r.dataPoints.map DataPoint.time ↔
    minute ∣ b ∧ b ≤ hi ∧ lo ≤ b + minute

/-- The ends of the minutes that intersect `[lo, hi]`, of those after `since` and up to `cutoff`. -/
def bucketEnds (lo hi since cutoff : Int) : Set Int :=
  {e | (minute ∣ e ∧ e - minute ≤ hi ∧ lo ≤ e) ∧ since < e ∧ e ≤ cutoff}

theorem ends_append (a b : List (Sample V)) : ends (a ++ b) = ends a ∪ ends b := by
  ext e
  simp [ends, or_and_right, exists_or]

/-! ### One graph -/

theorem timedPoints_cons {dp : DataPoint V} {rest : List (DataPoint V)}
    {pts : List (Int × DataPoint V)} (h : timedPoints (dp :: rest) = .ok pts) :
    ∃ t pts', dp.time = some t ∧ timedPoints rest = .ok pts' ∧ (t, dp) :: pts' = pts := by
  unfold timedPoints at h
  split at h
  · cases h
  · rename_i t ht
    obtain ⟨pts', hrest, hpts⟩ := Lib.map_ok.mp h
    exact ⟨t, pts', ht, hrest, hpts⟩

theorem timedPoints_spec {dps : List (DataPoint V)} {pts : List (Int × DataPoint V)}
    (h : timedPoints dps = .ok pts) (p : Int × DataPoint V) :
    p ∈ pts ↔ p.2 ∈ dps ∧ p.2.time = some p.1 := by
  induction dps generalizing pts with
  | nil =>
    obtain rfl : [] = pts := by simpa [timedPoints] using h
    simp
  | cons dp rest ih =>
    obtain ⟨t, pts', ht, hrest, rfl⟩ := timedPoints_cons h
    rw [List.mem_cons, List.mem_cons, ih hrest]
    constructor
    · rintro (rfl | ⟨hmem, htime⟩)
      · exact ⟨Or.inl rfl, ht⟩
      · exact ⟨Or.inr hmem, htime⟩
    · rintro ⟨heq | hmem, htime⟩
      · left
        rw [heq, ht] at htime
        exact Prod.ext (Option.some.inj htime).symm heq
      · exact Or.inr ⟨hmem, htime⟩

/-- A step that the guard lets pass. -/
def GoodStep (gran : Int) (p q : Int × DataPoint V) : Prop :=
  0 < Time.sub q.1 p.1 ∧ (Time.sub q.1 p.1).tmod gran = 0

theorem checkSteps_cons_cons (graph : String) (gran : Int) (p q : Int × DataPoint V)
    (rest : List (Int × DataPoint V)) : checkSteps graph gran (p :: q :: rest) =
      if Time.sub q.1 p.1 ≤ 0 ∨ (Time.sub q.1 p.1).tmod gran ≠ 0 then
        .error (.granularityUnexpected graph (Time.sub q.1 p.1))
      else checkSteps graph gran (q :: rest) := rfl

theorem checkSteps_ok {graph : String} {gran : Int} :
    ∀ {pts : List (Int × DataPoint V)}, checkSteps graph gran pts = .ok () ↔
      pts.IsChain (GoodStep gran) := by
  intro pts
  induction pts with
  | nil => simp [checkSteps]
  | cons p rest ih =>
    cases rest with
    | nil => simp [checkSteps]
    | cons q rest =>
      rw [List.isChain_cons_cons, ← ih, checkSteps_cons_cons]
      unfold GoodStep
      by_cases hstep : Time.sub q.1 p.1 ≤ 0 ∨ (Time.sub q.1 p.1).tmod gran ≠ 0
      · rw [if_pos hstep]
        refine iff_of_false (by simp) ?_
        rintro ⟨⟨hpos, hmod⟩, -⟩
        rcases hstep with hstep | hstep
        · omega
        · exact hstep hmod
      · rw [if_neg hstep]
        rw [not_or, not_le, not_not] at hstep
        exact ⟨fun h => ⟨hstep, h⟩, fun h => h.2⟩

theorem isTrans_steps (gran : Int) :
    IsTrans (Int × DataPoint V) fun p q => p.1 < q.1 ∧ gran ∣ q.1 - p.1 := by
  refine ⟨?_⟩
  rintro p q r ⟨hpq, hdvd⟩ ⟨hqr, hdvd'⟩
  have hsum : r.1 - p.1 = (r.1 - q.1) + (q.1 - p.1) := by omega
  exact ⟨hpq.trans hqr, hsum ▸ Int.dvd_add hdvd' hdvd⟩

theorem GoodStep.lt {gran : Int} {p q : Int × DataPoint V} (h : GoodStep gran p q) : p.1 < q.1 := by
  have hpos := h.1
  unfold Time.sub minInt64 maxInt64 at hpos
  omega

theorem increasing_of_checkSteps {graph : String} {gran : Int} {pts : List (Int × DataPoint V)}
    (h : checkSteps graph gran pts = .ok ()) : pts.Pairwise fun p q => p.1 < q.1 := by
  have htrans : IsTrans (Int × DataPoint V) fun p q => p.1 < q.1 := ⟨fun _ _ _ => lt_trans⟩
  exact List.isChain_iff_pairwise.mp ((checkSteps_ok.mp h).imp fun _ _ hstep => hstep.lt)

variable [Div V] [OfNat V 1000]

theorem timestamp_pointSamples {metricPrefix graph : String} {bend : Int}
    {dp : DataPoint V} {s : Sample V} (h : s ∈ pointSamples metricPrefix graph bend dp) :
    s.timestamp = bend := by
  unfold pointSamples at h
  split at h
  · obtain ⟨q, -, rfl⟩ := List.mem_map.mp h
    rfl
  · split at h
    · obtain ⟨q, -, rfl⟩ := List.mem_map.mp h
      rfl
    · rw [List.mem_singleton.mp h]
      rfl

private theorem pointSamples_ne_nil (metricPrefix graph : String) (bend : Int) (dp : DataPoint V) :
    pointSamples metricPrefix graph bend dp ≠ [] := by
  unfold pointSamples
  split
  · simp [latencyStats]
  · split
    · simp [tokenTypes]
    · simp

private theorem mem_ends_deriveGraph {metricPrefix graph : String} {since cutoff : Int}
    {r : GraphResponse V} {out : List (Sample V)}
    (h : deriveGraph metricPrefix since cutoff minute true graph r = .ok out) (e : Int) :
    e ∈ ends out ↔
      some (e - minute) ∈ r.dataPoints.map DataPoint.time ∧ since < e ∧ e ≤ cutoff := by
  unfold deriveGraph at h
  cases hpts : timedPoints r.dataPoints with
  | error err => simp [hpts] at h
  | ok pts =>
    simp only [hpts] at h
    split at h
    · simp at h
    · obtain rfl := Except.ok.inj h
      simp only [ends, bucketEnd, if_true, inRange, decide_eq_true_eq, List.mem_flatMap,
        Set.mem_ofPred_eq, List.mem_insertionSort, List.mem_map]
      constructor
      · rintro ⟨s, ⟨p, hp, hs⟩, rfl⟩
        split at hs
        · rename_i hin
          rw [timestamp_pointSamples hs]
          obtain ⟨hmem, htime⟩ := (timedPoints_spec hpts p).mp hp
          exact ⟨⟨p.2, hmem, by rw [htime]; congr 1; omega⟩, hin⟩
        · simp at hs
      · rintro ⟨⟨dp, hmem, htime⟩, hin⟩
        obtain ⟨s, hs⟩ := List.exists_mem_of_ne_nil _
          (pointSamples_ne_nil metricPrefix graph e dp)
        refine ⟨s, ⟨(e - minute, dp), (timedPoints_spec hpts _).mpr ⟨hmem, htime⟩, ?_⟩,
          timestamp_pointSamples hs⟩
        have hend : e - minute + minute = e := by omega
        simp only [hend]
        rw [if_pos hin]
        exact hs

private theorem deriveGraph_ok {metricPrefix graph : String} {since cutoff gran : Int}
    {startSemantics : Bool} {r : GraphResponse V} {out : List (Sample V)}
    (h : deriveGraph metricPrefix since cutoff gran startSemantics graph r = .ok out)
    (since' : Int) :
    ∃ out', deriveGraph metricPrefix since' cutoff gran startSemantics graph r = .ok out' := by
  unfold deriveGraph at h ⊢
  cases hpts : timedPoints r.dataPoints with
  | error err => simp [hpts] at h
  | ok pts =>
    simp only [hpts] at h ⊢
    split at h
    · simp at h
    · simp

/-! ### All graphs -/

theorem deriveGraphs_cons {metricPrefix : String} {since cutoff gran : Int}
    {startSemantics : Bool} {g : String} {r : GraphResponse V}
    {rest : List (String × GraphResponse V)} {out : List (Sample V)} :
    deriveGraphs metricPrefix since cutoff gran startSemantics ((g, r) :: rest) = .ok out ↔
      ∃ head tail, deriveGraph metricPrefix since cutoff gran startSemantics g r = .ok head ∧
        deriveGraphs metricPrefix since cutoff gran startSemantics rest = .ok tail ∧
        out = head ++ tail := by
  rw [deriveGraphs]
  cases deriveGraph metricPrefix since cutoff gran startSemantics g r with
  | error e => simp
  | ok head =>
    dsimp only
    rw [Lib.map_ok]
    constructor
    · rintro ⟨tail, htail, rfl⟩
      exact ⟨head, tail, rfl, htail, rfl⟩
    · rintro ⟨head', tail, hhead, htail, rfl⟩
      obtain rfl := Except.ok.inj hhead
      exact ⟨tail, htail, rfl⟩

private theorem mem_ends_deriveGraphs {metricPrefix : String} {since cutoff : Int}
    {graphs : List (String × GraphResponse V)} {out : List (Sample V)}
    (h : deriveGraphs metricPrefix since cutoff minute true graphs = .ok out) (e : Int) :
    e ∈ ends out ↔
      (∃ p ∈ graphs, some (e - minute) ∈ p.2.dataPoints.map DataPoint.time) ∧
        since < e ∧ e ≤ cutoff := by
  induction graphs generalizing out with
  | nil =>
    obtain rfl : [] = out := by simpa [deriveGraphs] using h
    simp [ends]
  | cons p rest ih =>
    obtain ⟨head, tail, hhead, htail, rfl⟩ := deriveGraphs_cons.mp h
    rw [ends_append, Set.mem_union, mem_ends_deriveGraph hhead, ih htail]
    simp only [List.exists_mem_cons_iff]
    tauto

/-- Whether `derive` succeeds does not depend on `since`. -/
theorem derive_ok_of_ok {resp : Lib.SortedMap String (GraphResponse V)} {metricPrefix : String}
    {since now settle gran : Int} {startSemantics : Bool} {out : List (Sample V)}
    (h : derive resp metricPrefix since now settle gran startSemantics = .ok out) (since' : Int) :
    ∃ out', derive resp metricPrefix since' now settle gran startSemantics = .ok out' := by
  unfold derive at h ⊢
  generalize resp.entries = graphs at h
  induction graphs generalizing out with
  | nil => exact ⟨[], rfl⟩
  | cons p rest ih =>
    obtain ⟨head, tail, hhead, htail, -⟩ := deriveGraphs_cons.mp h
    obtain ⟨head', hhead'⟩ := deriveGraph_ok hhead since'
    obtain ⟨tail', htail'⟩ := ih htail
    exact ⟨head' ++ tail', deriveGraphs_cons.mpr ⟨head', tail', hhead', htail', rfl⟩⟩

/-- **The bucket ends of `derive`**, when every graph is answered for the interval `[lo, hi]`. -/
theorem ends_derive {resp : Lib.SortedMap String (GraphResponse V)} {metricPrefix : String}
    {since now settle lo hi : Int} {out : List (Sample V)}
    (h : derive resp metricPrefix since now settle minute true = .ok out)
    (hne : resp.entries ≠ []) (hans : ∀ p ∈ resp.entries, Answers p.2 lo hi) :
    ends out = bucketEnds lo hi since (Time.addNeg now settle) := by
  ext e
  rw [mem_ends_deriveGraphs h e]
  refine and_congr_left fun _ => ?_
  have hbucket : ∀ p ∈ resp.entries, some (e - minute) ∈ p.2.dataPoints.map DataPoint.time ↔
      minute ∣ e ∧ e - minute ≤ hi ∧ lo ≤ e := by
    intro p hp
    rw [(hans p hp).bucket]
    unfold minute
    omega
  constructor
  · rintro ⟨p, hp, hmem⟩
    exact (hbucket p hp).mp hmem
  · intro hrange
    obtain ⟨p, hp⟩ := List.exists_mem_of_ne_nil _ hne
    exact ⟨p, hp, (hbucket p hp).mpr hrange⟩

end GenaiBridge
