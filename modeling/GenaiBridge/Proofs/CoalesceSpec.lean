/-
What the cap on data points per minute keeps.

The stage groups by a rendered key and selects by a sort of positions.  Here both are
put in the terms of the samples themselves: inside the `UnixNano` range the rendered key
is the name, unit, labels and minute of a sample, and the sort is by time and value, so
what is kept of a group is its newest samples, whichever order they came in.
-/
import GenaiBridge.Lib.SortBy
import GenaiBridge.Proofs.Coalesce
import GenaiBridge.Proofs.SeriesKey
import Mathlib.Order.OrderDual

namespace GenaiBridge

variable {V : Type}

/-! ### The group of a sample -/

/-- The series and the UTC minute of a sample. -/
def Sample.minuteGroup (s : Sample V) : String × String × Labels × Int :=
  (s.name, s.unit, s.labels, Time.truncate s.timestamp minute)

/-- What is left of a sample when the kind of its instrument is put aside. -/
def Sample.datum (s : Sample V) : String × String × Labels × Int × V :=
  (s.name, s.unit, s.labels, s.timestamp, s.value)

/-- `UnixNano` tells the minutes inside its range apart. -/
theorem minute_eq_of_unixNano_eq {t u : Int} (ht : Time.InUnixNanoRange t)
    (hu : Time.InUnixNanoRange u)
    (h : Time.unixNano (Time.truncate t minute) = Time.unixNano (Time.truncate u minute)) :
    Time.truncate t minute = Time.truncate u minute := by
  have hdvd : ∀ v : Int, minute ∣ Time.truncate v minute := by
    intro v
    unfold Time.truncate
    rw [if_neg (by decide)]
    exact Int.dvd_self_sub_emod
  have hnear : ∀ v : Int, v - minute < Time.truncate v minute ∧ Time.truncate v minute ≤ v := by
    intro v
    unfold Time.truncate minute
    rw [if_neg (by decide)]
    omega
  have hwhole : minute ∣ Time.truncate t minute - Time.truncate u minute :=
    Int.dvd_sub (hdvd t) (hdvd u)
  obtain ⟨c, hc⟩ := Time.unixNano_eq_iff.mp h
  -- the first minute of the range may start before it and wrap, but by 2^64 at most
  have hwraps : c = -1 ∨ c = 0 ∨ c = 1 := by
    have htn := hnear t
    have hun := hnear u
    unfold Time.InUnixNanoRange minInt64 maxInt64 at ht hu
    unfold minute at hc htn hun
    clear hdvd hnear hwhole
    omega
  rw [hc] at hwhole
  -- and 2^64 is no whole number of minutes
  rcases hwraps with rfl | rfl | rfl
  · exact absurd hwhole (by decide)
  · exact sub_eq_zero.mp hc
  · exact absurd hwhole (by decide)

/-- **Inside the range the rendered key is the group.** -/
theorem dpmKey_eq_iff {a b : Sample V} (ha : Time.InUnixNanoRange a.timestamp)
    (hb : Time.InUnixNanoRange b.timestamp) :
    dpmKey a = dpmKey b ↔ a.minuteGroup = b.minuteGroup := by
  simp only [dpmKey, Sample.minuteGroup, Prod.mk.injEq]
  constructor
  · rintro ⟨hseries, hminute⟩
    obtain ⟨hname, hunit, hlabels⟩ := eq_of_seriesKey_eq hseries
    exact ⟨hname, hunit, hlabels, minute_eq_of_unixNano_eq ha hb hminute⟩
  · rintro ⟨hname, hunit, hlabels, hminute⟩
    refine ⟨?_, by rw [hminute]⟩
    simp only [seriesKey, hname, hunit, hlabels]

/-- The samples of a sample's group, found by the key or by the data. -/
theorem filter_key_eq_filter_group {l : List (Sample V)} {s : Sample V}
    (hl : ∀ a ∈ l, Time.InUnixNanoRange a.timestamp) (hs : Time.InUnixNanoRange s.timestamp) :
    (l.filter fun a => dpmKey a = dpmKey s) = l.filter fun a => a.minuteGroup = s.minuteGroup :=
  List.filter_congr fun a ha => decide_eq_decide.mpr (dpmKey_eq_iff (hl a ha) hs)

section Selection

variable [LinearOrder V]

/-! ### The order of the selection -/

/-- A sample's place in the selection: newest first, then largest value first. -/
def Sample.rank (s : Sample V) : Lex (Intᵒᵈ × Vᵒᵈ) :=
  toLex (OrderDual.toDual s.timestamp, OrderDual.toDual s.value)

theorem comparesBy_dpmBefore :
    Lib.ComparesBy (fun p : Sample V × Nat => p.1.rank) dpmBefore := by
  intro p q
  unfold dpmBefore Sample.rank
  rw [Prod.Lex.toLex_lt_toLex]
  by_cases h : p.1.timestamp = q.1.timestamp
  · simp [h]
  · simp [h]

/-- Sample `a` is newer than `s`, or as new with a value at least as large. -/
def Sample.AtLeast (a s : Sample V) : Prop :=
  s.timestamp < a.timestamp ∨ a.timestamp = s.timestamp ∧ s.value ≤ a.value

instance (a s : Sample V) : Decidable (a.AtLeast s) := by
  unfold Sample.AtLeast
  infer_instance

theorem rank_le_iff {a s : Sample V} : a.rank ≤ s.rank ↔ a.AtLeast s := by
  unfold Sample.rank Sample.AtLeast
  rw [Prod.Lex.toLex_le_toLex]
  simp

/-! ### The survivors of a group -/

theorem map_rank_survivors (m : Nat) (idxs : List (Sample V × Nat)) :
    ((survivors m idxs).map fun p => p.1.rank).Perm
      (((idxs.map fun p => p.1.rank).insertionSort (· ≤ ·)).take m) := by
  unfold survivors
  by_cases h : idxs.length ≤ m
  · have hlength : ((idxs.map fun p => p.1.rank).insertionSort (· ≤ ·)).length ≤ m := by
      rw [List.length_insertionSort, List.length_map]
      exact h
    rw [if_pos h, List.take_of_length_le hlength]
    exact (List.perm_insertionSort _ _).symm
  · rw [if_neg h, List.map_take, comparesBy_dpmBefore.map_sort]

/-- **A sample that does not survive is outranked by all who do, and they are at the limit.** -/
theorem survivors_outrank {m : Nat} {idxs : List (Sample V × Nat)} {p : Sample V × Nat}
    (hp : p ∈ idxs) (hout : p ∉ survivors m idxs) :
    (survivors m idxs).length = m ∧ ∀ q ∈ survivors m idxs, q.1.AtLeast p.1 := by
  unfold survivors at hout ⊢
  by_cases h : idxs.length ≤ m
  · rw [if_pos h] at hout
    exact absurd hp hout
  · rw [if_neg h] at hout ⊢
    have hsorted := (List.perm_insertionSort (fun a b => !dpmBefore b a) idxs).symm.subset hp
    rw [← List.take_append_drop m (idxs.insertionSort _)] at hsorted
    rcases List.mem_append.mp hsorted with htake | hdrop
    · exact absurd htake hout
    · constructor
      · rw [List.length_take, List.length_insertionSort]
        omega
      · intro q hq
        exact rank_le_iff.mp (comparesBy_dpmBefore.le_of_mem_take_drop hq hdrop)

/-! ### What is removed -/

/-- The samples at the positions that are not kept. -/
def dpmRemoved (samples : List (Sample V)) (maxDPM : Int) : List (Sample V) :=
  (samples.zipIdx.filter fun p => !(dpmKeep samples maxDPM).contains p.2).map Prod.fst

theorem kept_append_removed (samples : List (Sample V)) (maxDPM : Int) :
    ((coalesceDPM samples maxDPM).1 ++ dpmRemoved samples maxDPM).Perm samples := by
  unfold dpmRemoved
  rw [coalesceDPM_fst, ← List.map_append]
  have hperm := (List.filter_append_perm
    (fun p : Sample V × Nat => (dpmKeep samples maxDPM).contains p.2) samples.zipIdx).map Prod.fst
  rwa [List.zipIdx_map_fst] at hperm

theorem dpmRemoved_length (samples : List (Sample V)) (maxDPM : Int) :
    (dpmRemoved samples maxDPM).length = (coalesceDPM samples maxDPM).2 := by
  have hsplit := (kept_append_removed samples maxDPM).length_eq
  have htotal := coalesceDPM_length_add samples maxDPM
  rw [List.length_append] at hsplit
  omega

/-- **A removed sample has as many kept samples of its group ahead of it as the limit allows.** -/
theorem dpmRemoved_outranked {samples : List (Sample V)} {maxDPM : Int} {s : Sample V}
    (hs : s ∈ dpmRemoved samples maxDPM) :
    dpmLimit maxDPM = ((coalesceDPM samples maxDPM).1.filter
      fun a => dpmKey a = dpmKey s).length ∧
    ∀ a ∈ (coalesceDPM samples maxDPM).1, dpmKey a = dpmKey s → a.AtLeast s := by
  obtain ⟨p, hp, rfl⟩ := List.mem_map.mp hs
  obtain ⟨hmem, hkeep⟩ := List.mem_filter.mp hp
  have hnot : p.2 ∉ dpmKeep samples maxDPM := by simpa using hkeep
  have hgroup : p ∈ samples.zipIdx.filter fun q => dpmKey q.1 = dpmKey p.1 :=
    List.mem_filter.mpr ⟨hmem, decide_eq_true rfl⟩
  have hout := fun hin => hnot ((mem_dpmKeep_iff hmem).mpr hin)
  obtain ⟨hlength, hrank⟩ := survivors_outrank hgroup hout
  have hkept := filter_coalesceDPM_perm samples maxDPM (dpmKey p.1)
  constructor
  · rw [hkept.length_eq, List.length_map, hlength]
  · intro a ha hkey
    obtain ⟨q, hq, rfl⟩ := List.mem_map.mp
      (hkept.subset (List.mem_filter.mpr ⟨ha, decide_eq_true hkey⟩))
    exact hrank q hq

/-! ### The order of the input -/

/-- The ranks kept of a group depend on the group's samples and not on their order. -/
theorem map_rank_kept_perm {samples samples' : List (Sample V)} (h : samples.Perm samples')
    (maxDPM : Int) (k : String × Int) :
    (((coalesceDPM samples maxDPM).1.filter fun s => dpmKey s = k).map Sample.rank).Perm
      (((coalesceDPM samples' maxDPM).1.filter fun s => dpmKey s = k).map Sample.rank) := by
  have hkept : ∀ l : List (Sample V),
      (((coalesceDPM l maxDPM).1.filter fun s => dpmKey s = k).map Sample.rank).Perm
        ((((l.filter fun s => dpmKey s = k).map Sample.rank).insertionSort (· ≤ ·)).take
          (dpmLimit maxDPM)) := by
    intro l
    have hranks := map_rank_survivors (dpmLimit maxDPM)
      (l.zipIdx.filter fun p => dpmKey p.1 = k)
    have hperm := (filter_coalesceDPM_perm l maxDPM k).map Sample.rank
    rw [List.map_map] at hperm
    rw [← map_fst_group l, List.map_map]
    exact hperm.trans hranks
  have hsame := Lib.insertionSort_eq_of_perm
    ((h.filter fun s => decide (dpmKey s = k)).map Sample.rank)
  refine (hkept samples).trans ?_
  rw [hsame]
  exact (hkept samples').symm

omit [LinearOrder V] in
/-- Samples of one group with the same ranks are the same data. -/
theorem map_datum_perm_of_rank {l l' : List (Sample V)} {k : String × Int}
    (hl : ∀ s ∈ l, dpmKey s = k) (hl' : ∀ s ∈ l', dpmKey s = k)
    (h : (l.map Sample.rank).Perm (l'.map Sample.rank)) :
    (l.map Sample.datum).Perm (l'.map Sample.datum) := by
  rcases l with _ | ⟨s₀, rest⟩
  · have hnil : l' = [] := by simpa using h.symm.eq_nil
    rw [hnil]
  · -- name, unit and labels are those of the first sample
    let read : Lex (Intᵒᵈ × Vᵒᵈ) → String × String × Labels × Int × V := fun r =>
      (s₀.name, s₀.unit, s₀.labels, OrderDual.ofDual (ofLex r).1, OrderDual.ofDual (ofLex r).2)
    have hread : ∀ s : Sample V, dpmKey s = k → s.datum = read s.rank := by
      intro s hs
      have hkey := hs.trans (hl s₀ List.mem_cons_self).symm
      obtain ⟨hname, hunit, hlabels⟩ := eq_of_seriesKey_eq (congrArg Prod.fst hkey)
      simp [read, Sample.datum, Sample.rank, hname, hunit, hlabels]
    have hmap := h.map read
    rw [List.map_map, List.map_map] at hmap
    rwa [List.map_congr_left fun s hs => hread s (hl s hs),
      List.map_congr_left fun s hs => hread s (hl' s hs)]

theorem map_datum_kept_perm {samples samples' : List (Sample V)} (h : samples.Perm samples')
    (maxDPM : Int) :
    ((coalesceDPM samples maxDPM).1.map Sample.datum).Perm
      ((coalesceDPM samples' maxDPM).1.map Sample.datum) := by
  refine Lib.map_perm_of_filter_key fun k =>
    map_datum_perm_of_rank (k := k) ?_ ?_ (map_rank_kept_perm h maxDPM k)
  · intro s hs
    exact of_decide_eq_true (List.mem_filter.mp hs).2
  · intro s hs
    exact of_decide_eq_true (List.mem_filter.mp hs).2

/-! ### The stage as a whole -/

/-- Of each group as many are kept as the limit allows. -/
theorem kept_key_length (samples : List (Sample V)) (maxDPM : Int) (k : String × Int) :
    ((coalesceDPM samples maxDPM).1.filter fun s => dpmKey s = k).length =
      min (dpmLimit maxDPM) (samples.filter fun s => dpmKey s = k).length := by
  rw [(filter_coalesceDPM_perm samples maxDPM k).length_eq, List.length_map, survivors_length,
    ← map_fst_group, List.length_map]

/-- **A second pass has nothing left to do.** -/
theorem coalesceDPM_idempotent (samples : List (Sample V)) (maxDPM : Int) :
    coalesceDPM (coalesceDPM samples maxDPM).1 maxDPM = ((coalesceDPM samples maxDPM).1, 0) := by
  refine coalesceDPM_of_groups_le fun k => ?_
  rw [kept_key_length]
  exact Nat.min_le_left _ _

theorem kept_group_length {samples : List (Sample V)}
    (hrange : ∀ s ∈ samples, Time.InUnixNanoRange s.timestamp) (maxDPM : Int)
    (g : String × String × Labels × Int) :
    ((coalesceDPM samples maxDPM).1.filter fun s => s.minuteGroup = g).length =
      min (dpmLimit maxDPM) (samples.filter fun s => s.minuteGroup = g).length := by
  have hsub := coalesceDPM_sublist samples maxDPM
  by_cases hnone : ∃ s ∈ samples, s.minuteGroup = g
  · obtain ⟨s, hs, rfl⟩ := hnone
    have hkept : ∀ a ∈ (coalesceDPM samples maxDPM).1, Time.InUnixNanoRange a.timestamp :=
      fun a ha => hrange a (hsub.subset ha)
    rw [← filter_key_eq_filter_group hkept (hrange s hs),
      ← filter_key_eq_filter_group hrange (hrange s hs), kept_key_length]
  · have hempty : (samples.filter fun s => s.minuteGroup = g) = [] := by
      rw [List.filter_eq_nil_iff]
      intro s hs hg
      exact hnone ⟨s, hs, of_decide_eq_true hg⟩
    have hkept := hsub.filter fun s => decide (s.minuteGroup = g)
    rw [hempty] at hkept
    rw [hempty, List.sublist_nil.mp hkept]
    simp

/-- **What the cap keeps, counts and removes.**  Of every series and minute it keeps as many
samples as the limit allows, those that no removed one outranks, and which data that is does
not depend on the order of the batch. -/
theorem coalesceDPM_keeps_newest (samples : List (Sample V)) (m : Int) (hm : 1 ≤ m)
    (hrange : ∀ s ∈ samples, Time.InUnixNanoRange s.timestamp) :
    (coalesceDPM samples m).1.Sublist samples ∧
    (∀ g : String × String × Labels × Int,
      ((coalesceDPM samples m).1.filter fun s => s.minuteGroup = g).length =
        min m.toNat (samples.filter fun s => s.minuteGroup = g).length) ∧
    (∃ removed : List (Sample V),
      ((coalesceDPM samples m).1 ++ removed).Perm samples ∧
      removed.length = (coalesceDPM samples m).2 ∧
      ∀ s ∈ removed, m.toNat ≤ ((coalesceDPM samples m).1.filter fun a =>
        a.minuteGroup = s.minuteGroup ∧ a.AtLeast s).length) ∧
    coalesceDPM (coalesceDPM samples m).1 m = ((coalesceDPM samples m).1, 0) ∧
    ∀ samples' : List (Sample V), samples'.Perm samples →
      ((coalesceDPM samples' m).1.map Sample.datum).Perm
        ((coalesceDPM samples m).1.map Sample.datum) := by
  have hlimit : dpmLimit m = m.toNat := by
    unfold dpmLimit
    rw [if_neg (by omega)]
  have hsub := coalesceDPM_sublist samples m
  refine ⟨hsub, ?_, ⟨dpmRemoved samples m, kept_append_removed samples m,
    dpmRemoved_length samples m, ?_⟩, coalesceDPM_idempotent samples m, ?_⟩
  · intro g
    rw [kept_group_length hrange, hlimit]
  · intro s hs
    have hsmem : s ∈ samples :=
      (kept_append_removed samples m).subset (List.mem_append_right _ hs)
    obtain ⟨hcount, houtranked⟩ := dpmRemoved_outranked hs
    rw [hlimit] at hcount
    rw [hcount]
    refine le_of_eq (congrArg List.length (List.filter_congr fun a ha => ?_))
    have hiff := dpmKey_eq_iff (hrange a (hsub.subset ha)) (hrange s hsmem)
    refine decide_eq_decide.mpr ⟨fun hkey => ?_, fun hgroup => hiff.mpr hgroup.1⟩
    exact ⟨hiff.mp hkey, houtranked a ha hkey⟩
  · intro samples' hperm
    exact map_datum_kept_perm hperm m

end Selection

/-- Two readings of one series inside a minute. -/
def twoReadings : List (Sample Nat) :=
  [{ name := "requests", value := 3, timestamp := Time.unixEpoch + second },
    { name := "requests", value := 5, timestamp := Time.unixEpoch + 2 * second }]

theorem coalesceDPM_keeps_newest_reading :
    coalesceDPM (coalesceDPM twoReadings 1).1 1 = ((coalesceDPM twoReadings 1).1, 0) ∧
    (coalesceDPM twoReadings 1).1.map Sample.value = [5] := by
  have hrange : ∀ s ∈ twoReadings, Time.InUnixNanoRange s.timestamp := by
    simp [twoReadings, Time.InUnixNanoRange, Time.unixEpoch, second, minInt64, maxInt64]
  exact ⟨(coalesceDPM_keeps_newest twoReadings 1 (by decide) hrange).2.2.2.1, by decide +kernel⟩

end GenaiBridge
