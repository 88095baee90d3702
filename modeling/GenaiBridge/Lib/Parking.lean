/-
Parking a window that cannot be taken.

Each time it is its turn, a worker that is not parked looks whether there is a window,
probes it, and parks on it.  A worker that is parked compares the window there is now
with the one it keeps: as long as they are the same it stays, otherwise it leaves and
looks again the next time.  What is kept of a window may be less than the window (a
stored form that cannot be read again), so `keep` is a partial map.

The probes are what such a worker is to avoid.  `FirstProbe` says which turn has the
first one, and `probes_le_one_iff` when a run has no second one, both in terms of the
windows there are at its turns.
-/
import Mathlib.Data.List.Basic
import Mathlib.Order.Lattice

namespace Lib.Parking

variable {α W : Type} [LinearOrder α] [DecidableEq W]

section

variable (window : α → Option W) (keep : W → Option W)

/-- Whether a worker that is parked on what it kept stays. -/
def Stays (kept : Option W) (t : α) : Prop := kept ≠ none ∧ kept = window t

instance (kept : Option W) (t : α) : Decidable (Stays window kept t) := by
  unfold Stays
  infer_instance

/-- Where a turn leaves the worker: `none` if it is not parked, else what it keeps. -/
def next : Option (Option W) → α → Option (Option W)
  | none, t => (window t).map keep
  | some kept, t => if Stays window kept t then some kept else none

/-- Whether it probes at its turn. -/
def probe (parked : Option (Option W)) (t : α) : List α :=
  if parked = none ∧ window t ≠ none then [t] else []

/-- The turns at which it probes. -/
def probes : Option (Option W) → List α → List α
  | _, [] => []
  | parked, t :: rest => probe window parked t ++ probes (next window keep parked t) rest

end

variable {window : α → Option W} {keep : W → Option W}

/-- A worker that starts parked has left before its turn `t`. -/
def Freed (window : α → Option W) (parked : Option (Option W)) (turns : List α) (t : α) : Prop :=
  ∀ kept, parked = some kept → ∃ d ∈ turns, d < t ∧ ¬ Stays window kept d

/-- The first turn at which the worker is free and finds a window. -/
structure FirstProbe (window : α → Option W) (parked : Option (Option W)) (turns : List α) (c : α) :
    Prop where
  mem : c ∈ turns
  finds : window c ≠ none
  freed : Freed window parked turns c
  first : ∀ d ∈ turns, d < c → Freed window parked turns d → window d = none

omit [DecidableEq W] in
theorem freed_none (turns : List α) (t : α) : Freed window none turns t := by
  intro kept h
  cases h

/-- One turn: whether a later one is the first to probe is up to where this one leaves the
worker. -/
theorem firstProbe_cons {t c : α} {rest : List α} (hlt : ∀ u ∈ rest, t < u)
    (parked : Option (Option W)) (hnone : ¬ (parked = none ∧ window t ≠ none)) :
    FirstProbe window (next window keep parked t) rest c ↔ FirstProbe window parked (t :: rest) c := by
  -- whoever is free after this turn, later than it, is so by the turns that are left
  have hfreed : ∀ u ∈ rest,
      (Freed window (next window keep parked t) rest u ↔ Freed window parked (t :: rest) u) := by
    intro u hu
    cases parked with
    | none =>
      have hshut : window t = none := by simpa using hnone
      have hnext : next window keep none t = none := by rw [next, hshut, Option.map_none]
      rw [hnext]
      exact iff_of_true (freed_none _ _) (freed_none _ _)
    | some kept =>
      rw [next]
      by_cases hstays : Stays window kept t
      · rw [if_pos hstays]
        constructor
        · intro h kept' hkept
          obtain ⟨d, hd, hdu, hleft⟩ := h kept' hkept
          exact ⟨d, List.mem_cons_of_mem _ hd, hdu, hleft⟩
        · intro h kept' hkept
          obtain ⟨d, hd, hdu, hleft⟩ := h kept' hkept
          obtain rfl := Option.some.inj hkept
          rcases List.mem_cons.mp hd with rfl | hd
          · exact absurd hstays hleft
          · exact ⟨d, hd, hdu, hleft⟩
      · rw [if_neg hstays]
        refine iff_of_true (freed_none _ _) fun kept' hkept => ?_
        obtain rfl := Option.some.inj hkept
        exact ⟨t, List.mem_cons_self, hlt u hu, hstays⟩
  have hhere : ¬ (Freed window parked (t :: rest) t ∧ window t ≠ none) := by
    rintro ⟨hfree, hopen⟩
    cases parked with
    | none => exact hnone ⟨rfl, hopen⟩
    | some kept =>
      obtain ⟨d, hd, hdt, -⟩ := hfree kept rfl
      rcases List.mem_cons.mp hd with rfl | hd
      · exact absurd hdt (lt_irrefl _)
      · exact absurd (lt_trans hdt (hlt d hd)) (lt_irrefl _)
  constructor
  · rintro ⟨hmem, hfinds, hfree, hfirst⟩
    refine ⟨List.mem_cons_of_mem _ hmem, hfinds, (hfreed c hmem).mp hfree, fun d hd hdc hd' => ?_⟩
    rcases List.mem_cons.mp hd with rfl | hd
    · exact not_not.mp fun hopen => hhere ⟨hd', hopen⟩
    · exact hfirst d hd hdc ((hfreed d hd).mpr hd')
  · rintro ⟨hmem, hfinds, hfree, hfirst⟩
    rcases List.mem_cons.mp hmem with rfl | hmem
    · exact absurd ⟨hfree, hfinds⟩ hhere
    · exact ⟨hmem, hfinds, (hfreed c hmem).mpr hfree, fun d hd hdc hd' =>
        hfirst d (List.mem_cons_of_mem _ hd) hdc ((hfreed d hd).mp hd')⟩

omit [DecidableEq W] in
/-- A free worker that finds a window probes at once. -/
theorem firstProbe_of_open {t c : α} {rest : List α} (hlt : ∀ u ∈ rest, t < u)
    (hopen : window t ≠ none) : FirstProbe window none (t :: rest) c ↔ c = t := by
  constructor
  · rintro ⟨hmem, -, -, hfirst⟩
    rcases List.mem_cons.mp hmem with rfl | hmem
    · rfl
    · exact absurd (hfirst t List.mem_cons_self (hlt c hmem) (freed_none _ _)) hopen
  · rintro rfl
    refine ⟨List.mem_cons_self, hopen, freed_none _ _, fun d hd hdc _ => ?_⟩
    rcases List.mem_cons.mp hd with rfl | hd
    · exact absurd hdc (lt_irrefl _)
    · exact absurd (lt_trans hdc (hlt d hd)) (lt_irrefl _)

/-- There is a turn after `t`. -/
def NotLast (turns : List α) (t : α) : Prop := ∃ u ∈ turns, t < u

theorem notLast_cons {t u : α} {rest : List α} (h : t < u) :
    NotLast (t :: rest) u ↔ NotLast rest u := by
  constructor
  · rintro ⟨v, hv, huv⟩
    rcases List.mem_cons.mp hv with rfl | hv
    · exact absurd (lt_trans h huv) (lt_irrefl _)
    · exact ⟨v, hv, huv⟩
  · rintro ⟨v, hv, huv⟩
    exact ⟨v, List.mem_cons_of_mem _ hv, huv⟩

/-- A parked worker does not probe again just if it stays at every turn but the last, where it may
leave: at the next turn it would find a window. -/
theorem probes_parked_eq_nil_iff {turns : List α} (hturns : turns.Pairwise (· < ·))
    (hwindow : ∀ t ∈ turns, window t ≠ none) (kept : Option W) :
    probes window keep (some kept) turns = [] ↔
      ∀ t ∈ turns, NotLast turns t → Stays window kept t := by
  induction turns with
  | nil => simp [probes]
  | cons t rest ih =>
    obtain ⟨hlt, hrest⟩ := List.pairwise_cons.mp hturns
    have hnone : probe window (some kept) t = [] := if_neg fun h => by cases h.1
    rw [probes, hnone, List.nil_append, next]
    by_cases hstays : Stays window kept t
    · rw [if_pos hstays, ih hrest fun u hu => hwindow u (List.mem_cons_of_mem _ hu)]
      constructor
      · intro h u hu hnot
        rcases List.mem_cons.mp hu with rfl | hu
        · exact hstays
        · exact h u hu ((notLast_cons (hlt u hu)).mp hnot)
      · intro h u hu hnot
        exact h u (List.mem_cons_of_mem _ hu) ((notLast_cons (hlt u hu)).mpr hnot)
    · rw [if_neg hstays]
      constructor
      · intro hprobes u hu hnot
        -- the turn after this one would be a probe
        cases rest with
        | nil =>
          obtain rfl := List.mem_singleton.mp hu
          obtain ⟨v, hv, huv⟩ := hnot
          obtain rfl := List.mem_singleton.mp hv
          exact absurd huv (lt_irrefl _)
        | cons v rest =>
          have hv := hwindow v (List.mem_cons_of_mem _ List.mem_cons_self)
          have hprobe : probe window none v = [v] := if_pos ⟨rfl, hv⟩
          rw [probes, hprobe] at hprobes
          cases hprobes
      · intro h
        cases rest with
        | nil => rfl
        | cons v rest =>
          exact absurd (h t List.mem_cons_self
            ⟨v, List.mem_cons_of_mem _ List.mem_cons_self, hlt v List.mem_cons_self⟩) hstays

/-- **A run has no second probe** just if what was kept of the first one is the window at every
later turn but the last.  Once there is a window, there is one at every later turn. -/
theorem probes_le_one_iff {turns : List α} (hturns : turns.Pairwise (· < ·))
    (hwindow : ∀ t ∈ turns, ∀ u ∈ turns, t < u → window t ≠ none → window u ≠ none) :
    ∀ parked : Option (Option W), (probes window keep parked turns).length ≤ 1 ↔
      ∀ c, FirstProbe window parked turns c → ∀ t ∈ turns, c < t → NotLast turns t →
        Stays window ((window c).bind keep) t := by
  induction turns with
  | nil =>
    intro parked
    exact iff_of_true (by simp [probes]) fun c hc => absurd hc.mem List.not_mem_nil
  | cons t rest ih =>
    intro parked
    obtain ⟨hlt, hrest⟩ := List.pairwise_cons.mp hturns
    have hwindow' : ∀ t ∈ rest, ∀ u ∈ rest, t < u → window t ≠ none → window u ≠ none :=
      fun a ha b hb => hwindow a (List.mem_cons_of_mem _ ha) b (List.mem_cons_of_mem _ hb)
    by_cases hprobe : parked = none ∧ window t ≠ none
    · obtain ⟨rfl, hopen⟩ := hprobe
      obtain ⟨w, hw⟩ := Option.ne_none_iff_exists'.mp hopen
      have hlater : ∀ u ∈ rest, window u ≠ none := fun u hu =>
        hwindow t List.mem_cons_self u (List.mem_cons_of_mem _ hu) (hlt u hu) hopen
      have hone : probe window none t = [t] := if_pos ⟨rfl, hopen⟩
      have hnext : next window keep none t = some (keep w) := by rw [next, hw, Option.map_some]
      have hlength : (probes window keep none (t :: rest)).length ≤ 1 ↔
          probes window keep (some (keep w)) rest = [] := by
        rw [probes, hone, hnext, ← List.length_eq_zero_iff]
        simp
      simp only [firstProbe_of_open hlt hopen, forall_eq]
      rw [hlength, probes_parked_eq_nil_iff hrest hlater, hw, Option.bind_some]
      constructor
      · intro h u hu hcu hnot
        rcases List.mem_cons.mp hu with rfl | hu
        · exact absurd hcu (lt_irrefl _)
        · exact h u hu ((notLast_cons (hlt u hu)).mp hnot)
      · intro h u hu hnot
        exact h u (List.mem_cons_of_mem _ hu) (hlt u hu) ((notLast_cons (hlt u hu)).mpr hnot)
    · have hnone : probe window parked t = [] := if_neg hprobe
      rw [probes, hnone, List.nil_append, ih hrest hwindow']
      refine forall_congr' fun c => ?_
      rw [firstProbe_cons hlt parked hprobe]
      refine forall_congr' fun hc => ?_
      have htc : ∀ u, c < u → t < u := fun u hcu => by
        rcases List.mem_cons.mp hc.mem with rfl | hmem
        · exact hcu
        · exact lt_trans (hlt c hmem) hcu
      constructor
      · intro h u hu hcu hnot
        rcases List.mem_cons.mp hu with rfl | hu
        · exact absurd (htc u hcu) (lt_irrefl _)
        · exact h u hu hcu ((notLast_cons (hlt u hu)).mp hnot)
      · intro h u hu hcu hnot
        exact h u (List.mem_cons_of_mem _ hu) hcu ((notLast_cons (hlt u hu)).mpr hnot)

end Lib.Parking
