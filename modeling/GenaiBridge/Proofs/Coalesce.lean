/-
The cap on data points per minute loses nothing it does not count.

`coalesceDPM` returns the survivors and a count of the rest.  The survivors are a
sublist of the input, so what was removed is exactly what is missing from them, and
the count is its length.  The count is a sum over groups and the survivors are
chosen by position, so the work is to see that the groups share no position: the
grouping visits every indexed sample exactly once.
-/
import GenaiBridge.Bridge.Emit
import Mathlib.Data.List.Perm.Subperm
import Mathlib.Data.List.Dedup
import Mathlib.Algebra.BigOperators.Group.List.Basic

namespace GenaiBridge

variable {V : Type} [LT V] [DecidableLT V]

/-! ### The survivors of a group -/

theorem survivors_subperm (m : Nat) (idxs : List (Sample V × Nat)) :
    (survivors m idxs).Subperm idxs := by
  unfold survivors
  split
  · exact List.Subperm.refl _
  · exact (List.take_sublist _ _).subperm.trans (List.perm_insertionSort _ _).subperm

theorem survivors_length_le (m : Nat) (idxs : List (Sample V × Nat)) :
    (survivors m idxs).length ≤ idxs.length := (survivors_subperm m idxs).length_le

private theorem flatMap_survivors_subperm (m : Nat)
    (gs : List ((String × Int) × List (Sample V × Nat))) :
    (gs.flatMap fun g => survivors m g.2).Subperm (gs.flatMap Prod.snd) := by
  induction gs with
  | nil => exact List.Subperm.refl _
  | cons g rest ih =>
    rw [List.flatMap_cons, List.flatMap_cons]
    exact (survivors_subperm m g.2).append ih

/-! ### The groups share no position -/

omit [LT V] [DecidableLT V] in
theorem dpmGroups_flatMap_perm (samples : List (Sample V)) :
    ((dpmGroups samples).flatMap Prod.snd).Perm samples.zipIdx := by
  have hkeys := Lib.keys_groupBy_nodup (fun p : Sample V × Nat => dpmKey p.1) samples.zipIdx
  have hall : ∀ p ∈ samples.zipIdx, dpmKey p.1 ∈
      (Lib.groupBy (fun p : Sample V × Nat => dpmKey p.1) samples.zipIdx).map Prod.fst := by
    intro p hp
    rw [Lib.mem_keys_groupBy]
    exact List.mem_map.mpr ⟨p, hp, rfl⟩
  have hperm := Lib.flatMap_filter_perm (fun p : Sample V × Nat => dpmKey p.1) _ _ hkeys hall
  unfold dpmGroups
  rw [Lib.groupBy_eq, List.flatMap_map]
  exact hperm

theorem dpmKeep_subperm (samples : List (Sample V)) (maxDPM : Int) :
    (dpmKeep samples maxDPM).Subperm (List.range samples.length) := by
  have h := (flatMap_survivors_subperm (dpmLimit maxDPM) (dpmGroups samples)).trans
    (dpmGroups_flatMap_perm samples).subperm
  obtain ⟨l, hperm, hsub⟩ := h
  refine ⟨l.map Prod.snd, ?_, ?_⟩
  · have := hperm.map Prod.snd
    rwa [List.map_flatMap] at this
  · have := hsub.map Prod.snd
    rwa [List.zipIdx_map_snd, ← List.range_eq_range'] at this

/-- Kept and suppressed positions add up to all positions. -/
theorem dpmKeep_length_add (samples : List (Sample V)) (maxDPM : Int) :
    (dpmKeep samples maxDPM).length + dpmCapped samples maxDPM = samples.length := by
  have htotal : ((dpmGroups samples).map fun g => g.2.length).sum = samples.length := by
    have := (dpmGroups_flatMap_perm samples).length_eq
    rwa [List.length_flatMap, List.length_zipIdx] at this
  have hsplit : ∀ gs : List ((String × Int) × List (Sample V × Nat)),
      (gs.flatMap fun g => (survivors (dpmLimit maxDPM) g.2).map Prod.snd).length
        + (gs.map fun g => g.2.length - (survivors (dpmLimit maxDPM) g.2).length).sum
        = (gs.map fun g => g.2.length).sum := by
    intro gs
    induction gs with
    | nil => rfl
    | cons g rest ih =>
      have hle := survivors_length_le (dpmLimit maxDPM) g.2
      simp only [List.flatMap_cons, List.length_append, List.length_map, List.map_cons,
        List.sum_cons] at ih ⊢
      omega
  unfold dpmKeep dpmCapped
  rw [hsplit, htotal]

/-! ### What the stage returns -/

private theorem dpmKeep_nodup (samples : List (Sample V)) (maxDPM : Int) :
    (dpmKeep samples maxDPM).Nodup := by
  obtain ⟨l, hperm, hsub⟩ := dpmKeep_subperm samples maxDPM
  exact hperm.nodup_iff.mp (hsub.nodup List.nodup_range)

/-- As many samples pass the filter as there are kept positions. -/
theorem filter_keep_length (samples : List (Sample V)) (maxDPM : Int) :
    (samples.zipIdx.filter fun p => (dpmKeep samples maxDPM).contains p.2).length
      = (dpmKeep samples maxDPM).length := by
  have hmap : (samples.zipIdx.filter fun p => (dpmKeep samples maxDPM).contains p.2).map Prod.snd
      = (List.range samples.length).filter fun i => (dpmKeep samples maxDPM).contains i := by
    rw [List.range_eq_range', ← List.zipIdx_map_snd, List.filter_map]
    rfl
  have hperm : ((List.range samples.length).filter
      fun i => (dpmKeep samples maxDPM).contains i).Perm (dpmKeep samples maxDPM) := by
    rw [List.perm_ext_iff_of_nodup (List.nodup_range.filter _) (dpmKeep_nodup samples maxDPM)]
    intro i
    simp only [List.mem_filter, List.contains_iff_mem, and_iff_right_iff_imp]
    exact fun hi => (dpmKeep_subperm samples maxDPM).subset hi
  rw [← List.length_map (f := Prod.snd), hmap, hperm.length_eq]

/-- The survivors are samples of the input, in input order. -/
theorem coalesceDPM_sublist (samples : List (Sample V)) (maxDPM : Int) :
    (coalesceDPM samples maxDPM).1.Sublist samples := by
  unfold coalesceDPM
  split
  · exact List.Sublist.refl _
  · split
    · exact List.Sublist.refl _
    · have h := (List.filter_sublist (p := fun p : Sample V × Nat =>
        (dpmKeep samples maxDPM).contains p.2) (l := samples.zipIdx)).map Prod.fst
      rwa [List.zipIdx_map_fst] at h

/-- **Survivors and suppressed samples add up to the input.** -/
theorem coalesceDPM_length_add (samples : List (Sample V)) (maxDPM : Int) :
    (coalesceDPM samples maxDPM).1.length + (coalesceDPM samples maxDPM).2 = samples.length := by
  unfold coalesceDPM
  split
  · rfl
  · split
    · rfl
    · simp only [List.length_map]
      rw [filter_keep_length, dpmKeep_length_add]

omit [LT V] [DecidableLT V] in
theorem map_fst_group (samples : List (Sample V)) (k : String × Int) :
    (samples.zipIdx.filter fun p => dpmKey p.1 = k).map Prod.fst =
      samples.filter fun s => dpmKey s = k := by
  conv_rhs => rw [← List.zipIdx_map_fst 0 samples, List.filter_map]
  rfl

/-- **Where no group is over the limit, all are kept.** -/
theorem coalesceDPM_of_groups_le {samples : List (Sample V)} {maxDPM : Int}
    (h : ∀ k, (samples.filter fun s => dpmKey s = k).length ≤ dpmLimit maxDPM) :
    coalesceDPM samples maxDPM = (samples, 0) := by
  have hgroup : ∀ g ∈ dpmGroups samples,
      g.2.length - (survivors (dpmLimit maxDPM) g.2).length = 0 := by
    intro g hg
    unfold dpmGroups at hg
    rw [Lib.groupBy_eq] at hg
    obtain ⟨k, -, rfl⟩ := List.mem_map.mp hg
    have hle := h k
    rw [← map_fst_group, List.length_map] at hle
    rw [survivors, if_pos hle, Nat.sub_self]
  have hcapped : dpmCapped samples maxDPM = 0 := by
    unfold dpmCapped
    refine List.sum_eq_zero fun n hn => ?_
    obtain ⟨g, hg, rfl⟩ := List.mem_map.mp hn
    exact hgroup g hg
  unfold coalesceDPM
  rw [hcapped]
  split <;> rfl

/-- **Samples in groups of their own are all kept.** -/
theorem coalesceDPM_of_pairwise {samples : List (Sample V)}
    (h : samples.Pairwise fun a b => dpmKey a ≠ dpmKey b) (maxDPM : Int) :
    coalesceDPM samples maxDPM = (samples, 0) := by
  have hlimit : 1 ≤ dpmLimit maxDPM := by
    unfold dpmLimit
    split <;> omega
  exact coalesceDPM_of_groups_le fun k => (Lib.length_filter_key_le h k).trans hlimit

/-! ### What is kept of a group -/

theorem survivors_length (m : Nat) (idxs : List (Sample V × Nat)) :
    (survivors m idxs).length = min m idxs.length := by
  unfold survivors
  split
  · omega
  · rw [List.length_take, List.length_insertionSort]

/-- The survivors by position, also when nothing is suppressed. -/
theorem coalesceDPM_fst (samples : List (Sample V)) (maxDPM : Int) :
    (coalesceDPM samples maxDPM).1 =
      (samples.zipIdx.filter fun p => (dpmKeep samples maxDPM).contains p.2).map Prod.fst := by
  unfold coalesceDPM
  split
  · rename_i hempty
    obtain rfl := List.isEmpty_iff.mp hempty
    rfl
  · split
    · rename_i hcapped
      have hlength := filter_keep_length samples maxDPM
      have htotal := dpmKeep_length_add samples maxDPM
      have hall : (samples.zipIdx.filter fun p => (dpmKeep samples maxDPM).contains p.2) =
          samples.zipIdx :=
        List.filter_sublist.eq_of_length (by rw [List.length_zipIdx]; omega)
      rw [hall, List.zipIdx_map_fst]
    · rfl

omit [LT V] [DecidableLT V] in
theorem nodup_positions (samples : List (Sample V)) :
    (samples.zipIdx.map Prod.snd).Nodup := by
  rw [List.zipIdx_map_snd]
  exact List.nodup_range'

theorem mem_dpmKeep_iff {samples : List (Sample V)} {maxDPM : Int} {p : Sample V × Nat}
    (hp : p ∈ samples.zipIdx) : p.2 ∈ dpmKeep samples maxDPM ↔
      p ∈ survivors (dpmLimit maxDPM) (samples.zipIdx.filter fun q => dpmKey q.1 = dpmKey p.1) := by
  unfold dpmKeep dpmGroups
  rw [Lib.groupBy_eq, List.flatMap_map]
  simp only [List.mem_flatMap, List.mem_map]
  constructor
  · rintro ⟨k, -, q, hq, hpos⟩
    obtain ⟨hq', hkey⟩ := List.mem_filter.mp ((survivors_subperm _ _).subset hq)
    obtain rfl : q = p := List.inj_on_of_nodup_map (nodup_positions samples) hq' hp hpos
    rwa [of_decide_eq_true hkey]
  · intro h
    refine ⟨dpmKey p.1, List.mem_map.mp ((Lib.mem_keys_groupBy _ _ _).mpr ?_), p, h, rfl⟩
    exact List.mem_map_of_mem (f := fun q : Sample V × Nat => dpmKey q.1) hp

/-- **Of each group the survivors are kept.** -/
theorem filter_coalesceDPM_perm (samples : List (Sample V)) (maxDPM : Int) (k : String × Int) :
    ((coalesceDPM samples maxDPM).1.filter fun s => dpmKey s = k).Perm
      ((survivors (dpmLimit maxDPM) (samples.zipIdx.filter fun p => dpmKey p.1 = k)).map
        Prod.fst) := by
  rw [coalesceDPM_fst, List.filter_map]
  refine List.Perm.map _ ?_
  have hnodup : samples.zipIdx.Nodup := (nodup_positions samples).of_map
  obtain ⟨l, hperm, hsub⟩ := survivors_subperm (dpmLimit maxDPM)
    (samples.zipIdx.filter fun p => dpmKey p.1 = k)
  refine (List.perm_ext_iff_of_nodup ((hnodup.filter _).filter _)
    (hperm.nodup_iff.mp (hsub.nodup (hnodup.filter _)))).mpr fun p => ?_
  simp only [List.mem_filter, List.contains_iff_mem, Function.comp_apply, decide_eq_true_eq]
  constructor
  · rintro ⟨⟨hp, hkeep⟩, rfl⟩
    exact (mem_dpmKeep_iff hp).mp hkeep
  · intro h
    obtain ⟨hp, hkey⟩ := List.mem_filter.mp ((survivors_subperm _ _).subset h)
    obtain rfl := of_decide_eq_true hkey
    exact ⟨⟨hp, (mem_dpmKeep_iff hp).mpr h⟩, rfl⟩

/-- With a limit of one, no two of the samples kept are in one group. -/
theorem coalesceDPM_one_pairwise (samples : List (Sample V)) :
    (coalesceDPM samples 1).1.Pairwise fun a b => dpmKey a ≠ dpmKey b := by
  refine Lib.pairwise_of_length_filter_key_le fun k => ?_
  rw [(filter_coalesceDPM_perm samples 1 k).length_eq, List.length_map, survivors_length]
  exact Nat.min_le_left 1 _

end GenaiBridge
