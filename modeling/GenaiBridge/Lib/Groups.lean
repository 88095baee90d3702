/-
Grouping a list by a key.

A program that buckets its input keeps a map from key to the items seen so far and
appends each item to its entry.  `groupBy` is that loop, with the map kept as an
association list in order of first appearance.

Two facts carry every use of it.  `groupBy_eq` says what the loop ends with: one
entry for each key, holding exactly the items of that key in input order.
`flatMap_filter_perm` says that walking the keys in *any* order visits every item
exactly once, which is what makes the iteration order of a hash map, or a sort of
the keys, irrelevant to what is processed.
-/
import Mathlib.Data.List.Basic
import Mathlib.Data.List.Dedup
import Mathlib.Data.List.Nodup
import Mathlib.Data.List.Perm.Basic

namespace Lib

variable {α κ : Type} [DecidableEq κ]

/-- Append `a` to the entry of `k`, opening the entry if there is none. -/
def groupInsert (k : κ) (a : α) : List (κ × List α) → List (κ × List α)
  | [] => [(k, [a])]
  | (k', xs) :: rest =>
    if k' = k then (k', xs ++ [a]) :: rest else (k', xs) :: groupInsert k a rest

/-- Append every item to the entry of its key, from left to right. -/
def groupBy (key : α → κ) (l : List α) : List (κ × List α) :=
  l.foldl (fun g a => groupInsert (key a) a g) []

/-- The items stored under `k`, none if there is no entry. -/
def lookupGroup : List (κ × List α) → κ → List α
  | [], _ => []
  | (k', xs) :: rest, k => if k' = k then xs else lookupGroup rest k

/-! ### One insertion -/

theorem keys_groupInsert (k : κ) (a : α) (g : List (κ × List α)) :
    (groupInsert k a g).map Prod.fst
      = if k ∈ g.map Prod.fst then g.map Prod.fst else g.map Prod.fst ++ [k] := by
  induction g with
  | nil => simp [groupInsert]
  | cons p rest ih =>
    obtain ⟨k', xs⟩ := p
    by_cases h : k' = k
    · simp [groupInsert, h]
    · simp only [groupInsert, if_neg h, List.map_cons, ih, List.mem_cons]
      by_cases hm : k ∈ rest.map Prod.fst
      · simp [hm]
      · rw [if_neg hm, if_neg (by simp [hm, Ne.symm h])]
        simp

theorem lookupGroup_groupInsert (k j : κ) (a : α) (g : List (κ × List α)) :
    lookupGroup (groupInsert k a g) j
      = if k = j then lookupGroup g j ++ [a] else lookupGroup g j := by
  induction g with
  | nil => simp [groupInsert, lookupGroup]
  | cons p rest ih =>
    obtain ⟨k', xs⟩ := p
    by_cases h : k' = k
    · subst h
      by_cases hj : k' = j <;> simp [groupInsert, lookupGroup, hj]
    · simp only [groupInsert, if_neg h, lookupGroup, ih]
      by_cases hj : k' = j
      · have hkj : ¬k = j := fun hc => h (hj.trans hc.symm)
        simp [hj, hkj]
      · simp [hj]

/-- With distinct keys, a group list is its keys with what is stored under each. -/
theorem eq_map_lookupGroup {g : List (κ × List α)} (h : (g.map Prod.fst).Nodup) :
    g = (g.map Prod.fst).map fun k => (k, lookupGroup g k) := by
  induction g with
  | nil => rfl
  | cons p rest ih =>
    obtain ⟨k', xs⟩ := p
    obtain ⟨hnot, hrest⟩ := List.nodup_cons.mp h
    simp only [List.map_cons, lookupGroup, if_true, List.cons.injEq, true_and]
    conv_lhs => rw [ih hrest]
    refine List.map_congr_left fun k hk => ?_
    have hne : ¬k' = k := fun hc => hnot (hc ▸ hk)
    rw [if_neg hne]

/-! ### The whole loop -/

private theorem lookupGroup_foldl (key : α → κ) (k : κ) (l : List α) :
    ∀ g : List (κ × List α),
      lookupGroup (l.foldl (fun g a => groupInsert (key a) a g) g) k
        = lookupGroup g k ++ l.filter (fun a => key a = k) := by
  induction l with
  | nil => intro g; simp
  | cons a rest ih =>
    intro g
    rw [List.foldl_cons, ih, lookupGroup_groupInsert]
    by_cases h : key a = k <;> simp [h]

private theorem keys_foldl (key : α → κ) (l : List α) :
    ∀ g : List (κ × List α), (g.map Prod.fst).Nodup →
      ((l.foldl (fun g a => groupInsert (key a) a g) g).map Prod.fst).Nodup ∧
      ∀ k, k ∈ (l.foldl (fun g a => groupInsert (key a) a g) g).map Prod.fst
        ↔ k ∈ g.map Prod.fst ∨ k ∈ l.map key := by
  induction l with
  | nil => intro g hg; exact ⟨hg, by simp⟩
  | cons a rest ih =>
    intro g hg
    have hkeys := keys_groupInsert (key a) a g
    have hnodup : ((groupInsert (key a) a g).map Prod.fst).Nodup := by
      rw [hkeys]
      split
      · exact hg
      · rename_i hnot
        refine List.nodup_append.mpr ⟨hg, List.nodup_singleton _, ?_⟩
        intro x hx y hy hxy
        have hya : y = key a := by simpa using hy
        exact hnot (by rw [← hya, ← hxy]; exact hx)
    obtain ⟨hres, hmem⟩ := ih _ hnodup
    refine ⟨hres, fun k => ?_⟩
    rw [List.foldl_cons, hmem k, hkeys]
    split
    · rename_i hin
      constructor
      · rintro (h | h)
        · exact Or.inl h
        · exact Or.inr (List.mem_cons_of_mem _ h)
      · rintro (h | h)
        · exact Or.inl h
        · rcases List.mem_cons.mp h with rfl | h
          · exact Or.inl hin
          · exact Or.inr h
    · simp only [List.mem_append, List.map_cons, List.mem_cons]
      tauto

theorem keys_groupBy_nodup (key : α → κ) (l : List α) :
    ((groupBy key l).map Prod.fst).Nodup := (keys_foldl key l [] (by simp)).1

theorem mem_keys_groupBy (key : α → κ) (l : List α) (k : κ) :
    k ∈ (groupBy key l).map Prod.fst ↔ k ∈ l.map key := by
  rw [groupBy, (keys_foldl key l [] (by simp)).2 k]
  simp

/-- What is stored under a key: the items of that key, in input order. -/
theorem lookupGroup_groupBy (key : α → κ) (l : List α) (k : κ) :
    lookupGroup (groupBy key l) k = l.filter (fun a => key a = k) := by
  simpa [groupBy, lookupGroup] using lookupGroup_foldl key k l []

/-- **What the grouping loop ends with.** -/
theorem groupBy_eq (key : α → κ) (l : List α) :
    groupBy key l
      = ((groupBy key l).map Prod.fst).map fun k => (k, l.filter (fun a => key a = k)) := by
  conv_lhs => rw [eq_map_lookupGroup (keys_groupBy_nodup key l)]
  refine List.map_congr_left fun k _ => ?_
  rw [lookupGroup_groupBy]

/-- **Walking the keys once, in any order, visits every item exactly once.** -/
theorem flatMap_filter_perm (key : α → κ) :
    ∀ (ks : List κ) (l : List α), ks.Nodup → (∀ a ∈ l, key a ∈ ks) →
      (ks.flatMap fun k => l.filter (fun a => key a = k)).Perm l := by
  intro ks
  induction ks with
  | nil =>
    intro l _ hall
    cases l with
    | nil => simp
    | cons a rest => exact absurd (hall a (by simp)) (by simp)
  | cons k rest ih =>
    intro l hnodup hall
    obtain ⟨hnot, hrest⟩ := List.nodup_cons.mp hnodup
    -- the items of the other keys are the same whether or not those of `k` are still there
    have hother : (rest.flatMap fun j => l.filter (fun a => key a = j))
        = rest.flatMap fun j => (l.filter (fun a => ¬key a = k)).filter (fun a => key a = j) := by
      refine List.flatMap_congr fun j hj => ?_
      rw [List.filter_filter]
      refine List.filter_congr fun a _ => ?_
      by_cases h : key a = j
      · have hne : ¬j = k := fun hc => hnot (hc ▸ hj)
        simp [h, hne]
      · simp [h]
    have hsub : ∀ a ∈ l.filter (fun a => ¬key a = k), key a ∈ rest := by
      intro a ha
      obtain ⟨hal, hne⟩ := List.mem_filter.mp ha
      rcases List.mem_cons.mp (hall a hal) with h | h
      · exact absurd h (by simpa using hne)
      · exact h
    rw [List.flatMap_cons, hother]
    refine ((ih _ hrest hsub).append_left _).trans ?_
    simpa using List.filter_append_perm (fun a => decide (key a = k)) l

/-- Lists that agree on every key agree as a whole, up to order. -/
theorem map_perm_of_filter_key {β : Type} {key : α → κ} {f : α → β} {l l' : List α}
    (h : ∀ k, ((l.filter fun a => key a = k).map f).Perm ((l'.filter fun a => key a = k).map f)) :
    (l.map f).Perm (l'.map f) := by
  -- both are walked along one list of keys
  let ks := ((l ++ l').map key).dedup
  have hwalk : ∀ l₀ : List α, (∀ a ∈ l₀, a ∈ l ++ l') →
      (ks.flatMap fun k => (l₀.filter fun a => key a = k).map f).Perm (l₀.map f) := by
    intro l₀ hsub
    have hperm := flatMap_filter_perm key ks l₀ (List.nodup_dedup _) fun a ha =>
      List.mem_dedup.mpr (List.mem_map_of_mem (hsub a ha))
    have hmap := hperm.map f
    rwa [List.map_flatMap] at hmap
  have hl := hwalk l fun a ha => List.mem_append_left _ ha
  have hl' := hwalk l' fun a ha => List.mem_append_right _ ha
  exact (hl.symm.trans (List.Perm.flatMap_left ks fun k _ => h k)).trans hl'

/-- Of items with keys of their own, at most one has a given key. -/
theorem length_filter_key_le {key : α → κ} {l : List α}
    (h : l.Pairwise fun a b => key a ≠ key b) (k : κ) :
    (l.filter fun a => key a = k).length ≤ 1 := by
  have hpair := List.Pairwise.filter (fun a => decide (key a = k)) h
  rcases hfilter : l.filter fun a => key a = k with _ | ⟨a, _ | ⟨b, rest⟩⟩
  · simp
  · simp
  · have hkey : ∀ x ∈ l.filter fun a => key a = k, key x = k := fun x hx => by
      simpa using (List.mem_filter.mp hx).2
    rw [hfilter] at hkey hpair
    have hne := (List.pairwise_cons.mp hpair).1 b (by simp)
    exact absurd ((hkey a (by simp)).trans (hkey b (by simp)).symm) hne

/-- And back. -/
theorem pairwise_of_length_filter_key_le {key : α → κ} {l : List α}
    (h : ∀ k, (l.filter fun a => key a = k).length ≤ 1) : l.Pairwise fun a b => key a ≠ key b := by
  induction l with
  | nil => exact List.Pairwise.nil
  | cons a rest ih =>
    refine List.pairwise_cons.mpr ⟨fun b hb heq => ?_, ih fun k => ?_⟩
    · have hone := h (key a)
      rw [List.filter_cons_of_pos (by simp), List.length_cons] at hone
      have hnone : rest.filter (fun b => key b = key a) = [] :=
        List.length_eq_zero_iff.mp (by omega)
      exact List.filter_eq_nil_iff.mp hnone b hb (by simp [heq])
    · exact Nat.le_trans ((List.sublist_cons_self a rest).filter _).length_le (h k)

end Lib
