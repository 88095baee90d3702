/-
Sorting with a comparison that goes by keys.

A program hands its sort a comparison, often one of several levels.  When the comparison
amounts to the order of a key, the result is in key order; and when the key tells the
items of the list apart, the result depends on which items there are and not on where
they stood.
-/
import Mathlib.Data.List.Sort
import Mathlib.Data.Prod.Lex

namespace Lib

variable {α κ κ' : Type} [LinearOrder κ] [LinearOrder κ']

/-- The comparison `before` is the strict order of the keys. -/
def ComparesBy (key : α → κ) (before : α → α → Bool) : Prop :=
  ∀ a b, before a b = true ↔ key a < key b

namespace ComparesBy

theorem last (key : α → κ) [∀ a b, Decidable (key a < key b)] :
    ComparesBy key fun a b => decide (key a < key b) := fun _ _ => decide_eq_true_iff

/-- A level above: where its keys differ they decide. -/
theorem level (key : α → κ) {key' : α → κ'} {before : α → α → Bool} (h : ComparesBy key' before) :
    ComparesBy (fun a => toLex (key a, key' a)) fun a b =>
      if key a ≠ key b then decide (key a < key b) else before a b := by
  intro a b
  rw [Prod.Lex.toLex_lt_toLex]
  by_cases heq : key a = key b
  · simp [heq, h a b]
  · simp [heq]

variable {key : α → κ} {before : α → α → Bool} (h : ComparesBy key before)

include h

private theorem not_before (a b : α) : (!before b a) = true ↔ key a ≤ key b := by
  rw [Bool.not_eq_true', ← Bool.not_eq_true, h, not_lt]

/-- The sorted list is in key order. -/
theorem pairwise_sort (l : List α) :
    (l.insertionSort fun a b => !before b a).Pairwise fun a b => key a ≤ key b := by
  have htotal : Std.Total fun a b => (!before b a) = true :=
    ⟨fun a b => by simp only [h.not_before]; exact le_total _ _⟩
  have htrans : IsTrans α fun a b => (!before b a) = true :=
    ⟨fun a b c => by simp only [h.not_before]; exact le_trans⟩
  exact (List.pairwise_insertionSort _ l).imp fun hab => (h.not_before _ _).mp hab

/-- The keys of the sorted list are the sorted keys. -/
theorem map_sort (l : List α) :
    (l.insertionSort fun a b => !before b a).map key = (l.map key).insertionSort (· ≤ ·) :=
  List.map_insertionSort _ _ _ _ fun a _ b _ => h.not_before a b

/-- What a cut of the sorted list leaves before it is no later than what it leaves behind. -/
theorem le_of_mem_take_drop {l : List α} {n : Nat} {a b : α}
    (ha : a ∈ (l.insertionSort fun a b => !before b a).take n)
    (hb : b ∈ (l.insertionSort fun a b => !before b a).drop n) : key a ≤ key b := by
  have hsorted := h.pairwise_sort l
  rw [← List.take_append_drop n (l.insertionSort _)] at hsorted
  exact (List.pairwise_append.mp hsorted).2.2 a ha b hb

/-- **Sorting forgets where the items stood.** -/
theorem sort_eq_of_perm {l l' : List α} (hperm : l.Perm l')
    (hinj : ∀ a ∈ l, ∀ b ∈ l, key a = key b → a = b) :
    (l.insertionSort fun a b => !before b a) = l'.insertionSort fun a b => !before b a := by
  have hsorted : (l.insertionSort fun a b => !before b a).Perm
      (l'.insertionSort fun a b => !before b a) :=
    ((List.perm_insertionSort _ l).trans hperm).trans (List.perm_insertionSort _ l').symm
  refine hsorted.eq_of_pairwise (fun a b ha hb hab hba => ?_) (h.pairwise_sort l)
    (h.pairwise_sort l')
  have ha' : a ∈ l := (List.perm_insertionSort _ l).subset ha
  have hb' : b ∈ l := hperm.symm.subset ((List.perm_insertionSort _ l').subset hb)
  exact hinj a ha' b hb' (le_antisymm hab hba)

end ComparesBy

section Key

variable (key : α → κ)

/-- A list sorted by its keys is in key order. -/
theorem pairwise_sort_key (l : List α) :
    (l.insertionSort fun a b => key a ≤ key b).Pairwise fun a b => key a ≤ key b := by
  have htotal : Std.Total fun a b => key a ≤ key b := ⟨fun a b => le_total _ _⟩
  have htrans : IsTrans α fun a b => key a ≤ key b := ⟨fun a b c => le_trans⟩
  exact List.pairwise_insertionSort _ l

/-- The keys of a sorted list are the sorted keys. -/
theorem map_sort_key (l : List α) :
    (l.insertionSort fun a b => key a ≤ key b).map key = (l.map key).insertionSort (· ≤ ·) :=
  List.map_insertionSort _ _ _ _ fun _ _ _ _ => Iff.rfl

end Key

/-- The same of keys in their own order. -/
theorem insertionSort_eq_of_perm {ks ks' : List κ} (hperm : ks.Perm ks') :
    ks.insertionSort (· ≤ ·) = ks'.insertionSort (· ≤ ·) := by
  have hsorted : (ks.insertionSort (· ≤ ·)).Perm (ks'.insertionSort (· ≤ ·)) :=
    ((List.perm_insertionSort _ _).trans hperm).trans (List.perm_insertionSort _ _).symm
  exact hsorted.eq_of_pairwise (fun a b _ _ hab hba => le_antisymm hab hba)
    (List.pairwise_insertionSort _ _) (List.pairwise_insertionSort _ _)

end Lib
