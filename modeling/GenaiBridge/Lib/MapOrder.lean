/-
The order in which a map yields its entries.

A hash map yields its entries in any order, a different one each time.  A program whose
result must not depend on it collects the keys and sorts them; what it then sees is the
map's entries in key order, whatever the order was.
-/
import GenaiBridge.Lib.SortBy
import GenaiBridge.Lib.SortedMap

namespace Lib

/-- An order in which the entries of a map, or the keys, are visited: each once. -/
structure MapOrder where
  visit : {α : Type} → List α → List α
  perm : ∀ {α : Type} (l : List α), (visit l).Perm l

namespace MapOrder

/-- The order the entries are stored in. -/
def stored : MapOrder := ⟨fun l => l, fun l => List.Perm.refl l⟩

variable {κ α : Type} [LinearOrder κ]

/-- **Sorting forgets the order of the visit.** -/
theorem insertionSort_visit (o : MapOrder) (ks : List κ) :
    (o.visit ks).insertionSort (· ≤ ·) = ks.insertionSort (· ≤ ·) :=
  insertionSort_eq_of_perm (o.perm ks)

end MapOrder

namespace SortedMap

variable {κ α : Type} [LinearOrder κ]

/-- The entries as a program gets them that collects the keys, sorts them and looks each one up. -/
def inKeyOrder (o : MapOrder) (m : SortedMap κ α) : List (κ × α) :=
  ((o.visit m.keys).insertionSort (· ≤ ·)).filterMap fun k => (m.get? k).map fun v => (k, v)

private theorem sorted_keys (m : SortedMap κ α) : m.keys.Pairwise (· ≤ ·) :=
  List.pairwise_map.mpr (m.sorted.imp le_of_lt)

private theorem filterMap_keys (m : SortedMap κ α) :
    (m.keys.filterMap fun k => (m.get? k).map fun v => (k, v)) = m.entries := by
  unfold keys
  rw [List.filterMap_map]
  conv_rhs => rw [← List.filterMap_some (l := m.entries)]
  refine List.filterMap_congr fun e he => ?_
  rw [Function.comp_apply, get?_eq_some.mpr he]
  rfl

/-- **That program sees the entries in key order.** -/
theorem inKeyOrder_eq (o : MapOrder) (m : SortedMap κ α) : m.inKeyOrder o = m.entries := by
  unfold inKeyOrder
  rw [o.insertionSort_visit, m.sorted_keys.insertionSort_eq, filterMap_keys]

end SortedMap

end Lib
