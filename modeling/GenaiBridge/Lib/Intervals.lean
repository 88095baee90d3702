/-
Half-open intervals laid end to end.

A list of items, each covering `(lo, hi]`, none starting before its predecessor
ends.  The intervals are then disjoint, and a point between the first start and the
last end is in one of them unless it falls into a gap between two neighbours.
-/
import Mathlib.Data.List.Chain
import Mathlib.Order.Interval.Set.Defs
import Mathlib.Order.Lattice

namespace Lib

variable {ι α : Type} [LinearOrder α] {lo hi : ι → α}

/-- An item that ends before the next one starts, at every place in the list. -/
abbrev InOrder (lo hi : ι → α) (items : List ι) : Prop :=
  items.IsChain fun a b => hi a ≤ lo b

/-- Nothing after the first item starts before it ends. -/
theorem InOrder.hi_le_lo {a : ι} {items : List ι} (h : InOrder lo hi (a :: items))
    (hle : ∀ c ∈ items, lo c ≤ hi c) : ∀ c ∈ items, hi a ≤ lo c := by
  induction items generalizing a with
  | nil => simp
  | cons b rest ih =>
    obtain ⟨hab, hrest⟩ := List.isChain_cons_cons.mp h
    intro c hc
    rcases List.mem_cons.mp hc with rfl | hc
    · exact hab
    · calc hi a ≤ lo b := hab
        _ ≤ hi b := hle b List.mem_cons_self
        _ ≤ lo c := ih hrest (fun d hd => hle d (List.mem_cons_of_mem _ hd)) c hc

/-- **A point outside the gaps is in exactly one interval.** -/
theorem InOrder.exists_unique {items : List ι} (h : InOrder lo hi items)
    (hle : ∀ c ∈ items, lo c ≤ hi c) {x : α}
    (hgap : items.IsChain fun a b => ¬ (hi a < x ∧ x ≤ lo b))
    (hfirst : ∀ c ∈ items.head?, lo c < x) (hlast : ∃ c ∈ items.getLast?, x ≤ hi c) :
    ∃ pre c post, items = pre ++ c :: post ∧ x ∈ Set.Ioc (lo c) (hi c) ∧
      ∀ d ∈ pre ++ post, x ∉ Set.Ioc (lo d) (hi d) := by
  induction items with
  | nil => simp at hlast
  | cons a rest ih =>
    have hlo : lo a < x := hfirst a rfl
    have hle' : ∀ c ∈ rest, lo c ≤ hi c := fun c hc => hle c (List.mem_cons_of_mem _ hc)
    by_cases hhi : x ≤ hi a
    · -- the point is in the first interval, and the others start where it ends or later
      refine ⟨[], a, rest, rfl, ⟨hlo, hhi⟩, fun d hd hx => ?_⟩
      exact absurd (hhi.trans (h.hi_le_lo hle' d hd)) (not_le.mpr hx.1)
    · cases rest with
      | nil =>
        obtain ⟨c, hc, hxc⟩ := hlast
        obtain rfl : a = c := by simpa using hc
        exact absurd hxc hhi
      | cons b rest =>
        obtain ⟨hgab, hgrest⟩ := List.isChain_cons_cons.mp hgap
        have hb : lo b < x := by
          by_contra hnot
          exact hgab ⟨not_le.mp hhi, not_lt.mp hnot⟩
        obtain ⟨pre, c, post, heq, hmem, hothers⟩ :=
          ih h.tail hle' hgrest (by simpa using hb) (by simpa using hlast)
        refine ⟨a :: pre, c, post, by rw [heq, List.cons_append], hmem, fun d hd => ?_⟩
        rcases List.mem_cons.mp hd with rfl | hd
        · exact fun hx => hhi hx.2
        · exact hothers d hd

end Lib
