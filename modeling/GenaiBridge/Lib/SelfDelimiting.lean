/-
Codes that end where they end.

A code is self-delimiting if what follows a word does not change how the word is read.
A sequence of such words then stands for no other sequence, and two such codes after one
another are one again.  A separator splits a text in the same way, at its first occurrence
or at its last.
-/
import Mathlib.Data.List.Basic

namespace Lib

variable {α β γ : Type}

/-- A code of which no word is empty and every word ends where it ends. -/
structure SelfDelimiting (code : α → List γ) : Prop where
  ne_nil : ∀ a, code a ≠ []
  append_inj : ∀ {a b : α} {rest rest' : List γ},
    code a ++ rest = code b ++ rest' → a = b ∧ rest = rest'

namespace SelfDelimiting

/-- One code after the other. -/
theorem pair {code : α → List γ} {code' : β → List γ} (h : SelfDelimiting code)
    (h' : SelfDelimiting code') : SelfDelimiting fun p : α × β => code p.1 ++ code' p.2 where
  ne_nil p hnil := h.ne_nil p.1 (List.append_eq_nil_iff.mp hnil).1
  append_inj heq := by
    simp only [List.append_assoc] at heq
    obtain ⟨hfst, heq⟩ := h.append_inj heq
    obtain ⟨hsnd, heq⟩ := h'.append_inj heq
    exact ⟨Prod.ext hfst hsnd, heq⟩

/-- **A sequence of words is determined by its text.** -/
theorem flatMap_injective {code : α → List γ} (h : SelfDelimiting code) :
    Function.Injective fun l : List α => l.flatMap code := by
  intro l l' heq
  induction l generalizing l' with
  | nil =>
    cases l' with
    | nil => rfl
    | cons b l' => exact absurd (List.append_eq_nil_iff.mp heq.symm).1 (h.ne_nil b)
  | cons a l ih =>
    cases l' with
    | nil => exact absurd (List.append_eq_nil_iff.mp heq).1 (h.ne_nil a)
    | cons b l' =>
      obtain ⟨rfl, hrest⟩ := h.append_inj heq
      rw [ih hrest]

end SelfDelimiting

/-! ### A separator -/

/-- A text up to the first separator, and the rest. -/
theorem append_separator_inj {sep : γ} : ∀ {a a' b b' : List γ}, sep ∉ a → sep ∉ a' →
    a ++ sep :: b = a' ++ sep :: b' → a = a' ∧ b = b' := by
  intro a
  induction a with
  | nil =>
    intro a' b b' _ ha' h
    cases a' with
    | nil => exact ⟨rfl, (List.cons.inj h).2⟩
    | cons x a' => exact absurd (by simp [(List.cons.inj h).1]) ha'
  | cons x a ih =>
    intro a' b b' ha ha' h
    cases a' with
    | nil => exact absurd (by simp [(List.cons.inj h).1]) ha
    | cons y a' =>
      obtain ⟨hxy, hrest⟩ := List.cons.inj h
      obtain ⟨haa, hbb⟩ := ih (fun hm => ha (List.mem_cons_of_mem _ hm))
        (fun hm => ha' (List.mem_cons_of_mem _ hm)) hrest
      exact ⟨by rw [hxy, haa], hbb⟩

/-- What follows the last separator. -/
theorem separator_append_inj {sep : γ} {a a' b b' : List γ} (hb : sep ∉ b) (hb' : sep ∉ b')
    (h : a ++ sep :: b = a' ++ sep :: b') : b = b' := by
  have hreverse := congrArg List.reverse h
  simp only [List.reverse_append, List.reverse_cons, List.append_assoc, List.singleton_append]
    at hreverse
  have hmem : ∀ {l : List γ}, sep ∉ l → sep ∉ l.reverse := by
    intro l hl hm
    exact hl (List.mem_reverse.mp hm)
  exact List.reverse_inj.mp (append_separator_inj (hmem hb) (hmem hb') hreverse).1

end Lib
