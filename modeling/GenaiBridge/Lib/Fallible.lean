/-
Computations that may fail.

A computation in `Except` that succeeds, by its parts.  Of a fold that succeeds, what each
step keeps the whole keeps; the results of a traversal go with its inputs one by one, so
that what sets two inputs apart can set their results apart.
-/
import Mathlib.Data.List.Forall2

namespace Lib

variable {ε ε' σ α β : Type}

/-! ### The parts of a computation -/

/-- A computation that succeeds, by its two parts. -/
theorem bind_ok {x : Except ε α} {f : α → Except ε β} {b : β} (h : x >>= f = .ok b) :
    ∃ a, x = .ok a ∧ f a = .ok b := by
  cases x with
  | error e => cases h
  | ok a => exact ⟨a, rfl, h⟩

theorem map_ok {x : Except ε α} {f : α → β} {b : β} :
    x.map f = .ok b ↔ ∃ a, x = .ok a ∧ f a = b := by
  cases x with
  | error e => simp [Except.map]
  | ok a => simp [Except.map]

theorem mapError_ok {f : ε → ε'} {x : Except ε α} {a : α} (h : x.mapError f = .ok a) :
    x = .ok a := by
  cases x with
  | error e => cases h
  | ok b =>
    cases h
    rfl

/-- A computation whose errors are put into words, and what is made of its result. -/
theorem mapError_bind_ok {f : ε → ε'} {x : Except ε α} {g : α → β} {b : β} :
    (x.mapError f >>= fun a => pure (g a)) = .ok b ↔ ∃ a, x = .ok a ∧ b = g a := by
  constructor
  · intro h
    obtain ⟨a, ha, hb⟩ := bind_ok h
    exact ⟨a, mapError_ok ha, (Except.ok.inj hb).symm⟩
  · rintro ⟨a, rfl, rfl⟩
    rfl

/-- A check that did not fail, and what came after it. -/
theorem guard_ok {p : Prop} [Decidable p] {e : ε} {rest : PUnit → Except ε Unit}
    (h : (if p then throw e >>= rest else rest ()) = .ok ()) : ¬p ∧ rest () = .ok () := by
  by_cases hp : p
  · rw [if_pos hp] at h
    cases h
  · rw [if_neg hp] at h
    exact ⟨hp, h⟩

/-- A computation with a result of which something was observed. -/
theorem ok_of_toOption_map {x : Except ε α} {f : α → β} {b : β} (h : x.toOption.map f = some b) :
    ∃ a, x = .ok a ∧ f a = b := by
  cases x with
  | error e => cases h
  | ok a => exact ⟨a, rfl, Option.some.inj h⟩

/-! ### Folds and traversals -/

/-- **The invariant rule** for a fold that succeeds. -/
theorem foldlM_invariant {step : σ → α → Except ε σ} {p : σ → Prop}
    (hstep : ∀ s a s', step s a = .ok s' → p s → p s') :
    ∀ {l : List α} {s s' : σ}, l.foldlM step s = .ok s' → p s → p s' := by
  intro l
  induction l with
  | nil =>
    intro s s' h hp
    obtain rfl : s = s' := Except.ok.inj h
    exact hp
  | cons a l ih =>
    intro s s' h hp
    rw [List.foldlM_cons] at h
    obtain ⟨next, hnext, h⟩ := bind_ok h
    exact ih h (hstep s a next hnext hp)

/-- The results of a traversal that succeeds, one for each input. -/
theorem forall₂_of_mapM_ok {f : α → Except ε β} : ∀ {l : List α} {r : List β},
    l.mapM f = .ok r → List.Forall₂ (fun a b => f a = .ok b) l r := by
  intro l
  induction l with
  | nil =>
    intro r h
    obtain rfl : [] = r := Except.ok.inj h
    exact .nil
  | cons a l ih =>
    intro r h
    rw [List.mapM_cons] at h
    obtain ⟨b, hhead, h⟩ := bind_ok h
    obtain ⟨bs, htail, h⟩ := bind_ok h
    obtain rfl : b :: bs = r := Except.ok.inj h
    exact .cons hhead (ih htail)

/-- The result of an input. -/
theorem exists_result {R : α → β → Prop} : ∀ {l : List α} {r : List β}, List.Forall₂ R l r →
    ∀ a ∈ l, ∃ b ∈ r, R a b := by
  intro l r hall
  induction hall with
  | nil =>
    intro a ha
    cases ha
  | @cons a b l r hab hall ih =>
    refine List.forall_mem_cons.mpr ⟨⟨b, List.mem_cons_self, hab⟩, ?_⟩
    intro a' ha'
    obtain ⟨b', hb', hR⟩ := ih a' ha'
    exact ⟨b', List.mem_cons_of_mem _ hb', hR⟩

/-- The input of a result. -/
theorem exists_input {R : α → β → Prop} {l : List α} {r : List β} (h : List.Forall₂ R l r) :
    ∀ b ∈ r, ∃ a ∈ l, R a b :=
  exists_result h.flip

/-- The elements of a traversal that succeeded. -/
theorem mem_of_mapM_ok {f : α → Except ε β} {l : List α} {r : List β} (h : l.mapM f = .ok r) :
    ∀ b ∈ r, ∃ a ∈ l, f a = .ok b :=
  exists_input (forall₂_of_mapM_ok h)

/-- What holds between any two inputs, said of their results. -/
theorem pairwise_of_forall₂ {R : α → β → Prop} {S : α → α → Prop} {T : β → β → Prop}
    (hT : ∀ a b a' b', R a b → R a' b' → S a a' → T b b') :
    ∀ {l : List α} {r : List β}, List.Forall₂ R l r → l.Pairwise S → r.Pairwise T := by
  intro l r hall
  induction hall with
  | nil =>
    intro _
    exact .nil
  | @cons a b l r hab hall ih =>
    intro hS
    obtain ⟨hhead, hrest⟩ := List.pairwise_cons.mp hS
    refine List.pairwise_cons.mpr ⟨?_, ih hrest⟩
    intro b' hb'
    obtain ⟨a', ha', hR⟩ := exists_input hall b' hb'
    exact hT a b a' b' hab hR (hhead a' ha')

end Lib
