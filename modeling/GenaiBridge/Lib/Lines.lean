/-
The lines of a sequence, each with the separator that ends it.

The last line may lack its separator.  Keeping the separators makes the lines a
partition of the sequence: they concatenate to it, and dropping the first `k` lines
is dropping their total length.
-/
import Mathlib.Data.List.Basic

namespace Lib

variable {α : Type} [DecidableEq α]

/-- The lines of a sequence, separators included. -/
def rawLines (sep : α) : List α → List (List α)
  | [] => []
  | a :: rest =>
    if a = sep then [a] :: rawLines sep rest
    else match rawLines sep rest with
      | [] => [[a]]
      | line :: lines => (a :: line) :: lines

/-- A line without its separator. -/
def content (sep : α) (line : List α) : List α :=
  if line.getLast? = some sep then line.dropLast else line

variable {sep : α}

@[simp] theorem rawLines_nil : rawLines sep [] = [] := rfl

theorem rawLines_of_sep {c rest : List α} (h : sep ∉ c) :
    rawLines sep (c ++ sep :: rest) = (c ++ [sep]) :: rawLines sep rest := by
  induction c with
  | nil => simp [rawLines]
  | cons a c ih =>
    obtain ⟨hne, hc⟩ : a ≠ sep ∧ sep ∉ c := by
      simpa [eq_comm] using h
    rw [List.cons_append, rawLines, if_neg hne, ih hc]
    rfl

theorem rawLines_of_notMem {c : List α} (h : sep ∉ c) (hne : c ≠ []) : rawLines sep c = [c] := by
  induction c with
  | nil => exact absurd rfl hne
  | cons a c ih =>
    obtain ⟨hne, hc⟩ : a ≠ sep ∧ sep ∉ c := by
      simpa [eq_comm] using h
    rw [rawLines, if_neg hne]
    by_cases hnil : c = []
    · subst hnil
      rfl
    · rw [ih hc hnil]

theorem content_of_sep (c : List α) : content sep (c ++ [sep]) = c := by
  simp [content]

theorem content_of_notMem {c : List α} (h : sep ∉ c) : content sep c = c := by
  unfold content
  rw [if_neg]
  exact fun hlast => h (List.mem_of_getLast? hlast)

/-- **The first line** of a sequence that is not empty: up to a separator, or all of it. -/
theorem rawLines_cases (sep : α) {bs : List α} (hne : bs ≠ []) :
    (∃ c rest, sep ∉ c ∧ bs = c ++ sep :: rest ∧
      rawLines sep bs = (c ++ [sep]) :: rawLines sep rest) ∨
    (sep ∉ bs ∧ rawLines sep bs = [bs]) := by
  by_cases h : sep ∈ bs
  · obtain ⟨c, rest, rfl, hc⟩ := List.eq_append_cons_of_mem h
    exact Or.inl ⟨c, rest, hc, rfl, rawLines_of_sep hc⟩
  · exact Or.inr ⟨h, rawLines_of_notMem h hne⟩

theorem rawLines_eq_nil {bs : List α} : rawLines sep bs = [] ↔ bs = [] := by
  constructor
  · intro h
    by_contra hne
    rcases rawLines_cases sep hne with ⟨c, rest, -, -, heq⟩ | ⟨-, heq⟩ <;>
      simp [heq] at h
  · rintro rfl
    rfl

/-- The first line is a part of the sequence, and the others are the lines of the rest. -/
theorem rawLines_eq_cons {bs line : List α} {lines : List (List α)}
    (h : rawLines sep bs = line :: lines) :
    line ≠ [] ∧ ∃ rest, bs = line ++ rest ∧ lines = rawLines sep rest := by
  have hne : bs ≠ [] := fun hnil => by simp [hnil] at h
  rcases rawLines_cases sep hne with ⟨c, rest, -, rfl, heq⟩ | ⟨-, heq⟩
  · obtain ⟨rfl, rfl⟩ := List.cons.inj (heq.symm.trans h)
    exact ⟨by simp, rest, by simp, rfl⟩
  · obtain ⟨rfl, rfl⟩ := List.cons.inj (heq.symm.trans h)
    exact ⟨hne, [], by simp, rfl⟩

/-- **The lines are a partition.** -/
theorem flatten_rawLines (bs : List α) : (rawLines sep bs).flatten = bs := by
  generalize hlines : rawLines sep bs = lines
  induction lines generalizing bs with
  | nil => exact (rawLines_eq_nil.mp hlines).symm
  | cons line lines ih =>
    obtain ⟨-, rest, rfl, rfl⟩ := rawLines_eq_cons hlines
    rw [List.flatten_cons, ih rest rfl]

/-- There are no more lines than elements. -/
theorem length_rawLines_le (bs : List α) : (rawLines sep bs).length ≤ bs.length := by
  generalize hlines : rawLines sep bs = lines
  induction lines generalizing bs with
  | nil => simp
  | cons line lines ih =>
    obtain ⟨hne, rest, rfl, rfl⟩ := rawLines_eq_cons hlines
    have hrest := ih rest rfl
    have hpos := List.length_pos_iff.mpr hne
    rw [List.length_cons, List.length_append]
    omega

/-- Dropping the first `k` lines of a sequence. -/
theorem rawLines_drop (bs : List α) (k : Nat) :
    rawLines sep (bs.drop ((rawLines sep bs).take k).flatten.length) = (rawLines sep bs).drop k := by
  induction k generalizing bs with
  | zero => simp
  | succ k ih =>
    cases hlines : rawLines sep bs with
    | nil => simp [rawLines_eq_nil.mp hlines]
    | cons line lines =>
      obtain ⟨-, rest, rfl, rfl⟩ := rawLines_eq_cons hlines
      rw [List.take_succ_cons, List.flatten_cons, List.length_append, List.drop_succ_cons,
        ← List.drop_drop, List.drop_left, ih rest]

/-- Before its last line a sequence is not over. -/
theorem flatten_take_lt {bs : List α} {k : Nat} (h : k < (rawLines sep bs).length) :
    ((rawLines sep bs).take k).flatten.length < bs.length := by
  by_contra hle
  have hdrop := @rawLines_drop _ _ sep bs k
  rw [List.drop_of_length_le (Nat.not_lt.mp hle)] at hdrop
  have := List.drop_eq_nil_iff.mp hdrop.symm
  omega

/-- Lines that leave something over end in a separator. -/
theorem getLast?_of_mem_take {bs : List α} {k : Nat}
    (h : ((rawLines sep bs).take k).flatten.length < bs.length) :
    ∀ line ∈ (rawLines sep bs).take k, line.getLast? = some sep := by
  induction k generalizing bs with
  | zero => simp
  | succ k ih =>
    have hne : bs ≠ [] := fun hnil => by simp [hnil] at h
    rcases rawLines_cases sep hne with ⟨c, rest, -, rfl, hlines⟩ | ⟨-, hlines⟩
    · rw [hlines, List.take_succ_cons] at h ⊢
      intro line hline
      rcases List.mem_cons.mp hline with rfl | hline
      · simp
      · exact ih (by simp at h ⊢; omega) line hline
    · simp [hlines] at h

/-- Lines that end in a separator, at the start of a sequence, are lines of any continuation. -/
theorem take_rawLines_append {bs more : List α} {k : Nat}
    (h : (∀ line ∈ (rawLines sep bs).take k, line.getLast? = some sep) ∨ more = [])
    (hk : k ≤ (rawLines sep bs).length) :
    (rawLines sep (bs ++ more)).take k = (rawLines sep bs).take k := by
  induction k generalizing bs with
  | zero => simp
  | succ k ih =>
    have hne : bs ≠ [] := fun hnil => by simp [hnil] at hk
    rcases rawLines_cases sep hne with ⟨c, rest, hc, rfl, hlines⟩ | ⟨hc, hlines⟩
    · rw [hlines, List.take_succ_cons] at h ⊢
      rw [hlines, List.length_cons] at hk
      rw [List.append_assoc, List.cons_append, rawLines_of_sep hc, List.take_succ_cons, ih]
      · exact h.imp_left fun h line hline => h line (List.mem_cons_of_mem _ hline)
      · omega
    · -- the first line has no separator
      obtain h | rfl := h
      · have hlast := h bs (by simp [hlines])
        exact absurd (List.mem_of_getLast? hlast) hc
      · rw [List.append_nil]

end Lib
