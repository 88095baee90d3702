/-
Texts as words between separators.

Joining lists with a separator and splitting at it again gives the lists back, each split
where it held the separator itself.  `words` are the runs of elements that satisfy a
predicate: joined by an element that does not, they are the words again.  `trim` takes the
elements that satisfy a predicate off both ends.
-/
import Mathlib.Data.List.DropRight

namespace Lib

variable {α : Type*}

/-! ### Splitting what was joined -/

theorem splitOn_join [BEq α] [LawfulBEq α] (x : α) : ∀ {ls : List (List α)}, ls ≠ [] →
    ([x].intercalate ls).splitOn x = ls.flatMap (List.splitOn x) := by
  intro ls
  induction ls with
  | nil => exact fun h => absurd rfl h
  | cons l ls ih =>
    intro _
    by_cases hls : ls = []
    · simp [hls]
    · rw [List.intercalate_cons_of_ne_nil hls, List.append_assoc, List.singleton_append,
        List.splitOn_append_cons_self, ih hls, List.flatMap_cons]

theorem join_eq_nil {sep : α} {ls : List (List α)} (h : ∀ l ∈ ls, l ≠ []) :
    [sep].intercalate ls = [] ↔ ls = [] := by
  cases ls with
  | nil => simp
  | cons l ls =>
    have hl := h l List.mem_cons_self
    by_cases hls : ls = []
    · simp [hls, hl]
    · simp [List.intercalate_cons_of_ne_nil hls]

theorem mem_join {sep a : α} : ∀ {ls : List (List α)}, a ∈ [sep].intercalate ls →
    a = sep ∨ ∃ l ∈ ls, a ∈ l := by
  intro ls
  induction ls with
  | nil => exact fun h => nomatch h
  | cons l ls ih =>
    intro h
    by_cases hls : ls = []
    · exact .inr ⟨l, List.mem_cons_self, by simpa [hls] using h⟩
    · rw [List.intercalate_cons_of_ne_nil hls, List.append_assoc, List.singleton_append,
        List.mem_append, List.mem_cons] at h
      rcases h with h | h | h
      · exact .inr ⟨l, List.mem_cons_self, h⟩
      · exact .inl h
      · exact (ih h).imp_right fun ⟨l', hl', ha⟩ => ⟨l', List.mem_cons_of_mem _ hl', ha⟩

theorem not_mem_of_mem_splitOnP {p : α → Bool} : ∀ {l w : List α}, w ∈ l.splitOnP p →
    ∀ a ∈ w, p a = false := by
  intro l
  induction l with
  | nil =>
    intro w hw
    rw [List.splitOnP_nil, List.mem_singleton] at hw
    simp [hw]
  | cons b l ih =>
    intro w hw a ha
    rw [List.splitOnP_cons_eq_if_modifyHead] at hw
    by_cases hb : p b = true
    · rw [if_pos hb] at hw
      rcases List.mem_cons.mp hw with rfl | hw
      · cases ha
      · exact ih hw a ha
    · rw [if_neg hb] at hw
      obtain ⟨v, vs, hvs⟩ := List.exists_cons_of_ne_nil (List.splitOnP_ne_nil p l)
      rw [hvs] at hw ih
      rcases List.mem_cons.mp hw with rfl | hw
      · rcases List.mem_cons.mp ha with rfl | ha
        · exact Bool.not_eq_true _ ▸ hb
        · exact ih List.mem_cons_self a ha
      · exact ih (List.mem_cons_of_mem _ hw) a ha

/-! ### Words -/

/-- The runs of elements that satisfy `p`, as long as they are. -/
def words (p : α → Bool) (l : List α) : List (List α) :=
  (l.splitOnP fun a => !p a).filter fun w => !w.isEmpty

/-- A word is a run of such elements, and not empty. -/
structure IsWord (p : α → Bool) (w : List α) : Prop where
  nonempty : w ≠ []
  all : ∀ a ∈ w, p a = true

theorem isWord_of_mem_words {p : α → Bool} {l w : List α} (h : w ∈ words p l) : IsWord p w := by
  obtain ⟨hmem, hne⟩ := List.mem_filter.mp h
  refine ⟨by simpa using hne, fun a ha => ?_⟩
  simpa using not_mem_of_mem_splitOnP hmem a ha

theorem words_append_cons {p : α → Bool} {sep : α} (hsep : p sep = false) (l l' : List α) :
    words p (l ++ sep :: l') = words p l ++ words p l' := by
  unfold words
  rw [List.splitOnP_append_cons l l' (by simp [hsep]), List.filter_append]

theorem words_of_isWord {p : α → Bool} {w : List α} (h : IsWord p w) : words p w = [w] := by
  unfold words
  rw [List.splitOnP_eq_singleton fun a ha => by simp [h.all a ha]]
  simp [h.nonempty]

/-- **Words that are joined are the words.** -/
theorem words_join {p : α → Bool} {sep : α} (hsep : p sep = false) : ∀ {ws : List (List α)},
    (∀ w ∈ ws, IsWord p w) → words p ([sep].intercalate ws) = ws := by
  intro ws
  induction ws with
  | nil => exact fun _ => rfl
  | cons w ws ih =>
    intro h
    have hw := words_of_isWord (h w List.mem_cons_self)
    by_cases hws : ws = []
    · simpa [hws] using hw
    · rw [List.intercalate_cons_of_ne_nil hws, List.append_assoc, List.singleton_append,
        words_append_cons hsep, hw, ih fun v hv => h v (List.mem_cons_of_mem _ hv)]
      rfl

/-! ### Trimming -/

/-- What is left when the elements that satisfy `p` are taken off both ends. -/
def trim (p : α → Bool) (l : List α) : List α := (l.dropWhile p).rdropWhile p

theorem trim_sublist (p : α → Bool) (l : List α) : (trim p l).Sublist l :=
  (List.rdropWhile_prefix p _).sublist.trans (List.dropWhile_sublist p)

theorem rdropWhile_cons (p : α → Bool) (a : α) (l : List α) :
    (a :: l).rdropWhile p =
      if p a ∧ l.rdropWhile p = [] then [] else a :: l.rdropWhile p := by
  unfold List.rdropWhile
  rw [List.reverse_cons, List.dropWhile_append]
  by_cases hnil : l.reverse.dropWhile p = []
  · by_cases ha : p a = true
    · simp [hnil, ha]
    · simp [hnil, ha]
  · simp [hnil]

/-- A list with nothing to take off at either end. -/
theorem trim_eq_self {p : α → Bool} {l : List α} (hhead : ∀ a, l.head? = some a → p a = false)
    (hlast : ∀ a, l.getLast? = some a → p a = false) : trim p l = l := by
  have hdrop : ∀ {l : List α}, (∀ a, l.head? = some a → p a = false) → l.dropWhile p = l := by
    intro l h
    cases l with
    | nil => rfl
    | cons a l => simp [h a rfl]
  unfold trim List.rdropWhile
  rw [hdrop hhead, hdrop (by rwa [List.head?_reverse]), List.reverse_reverse]

theorem trim_trim (p : α → Bool) (l : List α) : trim p (trim p l) = trim p l := by
  refine trim_eq_self (fun a ha => ?_) (fun a ha => ?_)
  · -- the head is that of what is left when only the front is taken off
    have hhead : (l.dropWhile p).head? = some a := by
      obtain ⟨rest, hrest⟩ := List.rdropWhile_prefix p (l.dropWhile p)
      unfold trim at ha
      rw [← hrest, List.head?_append, ha]
      rfl
    have := List.head?_dropWhile_not p l
    rw [hhead] at this
    simpa using this
  · have hhead : ((l.dropWhile p).reverse.dropWhile p).head? = some a := by
      rw [← List.getLast?_reverse]
      exact ha
    have := List.head?_dropWhile_not p (l.dropWhile p).reverse
    rw [hhead] at this
    simpa using this

end Lib
