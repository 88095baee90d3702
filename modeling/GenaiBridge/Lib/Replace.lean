/-
Replacing every occurrence of a word.

The occurrences that are replaced are found from the left and do not overlap.  A word that
shares nothing with another one, not even at their ends, keeps its occurrences when the
other is replaced, and gets no new ones when the other is what is put in; so once a word
is replaced it is gone, and stays gone whatever else is replaced by the same text.
-/
import Mathlib.Data.List.Infix

namespace Lib

variable {α : Type*}

/-! ### Words that share nothing -/

/-- Neither word contains the other, and no end of one is a beginning of the other. -/
structure Apart (v w : List α) : Prop where
  outside : ¬ v <:+: w
  outside' : ¬ w <:+: v
  ends : ∀ x, x ≠ [] → x <:+ v → ¬ x <+: w
  begins : ∀ x, x ≠ [] → x <:+ w → ¬ x <+: v

theorem Apart.symm {v w : List α} (h : Apart v w) : Apart w v :=
  ⟨h.outside', h.outside, h.begins, h.ends⟩

theorem Apart.ne_nil {v w : List α} (h : Apart v w) : v ≠ [] := by
  rintro rfl
  exact h.outside List.nil_infix

/-- A word without the first and the last element of another one, and that is no part of it. -/
theorem apart_of_not_mem {v w : List α} {a b : α} (hhead : w.head? = some a)
    (hlast : w.getLast? = some b) (ha : a ∉ v) (hb : b ∉ v) (hout : ¬ v <:+: w) : Apart v w := by
  refine ⟨hout, fun h => ha (h.subset (List.mem_of_head? hhead)), fun x hx hsuffix hbegin => ?_,
    fun x hx hsuffix hbegin => ?_⟩
  · obtain ⟨c, x, rfl⟩ := List.exists_cons_of_ne_nil hx
    obtain ⟨rest, rfl⟩ := hbegin
    obtain rfl : c = a := Option.some.inj hhead
    exact ha (hsuffix.subset List.mem_cons_self)
  · obtain ⟨pre, rfl⟩ := hsuffix
    rw [List.getLast?_append_of_ne_nil _ hx] at hlast
    exact hb (hbegin.subset (List.mem_of_getLast? hlast))

/-- An occurrence of a word lies beside one of a word that it shares nothing with. -/
theorem Apart.infix_append {v w rest : List α} (h : Apart v w) (hv : v <:+: w ++ rest) :
    v <:+: rest := by
  obtain ⟨pre, post, heq⟩ := hv
  rw [List.append_assoc] at heq
  rcases List.append_eq_append_iff.mp heq with ⟨d, rfl, hd⟩ | ⟨d, rfl, hd⟩
  · -- it begins within `w`, after `pre`
    by_cases hnil : d = []
    · subst hnil
      exact ⟨[], post, by simpa using hd⟩
    · rcases List.append_eq_append_iff.mp hd with ⟨e, rfl, -⟩ | ⟨e, rfl, -⟩
      · exact absurd ⟨pre, e, by simp⟩ h.outside
      · exact absurd (List.prefix_append d e) (h.begins d hnil ⟨pre, rfl⟩)
  · exact ⟨d, post, by rw [List.append_assoc]; exact hd.symm⟩

/-! ### Replacing -/

/-- What follows an occurrence at the beginning. -/
theorem append_drop_occurrence {old l : List α} {a : α} (hne : old ≠ []) (h : old <+: a :: l) :
    old ++ l.drop (old.length - 1) = a :: l := by
  obtain ⟨b, old, rfl⟩ := List.exists_cons_of_ne_nil hne
  obtain ⟨rfl, hrest⟩ := List.cons_prefix_cons.mp h
  rw [List.length_cons, Nat.add_sub_cancel, List.cons_append, ← List.prefix_iff_eq_append.mp hrest]
  simp

section

variable [DecidableEq α]

/-- The replacement, `skip` elements of the occurrence replaced last being left out first. -/
def replaceFrom (old new : List α) : Nat → List α → List α
  | _, [] => []
  | skip + 1, _ :: l => replaceFrom old new skip l
  | 0, a :: l =>
    if old <+: a :: l then new ++ replaceFrom old new (old.length - 1) l
    else a :: replaceFrom old new 0 l

/-- The text with each occurrence of `old` replaced by `new`, from the left. -/
def replaceAll (old new l : List α) : List α := replaceFrom old new 0 l

variable {old new v : List α}

/-- A beginning of the result that shares nothing with what is put in was there before. -/
theorem prefix_of_replaceFrom (hv : Apart v new) : ∀ {l u : List α} {skip : Nat}, u <:+ v →
    u <+: replaceFrom old new skip l → u <+: l.drop skip := by
  intro l
  induction l with
  | nil =>
    intro u skip _ h
    rw [List.drop_nil]
    exact h
  | cons a l ih =>
    intro u skip hu h
    cases skip with
    | succ skip => exact ih hu h
    | zero =>
      by_cases hnil : u = []
      · rw [hnil]
        exact List.nil_prefix
      · unfold replaceFrom at h
        by_cases hold : old <+: a :: l
        · rw [if_pos hold] at h
          rcases List.prefix_or_prefix_of_prefix h (List.prefix_append new _) with hnew | hnew
          · exact absurd hnew (hv.ends u hnil hu)
          · exact absurd (hnew.isInfix.trans hu.isInfix) hv.outside'
        · rw [if_neg hold] at h
          obtain ⟨b, u, rfl⟩ := List.exists_cons_of_ne_nil hnil
          obtain ⟨rfl, hrest⟩ := List.cons_prefix_cons.mp h
          have hu' : u <:+ v := (List.suffix_cons b u).trans hu
          exact List.cons_prefix_cons.mpr ⟨rfl, ih hu' hrest⟩

/-- **No occurrence is made** of a word that shares nothing with what is put in. -/
theorem infix_of_replaceFrom (hne : old ≠ []) (hv : Apart v new) : ∀ {l : List α} {skip : Nat},
    v <:+: replaceFrom old new skip l → v <:+: l.drop skip := by
  intro l
  induction l with
  | nil =>
    intro skip h
    rw [List.drop_nil]
    exact h
  | cons a l ih =>
    intro skip h
    cases skip with
    | succ skip => exact ih h
    | zero =>
      have hbegins := @prefix_of_replaceFrom _ _ old new v hv (a :: l) v 0 (List.suffix_refl v)
      unfold replaceFrom at h hbegins
      by_cases hold : old <+: a :: l
      · rw [if_pos hold] at h
        have hrest := ih (hv.infix_append h)
        rw [List.drop_zero, ← append_drop_occurrence hne hold]
        exact hrest.trans (List.suffix_append old _).isInfix
      · rw [if_neg hold] at h hbegins
        rcases List.infix_cons_iff.mp h with h | h
        · exact (hbegins h).isInfix
        · exact (ih h).trans (List.suffix_cons a l).isInfix

/-- **No occurrence is left** of the word that is replaced. -/
theorem replaceFrom_removes (hold : Apart old new) : ∀ {l : List α} {skip : Nat},
    ¬ old <:+: replaceFrom old new skip l := by
  intro l
  induction l with
  | nil =>
    intro skip h
    exact hold.ne_nil (List.infix_nil.mp h)
  | cons a l ih =>
    intro skip h
    cases skip with
    | succ skip => exact ih h
    | zero =>
      have hbegins :=
        @prefix_of_replaceFrom _ _ old new old hold (a :: l) old 0 (List.suffix_refl old)
      unfold replaceFrom at h hbegins
      by_cases hhead : old <+: a :: l
      · rw [if_pos hhead] at h
        exact ih (hold.infix_append h)
      · rw [if_neg hhead] at h hbegins
        rcases List.infix_cons_iff.mp h with h | h
        · exact hhead (hbegins h)
        · exact ih h

/-- A beginning that shares nothing with the word replaced stays. -/
theorem prefix_replaceFrom (hv : Apart v old) : ∀ {l u : List α}, u <:+ v → u <+: l →
    u <+: replaceFrom old new 0 l := by
  intro l
  induction l with
  | nil => exact fun _ h => h
  | cons a l ih =>
    intro u hu h
    by_cases hnil : u = []
    · rw [hnil]
      exact List.nil_prefix
    · unfold replaceFrom
      rw [if_neg]
      · obtain ⟨b, u, rfl⟩ := List.exists_cons_of_ne_nil hnil
        obtain ⟨rfl, hrest⟩ := List.cons_prefix_cons.mp h
        exact List.cons_prefix_cons.mpr ⟨rfl, ih ((List.suffix_cons b u).trans hu) hrest⟩
      · intro hold
        rcases List.prefix_or_prefix_of_prefix h hold with hle | hle
        · exact hv.ends u hnil hu hle
        · exact hv.outside' (hle.isInfix.trans hu.isInfix)

/-- **Every occurrence is kept** of a word that shares nothing with the word replaced. -/
theorem infix_replaceFrom (hv : Apart v old) : ∀ {l : List α} {skip : Nat}, v <:+: l.drop skip →
    v <:+: replaceFrom old new skip l := by
  intro l
  induction l with
  | nil =>
    intro skip h
    rw [List.drop_nil] at h
    exact h
  | cons a l ih =>
    intro skip h
    cases skip with
    | succ skip => exact ih h
    | zero =>
      rw [List.drop_zero] at h
      have hbegins := @prefix_replaceFrom _ _ old new v hv (a :: l) v (List.suffix_refl v)
      unfold replaceFrom at hbegins ⊢
      by_cases hold : old <+: a :: l
      · rw [if_pos hold]
        rw [← append_drop_occurrence hv.symm.ne_nil hold] at h
        exact (ih (hv.infix_append h)).trans (List.suffix_append new _).isInfix
      · rw [if_neg hold] at hbegins ⊢
        rcases List.infix_cons_iff.mp h with h | h
        · exact (hbegins h).isInfix
        · exact (@ih 0 h).trans (List.suffix_cons a _).isInfix

/-! ### Replacing several words -/

/-- The text with each of several words replaced by one text, one after the other. -/
def redact (marker : List α) (words : List (List α)) (l : List α) : List α :=
  words.foldl (fun l old => replaceAll old marker l) l

variable {marker : List α} {words : List (List α)}

theorem absent_redact (hwords : ∀ w ∈ words, w ≠ []) (hv : Apart v marker) :
    ∀ {l : List α}, ¬ v <:+: l → ¬ v <:+: redact marker words l := by
  induction words with
  | nil => exact fun h => h
  | cons w words ih =>
    intro l h
    obtain ⟨hw, hwords⟩ := List.forall_mem_cons.mp hwords
    exact ih hwords fun hnew => h (infix_of_replaceFrom hw hv hnew)

/-- **What is redacted is gone.** -/
theorem redact_removes (hwords : ∀ w ∈ words, Apart w marker) (hv : v ∈ words) :
    ∀ {l : List α}, ¬ v <:+: redact marker words l := by
  induction words with
  | nil => cases hv
  | cons w words ih =>
    intro l
    obtain ⟨hw, hrest⟩ := List.forall_mem_cons.mp hwords
    rcases List.mem_cons.mp hv with rfl | hv
    · have hgone : ¬ v <:+: replaceAll v marker l := replaceFrom_removes hw
      exact absent_redact (fun w hw => (hrest w hw).ne_nil) hw hgone
    · exact ih hrest hv

/-- A word that shares nothing with what is replaced or put in occurs just where it did. -/
theorem infix_redact_iff (hv : Apart v marker) : (∀ w ∈ words, Apart v w) → ∀ {l : List α},
    v <:+: redact marker words l ↔ v <:+: l := by
  induction words with
  | nil => exact fun _ => Iff.rfl
  | cons w words ih =>
    intro hwords l
    obtain ⟨hw, hwords⟩ := List.forall_mem_cons.mp hwords
    refine (ih hwords).trans ⟨fun h => infix_of_replaceFrom hw.symm.ne_nil hv h, fun h => ?_⟩
    exact infix_replaceFrom hw h

end

end Lib
