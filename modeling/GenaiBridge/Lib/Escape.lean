/-
Escaped texts between delimiters.

A text is escaped by putting an escape character before every special one, itself
included.  What ends at a delimiter is then read in one way only, so a pair with a
delimiter after its first and another after its second part is self-delimiting.
-/
import GenaiBridge.Lib.SelfDelimiting

namespace Lib

variable {α : Type} {esc : α} {special : α → Bool}

/-- One character, escaped. -/
def escapeOne (esc : α) (special : α → Bool) (c : α) : List α := if special c then [esc, c] else [c]

/-- A text, escaped. -/
def escape (esc : α) (special : α → Bool) (s : List α) : List α :=
  s.flatMap (escapeOne esc special)

/-- A pair, with its two delimiters. -/
def delimited (esc : α) (special : α → Bool) (d d' : α) (p : List α × List α) : List α :=
  escape esc special p.1 ++ d :: (escape esc special p.2 ++ [d'])

/-- **A text ends at the delimiter after it.** -/
theorem escape_append_inj (hesc : special esc = true) {d : α} (hd : special d = true)
    (hne : d ≠ esc) {s t rest rest' : List α}
    (h : escape esc special s ++ d :: rest = escape esc special t ++ d :: rest') :
    s = t ∧ rest = rest' := by
  induction s generalizing t with
  | nil =>
    cases t with
    | nil => exact ⟨rfl, (List.cons.inj h).2⟩
    | cons c t =>
      -- the delimiter would be the escape character, or one that is not special
      simp only [escape, List.flatMap_nil, List.nil_append, List.flatMap_cons, escapeOne] at h
      split at h
      · exact absurd (List.cons.inj h).1 hne
      · obtain ⟨rfl, -⟩ := List.cons.inj h
        contradiction
  | cons c s ih =>
    cases t with
    | nil =>
      simp only [escape, List.flatMap_nil, List.nil_append, List.flatMap_cons, escapeOne] at h
      split at h
      · exact absurd (List.cons.inj h).1.symm hne
      · obtain ⟨rfl, -⟩ := List.cons.inj h
        contradiction
    | cons c' t =>
      simp only [escape, List.flatMap_cons, escapeOne, List.append_assoc] at h
      split at h <;> split at h
      · obtain ⟨hc, htail⟩ := List.cons.inj (List.cons.inj h).2
        obtain ⟨hs, hrest⟩ := ih htail
        exact ⟨by rw [hc, hs], hrest⟩
      · obtain ⟨rfl, -⟩ := List.cons.inj h
        contradiction
      · obtain ⟨rfl, -⟩ := List.cons.inj h
        contradiction
      · obtain ⟨hc, htail⟩ := List.cons.inj h
        obtain ⟨hs, hrest⟩ := ih htail
        exact ⟨by rw [hc, hs], hrest⟩

/-- A pair ends at its second delimiter. -/
theorem selfDelimiting_delimited (hesc : special esc = true) {d d' : α} (hd : special d = true)
    (hd' : special d' = true) (hne : d ≠ esc) (hne' : d' ≠ esc) :
    SelfDelimiting (delimited esc special d d') where
  ne_nil p hnil := by simp [delimited] at hnil
  append_inj h := by
    simp only [delimited, List.append_assoc, List.cons_append, List.nil_append] at h
    obtain ⟨hfst, h⟩ := escape_append_inj hesc hd hne h
    obtain ⟨hsnd, h⟩ := escape_append_inj hesc hd' hne' h
    exact ⟨Prod.ext hfst hsnd, h⟩

end Lib
