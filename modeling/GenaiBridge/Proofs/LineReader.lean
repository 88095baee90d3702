/-
`readLine` reads one line, however the buffer cuts it.

The line is put together from slices; `readLineFrom` is in the middle of it, having
seen `pre` of the line and kept it unless it was too long.  `ReadsLine` says what the
outcome is in terms of what was seen and what is pending, so that the induction over
the slices moves a slice from the one to the other.
-/
import GenaiBridge.Bridge.Download
import GenaiBridge.Lib.Lines

namespace GenaiBridge

open Lib (ReadErr Reader rawLines content)

/-- What is returned for a line: its content, unless that is too long. -/
def lineRead (limit : Int) (raw : List UInt8) : LineRead :=
  let line := content newline raw
  ⟨if limit < line.length then [] else line, limit < line.length, raw.length, none⟩

/-- The outcome of reading a line of `text`, after which the reader reports `final`. -/
inductive ReadsLine (limit : Int) (text : List UInt8) (final : ReadErr) (total : Nat) :
    LineRead × Reader UInt8 → Prop
  | line {raw : List UInt8} {r : Reader UInt8} (text_eq : text = raw ++ r.pending)
      (first : rawLines newline text = raw :: rawLines newline r.pending)
      (ends : raw.getLast? = some newline ∨ final = .eof)
      (ok : r.Ok) (total_eq : r.total = total) (final_eq : r.final = final) :
      ReadsLine limit text final total (lineRead limit raw, r)
  | eof {r : Reader UInt8} (text_eq : text = []) (final_eq : final = .eof) (ok : r.Ok)
      (total_eq : r.total = total) (pending : r.pending = []) (after : r.final = .eof) :
      ReadsLine limit text final total (⟨[], false, 0, some .eof⟩, r)
  | fault {msg : String} {consumed : Nat} {r : Reader UInt8} (final_eq : final = .fault msg) :
      ReadsLine limit text final total (⟨[], false, consumed, some (.fault msg)⟩, r)

/-- What `readLine` has of a line after `pre`. -/
def kept (limit : Int) (pre : List UInt8) : List UInt8 := if limit < pre.length then [] else pre

private theorem tooLong_append (limit : Int) (pre chunk : List UInt8) :
    (decide (limit < pre.length) || decide (limit < (pre.length + chunk.length : Nat))) =
      decide (limit < (pre ++ chunk).length) := by
  simp only [List.length_append, ← Bool.decide_or]
  congr 1
  exact propext (by omega)

private theorem kept_append (limit : Int) (pre chunk : List UInt8) :
    (if decide (limit < (pre ++ chunk).length) then [] else kept limit pre ++ chunk) =
      kept limit (pre ++ chunk) := by
  unfold kept
  simp only [List.length_append, decide_eq_true_eq]
  split_ifs <;> first | rfl | omega

private theorem readsLine_readLineFrom (limit : Int) {pre : List UInt8} (hpre : newline ∉ pre)
    {r : Reader UInt8} (hr : r.Ok) :
    ReadsLine limit (pre ++ r.pending) r.final r.total
      (readLineFrom limit (kept limit pre) pre.length (limit < pre.length) pre.length r) := by
  induction hn : r.size using Nat.strong_induction_on generalizing r pre with
  | _ n ih =>
    have hslice : r.Slices lineReadBufBytes newline (r.readSlice lineReadBufBytes newline) :=
      Lib.Reader.slices_readSlice hr
    rw [readLineFrom]
    split
    · -- the buffer is full: the slice belongs to the line, and there is more of it
      rename_i hfull
      have hlt := Lib.Reader.size_readSlice_lt (by decide) hfull
      have hnot : newline ∉ pre ++ (r.readSlice lineReadBufBytes newline).1 := by
        rw [List.mem_append, not_or]
        exact ⟨hpre, hslice.full hfull⟩
      simp only [hfull, reduceCtorEq, false_and, if_false, tooLong_append, kept_append]
      rw [← List.length_append, hslice.pending, ← hslice.total, ← hslice.goes (Or.inr hfull),
        ← List.append_assoc]
      exact ih _ (hn ▸ hlt) hnot hslice.ok rfl
    · -- the slice ends the line
      rename_i hnone
      obtain ⟨c, hc, hfrag⟩ := hslice.line hnone
      have hnot : newline ∉ pre ++ c := by
        rw [List.mem_append, not_or]
        exact ⟨hpre, hc⟩
      have hpending : pre ++ r.pending =
          pre ++ c ++ newline :: (r.readSlice lineReadBufBytes newline).2.2.pending := by
        rw [hslice.pending, hfrag]
        simp
      have hread : lineRead limit (pre ++ c ++ [newline]) =
          ⟨kept limit (pre ++ c), limit < (pre ++ c).length,
            pre.length + (c ++ [newline]).length, none⟩ := by
        unfold lineRead kept
        rw [Lib.content_of_sep]
        simp
      simp only [hnone, hfrag, List.getLast?_append, List.getLast?_singleton, Option.some_or,
        and_self, if_true, List.dropLast_concat, tooLong_append, kept_append]
      rw [← hread]
      refine .line ?_ ?_ (by simp) hslice.ok hslice.total (hslice.goes (Or.inl hnone))
      · rw [hpending]
        simp
      · rw [hpending, Lib.rawLines_of_sep hnot]
    · -- the text ends
      rename_i heof
      obtain ⟨hnot, hpend, hfinal, hafter⟩ := hslice.ends .eof heof
      have hpending : r.pending = (r.readSlice lineReadBufBytes newline).1 := by
        rw [hslice.pending, hpend, List.append_nil]
      have hnot : newline ∉ pre ++ (r.readSlice lineReadBufBytes newline).1 := by
        rw [List.mem_append, not_or]
        exact ⟨hpre, hnot⟩
      simp only [heof, reduceCtorEq, false_and, if_false, tooLong_append, kept_append]
      rw [← List.length_append, hpending]
      generalize pre ++ (r.readSlice lineReadBufBytes newline).1 = text at hnot ⊢
      split
      · rename_i hzero
        obtain rfl := List.length_eq_zero_iff.mp hzero
        exact .eof rfl hfinal.symm hslice.ok hslice.total hpend (hafter rfl)
      · rename_i hpos
        have hne : text ≠ [] := fun h => hpos (by simp [h])
        have hread : lineRead limit text =
            ⟨kept limit text, limit < text.length, text.length, none⟩ := by
          unfold lineRead kept
          rw [Lib.content_of_notMem hnot]
        rw [← hread]
        refine .line ?_ ?_ (Or.inr hfinal.symm) hslice.ok hslice.total
          (by rw [hafter rfl, ← hfinal])
        · rw [hpend, List.append_nil]
        · rw [hpend, Lib.rawLines_of_notMem hnot hne, Lib.rawLines_nil]
    · -- the source fails
      rename_i e hne herr
      obtain ⟨-, -, hfinal, -⟩ := hslice.ends e herr
      cases e with
      | eof => exact absurd rfl hne
      | fault msg => exact .fault hfinal.symm

/-- **`readLine` reads one line.** -/
theorem readsLine_readLine {limit : Int} (hlimit : 0 ≤ limit) {r : Reader UInt8} (hr : r.Ok) :
    ReadsLine limit r.pending r.final r.total (readLine limit r) := by
  have h := readsLine_readLineFrom limit List.not_mem_nil hr
  have hshort : ¬ limit < ((([] : List UInt8).length : Nat) : Int) := by simpa using hlimit
  rw [kept, if_neg hshort, decide_eq_false hshort] at h
  exact h

end GenaiBridge
