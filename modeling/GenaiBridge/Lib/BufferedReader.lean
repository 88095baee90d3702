/-
A buffered reader over a source that delivers its content in pieces.

A `Source` holds what has not been delivered yet, cut into the segments single reads
return, the error that follows it, a limit on what may be read, and a count of what
was.  A `Reader` puts a buffer of a fixed size in front of it.  `readSlice` returns
what is buffered up to a separator, filling the buffer as long as there is none, and
gives up when the buffer is full.

What a reader will return is `pending`, and what comes after it is `final`; neither
depends on how the content is cut.  The specification of `readSlice` is in these
terms.
-/
import Mathlib.Data.List.Basic
import Mathlib.Algebra.Order.Group.Nat
import Mathlib.Algebra.Order.Ring.Int

namespace Lib

variable {α : Type}

/-- Why a read delivers nothing more. -/
inductive ReadErr
  | eof
  | fault (msg : String)
deriving DecidableEq, Repr

/-- A source of elements with a limit and a count. -/
structure Source (α : Type) where
  /-- What single reads return, if there is room for it. -/
  segments : List (List α)
  nonempty : ∀ s ∈ segments, s ≠ []
  /-- What is reported after the last segment. -/
  ending : ReadErr
  /-- Whether it is reported together with the last segment. -/
  endsWithLast : Bool
  limit : Int
  count : Nat

namespace Source

/-- What the source will deliver. -/
def rest (s : Source α) : List α := s.segments.flatten.take s.limit.toNat

/-- What it reports after that. -/
def final (s : Source α) : ReadErr :=
  if s.segments.flatten.length < s.limit.toNat ∨
      (s.segments.flatten.length = s.limit.toNat ∧ s.endsWithLast ∧ s.segments ≠ []) then s.ending
  else .eof

/-- One read with room for `space` elements. -/
def read (space : Nat) (s : Source α) : List α × Option ReadErr × Source α :=
  if s.limit ≤ 0 then ([], some .eof, s)
  else match hs : s.segments with
    | [] => ([], some s.ending, s)
    | seg :: more =>
      let n := min space (min s.limit.toNat seg.length)
      if hn : n < seg.length then
        (seg.take n, none,
          { s with
            segments := seg.drop n :: more
            nonempty := by
              intro t ht
              rcases List.mem_cons.mp ht with rfl | ht
              · simpa using hn
              · exact s.nonempty t (hs ▸ List.mem_cons_of_mem _ ht)
            limit := s.limit - n
            count := s.count + n })
      else
        (seg, if more = [] ∧ s.endsWithLast then some s.ending else none,
          { s with
            segments := more
            nonempty := fun t ht => s.nonempty t (hs ▸ List.mem_cons_of_mem _ ht)
            limit := s.limit - n
            count := s.count + n })

/-- What there is to be delivered, whatever the limit. -/
def size (s : Source α) : Nat := s.segments.flatten.length

/-- What a read does: it delivers a part of the rest, or reports the end of it. -/
structure Reads (s : Source α) (space : Nat) (out : List α × Option ReadErr × Source α) : Prop where
  rest : s.rest = out.1 ++ out.2.2.rest
  count : out.2.2.count = s.count + out.1.length
  size : out.2.2.size + out.1.length = s.size
  fits : out.1.length ≤ space
  more : out.2.1 = none → out.1 ≠ [] ∧ out.2.2.final = s.final
  done : ∀ e, out.2.1 = some e →
    out.2.2.rest = [] ∧ e = s.final ∧ (e = .eof → out.2.2.final = .eof)

private theorem take_eq_take_append_take {l : List α} {m n : Nat} (h : n ≤ m) :
    l.take m = l.take n ++ (l.drop n).take (m - n) := by
  obtain ⟨d, rfl⟩ := Nat.exists_eq_add_of_le h
  rw [List.take_add, Nat.add_sub_cancel_left]

private theorem reads_part {seg : List α} {more : List (List α)} {ending : ReadErr}
    {endsWithLast : Bool} {limit : Int} {count space n : Nat} (hpos : 0 < n) (hseg : n < seg.length)
    (hspace : n ≤ space) (hlimit : n ≤ limit.toNat) (hne : ∀ t ∈ seg :: more, t ≠ [])
    (hne' : ∀ t ∈ seg.drop n :: more, t ≠ []) :
    Reads ⟨seg :: more, hne, ending, endsWithLast, limit, count⟩ space
      (seg.take n, none, ⟨seg.drop n :: more, hne', ending, endsWithLast, limit - n, count + n⟩) := by
  have hlen : (seg.take n).length = n := List.length_take_of_le (by omega)
  have hleft : (limit - n).toNat = limit.toNat - n := by omega
  refine ⟨?_, by simp [hlen], ?_, by dsimp only; omega, fun _ => ⟨?_, ?_⟩, by simp⟩
  · simp only [rest, hleft]
    rw [take_eq_take_append_take hlimit, List.flatten_cons, List.flatten_cons,
      List.take_append_of_le_length (by omega), List.drop_append_of_le_length (by omega)]
  · simp only [size, List.flatten_cons, List.length_append, List.length_drop, hlen]
    omega
  · rw [← List.length_pos_iff, hlen]
    exact hpos
  · simp only [final, hleft, List.flatten_cons, List.length_append, List.length_drop, ne_eq,
      reduceCtorEq, not_false_eq_true, and_true]
    congr 1
    exact propext (or_congr (by omega) (and_congr_left fun _ => by omega))

private theorem reads_segment {seg : List α} {more : List (List α)} {ending : ReadErr}
    {endsWithLast : Bool} {limit : Int} {count space : Nat} (hspace : seg.length ≤ space)
    (hlimit : seg.length ≤ limit.toNat) (hne : ∀ t ∈ seg :: more, t ≠ [])
    (hne' : ∀ t ∈ more, t ≠ []) :
    Reads ⟨seg :: more, hne, ending, endsWithLast, limit, count⟩ space
      (seg, if more = [] ∧ endsWithLast then some ending else none,
        ⟨more, hne', ending, endsWithLast, limit - seg.length, count + seg.length⟩) := by
  have hseg : 0 < seg.length := List.length_pos_of_ne_nil (hne seg (by simp))
  have hleft : (limit - seg.length).toNat = limit.toNat - seg.length := by omega
  refine ⟨?_, rfl, ?_, hspace, fun hnone => ⟨List.ne_nil_of_length_pos hseg, ?_⟩, fun e he => ?_⟩
  · simp only [rest, hleft]
    rw [take_eq_take_append_take hlimit, List.flatten_cons, List.take_left, List.drop_left]
  · simp only [size, List.flatten_cons, List.length_append]
    omega
  · -- the end is not reported yet, so it is still to come
    have hlast : more = [] → endsWithLast = false := by simpa using hnone
    simp only [final, hleft, List.flatten_cons, List.length_append, ne_eq, reduceCtorEq,
      not_false_eq_true, and_true]
    congr 1
    refine propext (or_congr (by omega) ?_)
    by_cases hmore : more = []
    · simp [hlast hmore]
    · simp only [hmore, not_false_eq_true, and_true]
      exact and_congr_left fun _ => by omega
  · obtain ⟨⟨rfl, hlast⟩, rfl⟩ : (more = [] ∧ endsWithLast = true) ∧ ending = e := by simpa using he
    refine ⟨by simp [rest], ?_, fun h => by simp [final, h]⟩
    simp only [final, List.flatten_cons, List.flatten_nil, List.append_nil, hlast, ne_eq,
      reduceCtorEq, not_false_eq_true, and_true]
    rw [if_pos (by omega)]

theorem reads_read {space : Nat} (hspace : 0 < space) (s : Source α) :
    s.Reads space (s.read space) := by
  obtain ⟨segments, nonempty, ending, endsWithLast, limit, count⟩ := s
  unfold read
  dsimp only
  split
  · -- the limit is used up
    rename_i hlimit
    have hzero : limit.toNat = 0 := by omega
    have hempty : segments.flatten = [] → segments = [] := fun h => by
      cases segments with
      | nil => rfl
      | cons seg more => exact absurd (List.append_eq_nil_iff.mp h).1 (nonempty seg (by simp))
    have hfinal : Source.final ⟨segments, nonempty, ending, endsWithLast, limit, count⟩ = .eof := by
      simp only [final, hzero]
      rw [if_neg]
      rintro (h | ⟨h, -, hne⟩)
      · omega
      · exact hne (hempty (List.length_eq_zero_iff.mp h))
    refine ⟨by simp [rest], rfl, rfl, by simp, by simp, fun e he => ?_⟩
    obtain rfl := Option.some.inj he
    exact ⟨by simp [rest, hzero], hfinal.symm, fun _ => hfinal⟩
  · rename_i hlimit
    split
    · -- nothing is left
      have hfinal : Source.final ⟨[], nonempty, ending, endsWithLast, limit, count⟩ = ending := by
        simp only [final, List.flatten_nil, List.length_nil]
        rw [if_pos (Or.inl (by omega))]
      refine ⟨by simp [rest], rfl, rfl, by simp, by simp, fun e he => ?_⟩
      obtain rfl := Option.some.inj he
      exact ⟨by simp [rest], hfinal.symm, fun h => by rw [hfinal, h]⟩
    · rename_i seg more
      have hseg : 0 < seg.length := List.length_pos_of_ne_nil (nonempty seg (by simp))
      split
      · rename_i hn
        exact reads_part (by omega) hn (by omega) (by omega) nonempty _
      · rename_i hn
        have hk : min space (min limit.toNat seg.length) = seg.length := by omega
        simp only [hk]
        exact reads_segment (by omega) (by omega) nonempty _

end Source

/-! ### The buffer -/

/-- A reader with room for `cap` buffered elements. -/
structure Reader (α : Type) where
  buf : List α
  /-- An error a read reported and the reader has not. -/
  err : Option ReadErr
  src : Source α

namespace Reader

/-- What the reader will return. -/
def pending (r : Reader α) : List α := r.buf ++ r.src.rest

/-- The error after that. -/
def final (r : Reader α) : ReadErr := r.err.getD r.src.final

/-- An error the source reported is at the end of what it delivers. -/
def Ok (r : Reader α) : Prop :=
  ∀ e, r.err = some e → r.src.rest = [] ∧ (e = .eof → r.src.final = .eof)

/-- What is buffered or undelivered, whatever the limit. -/
def size (r : Reader α) : Nat := r.buf.length + r.src.size

/-- The elements read from the source by the time all pending ones are. -/
def total (r : Reader α) : Nat := r.src.count + r.src.rest.length

/-- Read once, into the free part of the buffer. -/
def fill (cap : Nat) (r : Reader α) : Reader α :=
  let out := r.src.read (cap - r.buf.length)
  { buf := r.buf ++ out.1, err := out.2.1, src := out.2.2 }

section Fill

variable {cap : Nat} {r : Reader α}

private theorem exists_fill (hroom : r.buf.length < cap) : ∃ bs err src,
    r.src.Reads (cap - r.buf.length) (bs, err, src) ∧ r.fill cap = ⟨r.buf ++ bs, err, src⟩ :=
  ⟨_, _, _, r.src.reads_read (by omega), rfl⟩

theorem ok_fill (hroom : r.buf.length < cap) : (r.fill cap).Ok := by
  obtain ⟨bs, err, src, h, heq⟩ := exists_fill hroom
  rw [heq]
  exact fun e he => ⟨(h.done e he).1, (h.done e he).2.2⟩

theorem pending_fill (hroom : r.buf.length < cap) : (r.fill cap).pending = r.pending := by
  obtain ⟨bs, err, src, h, heq⟩ := exists_fill hroom
  have hrest : r.src.rest = bs ++ src.rest := h.rest
  rw [heq, pending, pending, hrest, List.append_assoc]

theorem final_fill (herr : r.err = none) (hroom : r.buf.length < cap) :
    (r.fill cap).final = r.final := by
  obtain ⟨bs, err, src, h, heq⟩ := exists_fill hroom
  rw [heq]
  unfold final
  rw [herr]
  cases err with
  | none => exact (h.more rfl).2
  | some e => exact (h.done e rfl).2.1

theorem size_fill (hroom : r.buf.length < cap) : (r.fill cap).size = r.size := by
  obtain ⟨bs, err, src, h, heq⟩ := exists_fill hroom
  have hsize : src.size + bs.length = r.src.size := h.size
  rw [heq, size, size, List.length_append]
  dsimp only
  omega

theorem total_fill (hroom : r.buf.length < cap) : (r.fill cap).total = r.total := by
  obtain ⟨bs, err, src, h, heq⟩ := exists_fill hroom
  have hcount : src.count = r.src.count + bs.length := h.count
  have hrest : r.src.rest = bs ++ src.rest := h.rest
  rw [heq, total, total, hrest, List.length_append]
  dsimp only
  omega

/-- Filling makes progress: it delivers something, or reports the end. -/
theorem fill_lt (herr : r.err = none) (hroom : r.buf.length < cap) :
    (r.fill cap).src.size + (if (r.fill cap).err.isSome then 0 else 1) <
      r.src.size + (if r.err.isSome then 0 else 1) := by
  obtain ⟨bs, err, src, h, heq⟩ := exists_fill hroom
  have hsize : src.size + bs.length = r.src.size := h.size
  rw [heq, herr]
  cases err with
  | none =>
    have hpos : 0 < bs.length := List.length_pos_of_ne_nil (h.more rfl).1
    simp only [Option.isSome_none, Bool.false_eq_true, if_false]
    omega
  | some e =>
    simp only [Option.isSome_some, Option.isSome_none, if_true, Bool.false_eq_true, if_false]
    omega

end Fill

/-! ### Reading up to a separator -/

/-- Why a slice does not end in the separator. -/
inductive SliceErr
  | bufferFull
  | read (e : ReadErr)
deriving DecidableEq, Repr

variable [DecidableEq α]

/-- Return what is buffered up to a separator. -/
def readSlice (cap : Nat) (sep : α) (r : Reader α) : List α × Option SliceErr × Reader α :=
  if sep ∈ r.buf then
    let i := r.buf.idxOf sep + 1
    (r.buf.take i, none, { r with buf := r.buf.drop i })
  else match _herr : r.err with
    | some e => (r.buf, some (.read e), { r with buf := [], err := none })
    | none =>
      if cap ≤ r.buf.length then (r.buf, some .bufferFull, { r with buf := [] })
      else readSlice cap sep (r.fill cap)
termination_by r.src.size + (if r.err.isSome then 0 else 1)
decreasing_by exact fill_lt ‹r.err = none› (by omega)

/-- A full buffer is a part of what was left. -/
theorem size_readSlice_lt {cap : Nat} {sep : α} {r : Reader α} (hcap : 0 < cap)
    (hfull : (r.readSlice cap sep).2.1 = some .bufferFull) :
    (r.readSlice cap sep).2.2.size < r.size := by
  fun_induction readSlice cap sep r with
  | case1 => simp at hfull
  | case2 => simp at hfull
  | case3 r _ _ hle =>
    simp only [size, List.length_nil]
    omega
  | case4 r _ _ hroom ih =>
    rw [← size_fill (by omega : r.buf.length < cap)]
    exact ih hfull

/-- What a slice is: up to a separator, or a full buffer without one, or all that was pending. -/
structure Slices (cap : Nat) (sep : α) (r : Reader α)
    (out : List α × Option SliceErr × Reader α) : Prop where
  ok : out.2.2.Ok
  total : out.2.2.total = r.total
  pending : r.pending = out.1 ++ out.2.2.pending
  line : out.2.1 = none → ∃ c, sep ∉ c ∧ out.1 = c ++ [sep]
  full : out.2.1 = some .bufferFull → sep ∉ out.1
  goes : (out.2.1 = none ∨ out.2.1 = some .bufferFull) → out.2.2.final = r.final
  ends : ∀ e, out.2.1 = some (.read e) →
    sep ∉ out.1 ∧ out.2.2.pending = [] ∧ e = r.final ∧ (e = .eof → out.2.2.final = .eof)

theorem slices_readSlice {cap : Nat} {sep : α} {r : Reader α} (hr : r.Ok) :
    r.Slices cap sep (r.readSlice cap sep) := by
  fun_induction readSlice cap sep r with
  | case1 r hmem i =>
    -- the separator is buffered
    obtain ⟨c, rest, hbuf, hc⟩ := List.eq_append_cons_of_mem hmem
    have hi : i = c.length + 1 := by simp [i, hbuf, List.idxOf_append_of_notMem hc]
    have htake : r.buf.take i = c ++ [sep] := by
      rw [hi, hbuf, List.take_length_add_append]
      rfl
    have hdrop : r.buf.drop i = rest := by
      rw [hi, hbuf, List.drop_length_add_append]
      rfl
    rw [htake, hdrop]
    refine ⟨hr, rfl, by simp [pending, hbuf], fun _ => ⟨c, hc, rfl⟩, by simp, fun _ => rfl,
      by simp⟩
  | case2 r hmem e herr =>
    -- an error is due
    obtain ⟨hrest, heof⟩ := hr e herr
    refine ⟨by simp [Ok], rfl, by simp [pending], by simp, by simp, by simp, fun e' he' => ?_⟩
    obtain rfl : e = e' := by simpa using he'
    exact ⟨hmem, by simp [pending, hrest], by simp [final, herr], heof⟩
  | case3 r hmem herr hfull =>
    exact ⟨fun e h => by simp [herr] at h, rfl, by simp [pending], by simp, fun _ => hmem,
      fun _ => rfl, by simp⟩
  | case4 r hmem herr hroom ih =>
    have hlt : r.buf.length < cap := by omega
    have h := ih (ok_fill hlt)
    refine ⟨h.ok, h.total.trans (total_fill hlt), ?_, h.line, h.full, fun hgo => ?_,
      fun e he => ?_⟩
    · rw [← pending_fill hlt]
      exact h.pending
    · rw [← final_fill herr hlt]
      exact h.goes hgo
    · rw [← final_fill herr hlt]
      exact h.ends e he

end Reader

end Lib
