/-
The cursor of an export survives its text.

Whatever a step writes is read back by the next call (`decodeCursor_encode`), and
whatever is read can be written: its integers are in range and its phase is one that
has a name (`decodeCursor_wellFormed`).
-/
import GenaiBridge.Bridge.Export

namespace GenaiBridge

open Lib (Json)

/-- A number that an `int64` holds. -/
def InInt64 (n : Int) : Prop := minInt64 ≤ n ∧ n ≤ maxInt64

theorem inInt64_zero : InInt64 0 := ⟨by decide, by decide⟩

theorem inInt64_wrap64 (n : Int) : InInt64 (wrap64 n) := by
  unfold InInt64 wrap64 minInt64 maxInt64
  omega

/-! ### Fields of a record that was written -/

section Fields

variable {slots : List Json.Slot} (hnames : (slots.map fun s => s.name.map Json.foldCase).Nodup)
include hnames

theorem textField_written (name text : String) (omitEmpty : Bool)
    (hmem : ⟨name.toList, omitEmpty, .text text.toList⟩ ∈ slots) :
    textField ((slots.flatMap Json.Slot.written).map Json.member) name = some text := by
  unfold textField
  rw [Json.field_text_slot hnames hmem]
  simp

theorem intField_written (name : String) {i : Int} (hi : InInt64 i)
    (hmem : ⟨name.toList, true, .int i⟩ ∈ slots) :
    intField ((slots.flatMap Json.Slot.written).map Json.member) name = some i :=
  Json.field_int_slot hnames hmem hi.1 hi.2

end Fields

theorem inInt64_intField {ms : List (List Char × Json)} {name : String} {i : Int}
    (h : intField ms name = some i) : InInt64 i := by
  refine Json.field_of_read (P := InInt64) (fun v a hv => ?_) inInt64_zero h
  cases v with
  | num literal =>
    obtain ⟨-, hrange⟩ := Option.filter_eq_some_iff.mp hv
    simpa [InInt64] using hrange
  | _ => cases hv

namespace ExportCursor

/-- A cursor that can be stored. -/
structure WellFormed (c : ExportCursor) : Prop where
  phase : Phase.ofName c.phase.name = c.phase
  named : c.phase.name ≠ ""
  page : InInt64 c.page
  pages : InInt64 c.pages
  totalRecords : InInt64 c.totalRecords
  pageOffsetDone : InInt64 c.pageOffsetDone
  pageByteOffset : InInt64 c.pageByteOffset

private theorem nodup_names (c : ExportCursor) :
    (c.slots.map fun s => s.name.map Json.foldCase).Nodup := by
  show (["phase".toList, "job_id".toList, "win_min".toList, "win_max".toList, "page".toList,
    "pages".toList, "total_records".toList, "page_offset_done".toList, "page_byte_offset".toList,
    "poll_deadline".toList, "lifecycle_trace_id".toList,
    "lifecycle_span_id".toList].map fun s => s.map Json.foldCase).Nodup
  decide +kernel

/-- The members of the text of a cursor. -/
private def written (c : ExportCursor) : List (List Char × Json) :=
  (c.slots.flatMap Json.Slot.written).map Json.member

private theorem ofMembers_written {c : ExportCursor} (h : c.WellFormed) :
    ofMembers c.written = some c := by
  have hphase := textField_written c.nodup_names "phase" c.phase.name false (by simp [slots])
  have hjobID := textField_written c.nodup_names "job_id" c.jobID true (by simp [slots])
  have hwinMin := textField_written c.nodup_names "win_min" c.winMin true (by simp [slots])
  have hwinMax := textField_written c.nodup_names "win_max" c.winMax true (by simp [slots])
  have hpage := intField_written c.nodup_names "page" h.page (by simp [slots])
  have hpages := intField_written c.nodup_names "pages" h.pages (by simp [slots])
  have htotal := intField_written c.nodup_names "total_records" h.totalRecords (by simp [slots])
  have hoffset :=
    intField_written c.nodup_names "page_offset_done" h.pageOffsetDone (by simp [slots])
  have hbytes :=
    intField_written c.nodup_names "page_byte_offset" h.pageByteOffset (by simp [slots])
  have hpoll :=
    textField_written c.nodup_names "poll_deadline" c.pollDeadline true (by simp [slots])
  have htrace :=
    textField_written c.nodup_names "lifecycle_trace_id" c.lifecycleTraceID true (by simp [slots])
  have hspan :=
    textField_written c.nodup_names "lifecycle_span_id" c.lifecycleSpanID true (by simp [slots])
  unfold ofMembers written
  generalize (c.slots.flatMap Json.Slot.written).map Json.member = ms at *
  rw [hphase, hjobID, hwinMin, hwinMax, hpage, hpages, htotal, hoffset, hbytes, hpoll, htrace,
    hspan]
  simp only [Option.bind_eq_bind, Option.bind_some, h.phase]
  rfl

/-- **A cursor is read as it was written.** -/
theorem unmarshal_encode {c : ExportCursor} (h : c.WellFormed) : unmarshal c.encode = some c := by
  unfold unmarshal encode
  rw [String.toList_ofList, Json.parse_encodeRecord]
  exact ofMembers_written h

end ExportCursor

private theorem ofName_name (name : String) : (Phase.ofName name).name = name := by
  unfold Phase.ofName
  split_ifs <;> simp_all [Phase.name]

theorem decodeCursor_wellFormed (s : String) : (decodeCursor s).WellFormed := by
  have hidle : ({ phase := .idle } : ExportCursor).WellFormed :=
    ⟨rfl, by decide, inInt64_zero, inInt64_zero, inInt64_zero, inInt64_zero, inInt64_zero⟩
  unfold decodeCursor
  split
  · exact hidle
  · cases hc : ExportCursor.unmarshal s with
    | none => exact hidle
    | some c =>
      dsimp only
      split
      · exact hidle
      · rename_i hnamed
        obtain ⟨_, -, hc⟩ := Option.bind_eq_some_iff.mp hc
        obtain ⟨ms, -, hc⟩ := Option.bind_eq_some_iff.mp hc
        obtain ⟨name, -, hc⟩ := Option.bind_eq_some_iff.mp hc
        obtain ⟨_, -, hc⟩ := Option.bind_eq_some_iff.mp hc
        obtain ⟨_, -, hc⟩ := Option.bind_eq_some_iff.mp hc
        obtain ⟨_, -, hc⟩ := Option.bind_eq_some_iff.mp hc
        obtain ⟨page, hpage, hc⟩ := Option.bind_eq_some_iff.mp hc
        obtain ⟨pages, hpages, hc⟩ := Option.bind_eq_some_iff.mp hc
        obtain ⟨total, htotal, hc⟩ := Option.bind_eq_some_iff.mp hc
        obtain ⟨offset, hoffset, hc⟩ := Option.bind_eq_some_iff.mp hc
        obtain ⟨bytes, hbytes, hc⟩ := Option.bind_eq_some_iff.mp hc
        obtain ⟨_, -, hc⟩ := Option.bind_eq_some_iff.mp hc
        obtain ⟨_, -, hc⟩ := Option.bind_eq_some_iff.mp hc
        obtain ⟨_, -, hc⟩ := Option.bind_eq_some_iff.mp hc
        obtain rfl := Option.some.inj hc
        refine ⟨?_, hnamed, inInt64_intField hpage, inInt64_intField hpages,
          inInt64_intField htotal, inInt64_intField hoffset, inInt64_intField hbytes⟩
        rw [ofName_name]

/-! ### The times of a cursor -/

/-- An instant of the years the layout can write is read as it was written. -/
theorem parse_formatCursorTime {t : Int} (h0 : 0 ≤ Lib.Rfc3339.year t)
    (h1 : Lib.Rfc3339.year t ≤ 9999) : parseCursorTime (formatCursorTime t) = some t := by
  have hparse : Lib.Rfc3339.parse (formatCursorTime t).toList = some t := by
    unfold formatCursorTime
    rw [String.toList_ofList, Lib.Rfc3339.parse_formatNano h0 h1]
  unfold parseCursorTime
  rw [if_neg, hparse]
  intro hempty
  rw [hempty] at hparse
  cases hparse

theorem eq_of_parse_formatCursorTime {t u : Int}
    (h : parseCursorTime (formatCursorTime t) = some u) : u = t := by
  unfold parseCursorTime at h
  split_ifs at h
  unfold formatCursorTime at h
  rw [String.toList_ofList] at h
  exact Lib.Rfc3339.eq_of_parse_formatNano h

/-- The bounds of a window after the start of year 1 that does not end after year 9999. -/
theorem parse_windowBounds {winMin winMax now : Int} (h0 : 0 ≤ winMin) (hlt : winMin < winMax)
    (hnow : winMax ≤ now) (hyear : Lib.Rfc3339.year now ≤ 9999) :
    parseCursorTime (formatCursorTime winMin) = some winMin ∧
      parseCursorTime (formatCursorTime winMax) = some winMax := by
  have hfrom : ∀ t, 0 ≤ t → 0 ≤ Lib.Rfc3339.year t := fun t ht =>
    le_trans (by decide) (Lib.Rfc3339.year_mono ht)
  have hto : ∀ t, t ≤ now → Lib.Rfc3339.year t ≤ 9999 := fun t ht =>
    le_trans (Lib.Rfc3339.year_mono ht) hyear
  exact ⟨parse_formatCursorTime (hfrom _ h0) (hto _ (by omega)),
    parse_formatCursorTime (hfrom _ (by omega)) (hto _ hnow)⟩

theorem windowBounds_format {c : ExportCursor} {winMin winMax now : Int} (h0 : 0 ≤ winMin)
    (hlt : winMin < winMax) (hnow : winMax ≤ now) (hyear : Lib.Rfc3339.year now ≤ 9999)
    (hmin : c.winMin = formatCursorTime winMin) (hmax : c.winMax = formatCursorTime winMax) :
    c.windowBounds = some (winMin, winMax) := by
  obtain ⟨hparseMin, hparseMax⟩ := parse_windowBounds h0 hlt hnow hyear
  unfold ExportCursor.windowBounds
  rw [hmin, hmax, hparseMin, hparseMax]

theorem ExportCursor.encode_ne_empty (c : ExportCursor) : c.encode ≠ "" := by
  intro heq
  have := congrArg String.toList heq
  simp [ExportCursor.encode, Json.encodeRecord, Json.encode] at this

theorem decodeCursor_encode {c : ExportCursor} (h : c.WellFormed) : decodeCursor c.encode = c := by
  unfold decodeCursor
  rw [if_neg c.encode_ne_empty, ExportCursor.unmarshal_encode h]
  exact if_neg h.named

private theorem ExportCursor.window_ofMembers {ms : List (List Char × Json)} {c : ExportCursor}
    (h : ofMembers ms = some c) :
    textField ms "win_min" = some c.winMin ∧ textField ms "win_max" = some c.winMax := by
  unfold ofMembers at h
  obtain ⟨_, -, h⟩ := Option.bind_eq_some_iff.mp h
  obtain ⟨_, -, h⟩ := Option.bind_eq_some_iff.mp h
  obtain ⟨_, hwinMin, h⟩ := Option.bind_eq_some_iff.mp h
  obtain ⟨_, hwinMax, h⟩ := Option.bind_eq_some_iff.mp h
  obtain ⟨_, -, h⟩ := Option.bind_eq_some_iff.mp h
  obtain ⟨_, -, h⟩ := Option.bind_eq_some_iff.mp h
  obtain ⟨_, -, h⟩ := Option.bind_eq_some_iff.mp h
  obtain ⟨_, -, h⟩ := Option.bind_eq_some_iff.mp h
  obtain ⟨_, -, h⟩ := Option.bind_eq_some_iff.mp h
  obtain ⟨_, -, h⟩ := Option.bind_eq_some_iff.mp h
  obtain ⟨_, -, h⟩ := Option.bind_eq_some_iff.mp h
  obtain ⟨_, -, h⟩ := Option.bind_eq_some_iff.mp h
  obtain rfl := Option.some.inj h
  exact ⟨hwinMin, hwinMax⟩

/-- Even if the rest of a cursor is not read as it was written, its window is. -/
private theorem ExportCursor.window_unmarshal {c c' : ExportCursor}
    (h : unmarshal c.encode = some c') : c'.winMin = c.winMin ∧ c'.winMax = c.winMax := by
  unfold unmarshal encode at h
  rw [String.toList_ofList, Json.parse_encodeRecord] at h
  obtain ⟨hmin, hmax⟩ := @window_ofMembers c.written _ h
  have hwinMin := textField_written c.nodup_names "win_min" c.winMin true (by simp [slots])
  have hwinMax := textField_written c.nodup_names "win_max" c.winMax true (by simp [slots])
  exact ⟨Option.some.inj (hmin.symm.trans hwinMin), Option.some.inj (hmax.symm.trans hwinMax)⟩

theorem windowBounds_encode {c : ExportCursor} {b : Int × Int}
    (h : (decodeCursor c.encode).windowBounds = some b) : c.windowBounds = some b := by
  unfold decodeCursor at h
  rw [if_neg c.encode_ne_empty] at h
  cases hc : ExportCursor.unmarshal c.encode with
  | none =>
    rw [hc] at h
    cases h
  | some c' =>
    obtain ⟨hmin, hmax⟩ := ExportCursor.window_unmarshal hc
    rw [hc] at h
    dsimp only at h
    split_ifs at h with hname
    · cases h
    · unfold ExportCursor.windowBounds at h ⊢
      rw [← hmin, ← hmax]
      exact h

/-! ### The cursor after a chunk -/

/-- The page goes on, the next one is to be created, or the window is done. -/
theorem chunkedCursor_cases (cur : ExportCursor) (chunk : Chunk) :
    (chunk.eof = false ∧ LogsExportLoop.chunkedCursor cur chunk =
      some { cur with
        pageOffsetDone := wrap64 (cur.pageOffsetDone + chunk.linesRead)
        pageByteOffset := wrap64 chunk.nextByteOffset }) ∨
    (chunk.eof = true ∧ cur.page + 1 < cur.pages ∧ LogsExportLoop.chunkedCursor cur chunk =
      some { cur with
        page := cur.page + 1, pageOffsetDone := 0, pageByteOffset := 0, jobID := ""
        phase := .created }) ∨
    (chunk.eof = true ∧ cur.pages ≤ cur.page + 1 ∧
      LogsExportLoop.chunkedCursor cur chunk = none) := by
  unfold LogsExportLoop.chunkedCursor
  cases heof : chunk.eof with
  | false => exact Or.inl ⟨rfl, rfl⟩
  | true =>
    by_cases hmore : cur.page + 1 < cur.pages
    · exact Or.inr (Or.inl ⟨rfl, hmore, if_pos hmore⟩)
    · exact Or.inr (Or.inr ⟨rfl, not_lt.mp hmore, if_neg hmore⟩)

theorem chunkedCursor_wellFormed {cur cur' : ExportCursor} {chunk : Chunk} (h : cur.WellFormed)
    (hcur' : LogsExportLoop.chunkedCursor cur chunk = some cur') : cur'.WellFormed := by
  rcases chunkedCursor_cases cur chunk with ⟨-, heq⟩ | ⟨-, hmore, heq⟩ | ⟨-, -, heq⟩
  · obtain rfl := Option.some.inj (heq.symm.trans hcur')
    exact ⟨h.phase, h.named, h.page, h.pages, h.totalRecords, inInt64_wrap64 _, inInt64_wrap64 _⟩
  · obtain rfl := Option.some.inj (heq.symm.trans hcur')
    have hpage : InInt64 (cur.page + 1) := by
      have hlo := h.page.1
      have hhi := h.pages.2
      exact ⟨by omega, by omega⟩
    exact ⟨rfl, by simp [Phase.name], hpage, h.pages, h.totalRecords, inInt64_zero, inInt64_zero⟩
  · cases heq.symm.trans hcur'

end GenaiBridge
