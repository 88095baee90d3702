/-
What a cursor of the log export says was done of a window.

The facts are about the attempts so far: calls of `Collect`, with the API calls they
made, that may have been written or not.  `CursorOk` ties a cursor to those that were
written, and `ReadUpTo` is what it comes to when the window is complete.
-/
import GenaiBridge.Proofs.Cursor
import GenaiBridge.Proofs.LogsSettings
import GenaiBridge.Proofs.Positions

namespace GenaiBridge

/-! ### What was done of a window -/

/-- What a call of `Collect` did: the calls it made, and the logs of its batch. -/
structure ExportEvent where
  calls : List ExportCall
  logs : List LogRecord

abbrev ExportAttempt := Lib.Attempt Position ExportEvent

/-- The attempt created a job for a page of the window, and was written. -/
def Creates (winMin winMax page : Int) (jobID : String) (a : ExportAttempt) : Prop :=
  a.landed = true ∧ ∃ total, .create winMin winMax page (.ok (jobID, total)) ∈ a.event.calls

/-- The attempt downloaded a chunk of the job's object, returned its records, and was written. -/
def Reads (jobID : String) (skip byteOffset : Int) (chunk : Chunk) (a : ExportAttempt) : Prop :=
  a.landed = true ∧ a.event.logs = chunk.recs ∧
    ∃ url, a.event.calls = [.downloadURL jobID (.ok url),
      .downloadChunk url skip byteOffset (.ok chunk)]

/-- Chunks of the job's object, one after the other from its start, none of them the last. -/
inductive Chunks (jobID : String) : List ExportAttempt → Int → Int → Prop
  | none : Chunks jobID [] 0 0
  | more {as : List ExportAttempt} {a : ExportAttempt} {skip byteOffset : Int} {chunk : Chunk}
      (before : Chunks jobID as skip byteOffset) (reads : Reads jobID skip byteOffset chunk a)
      (more : chunk.eof = false) :
      Chunks jobID (as ++ [a]) (wrap64 (skip + chunk.linesRead)) (wrap64 chunk.nextByteOffset)

/-- A job was created for the page, and its object was downloaded to its end. -/
def PageDone (h : List ExportAttempt) (winMin winMax page : Int) : Prop :=
  ∃ jobID c as a skip byteOffset chunk, (c :: (as ++ [a])).Sublist h ∧
    Creates winMin winMax page jobID c ∧ Chunks jobID as skip byteOffset ∧
    Reads jobID skip byteOffset chunk a ∧ chunk.eof = true

/-- The first job of the window reported so many records. -/
def Reported (h : List ExportAttempt) (winMin winMax total : Int) : Prop :=
  ∃ a ∈ h, a.landed = true ∧
    ∃ jobID, .create winMin winMax 0 (.ok (jobID, total)) ∈ a.event.calls

namespace LogsExportLoop

variable {R : Type} (l : LogsExportLoop R)

/-- The window was reported to have so many pages. -/
def Sized (h : List ExportAttempt) (winMin winMax pages : Int) : Prop :=
  ∃ total, Reported h winMin winMax total ∧ 0 < total ∧
    pages = (total + l.pageSize - 1) / l.pageSize

/-- A window that starts at `t` or later and ends at `w` has no records, or all of its pages were
read. -/
def ReadUpTo (h : List ExportAttempt) (t w : Int) : Prop :=
  ∃ m, t ≤ m ∧ m < w ∧
    ((∃ total ≤ 0, Reported h m w total) ∨
      ∃ pages, l.Sized h m w pages ∧ 0 < pages ∧
        ∀ page, 0 ≤ page → page < pages → PageDone h m w page)

/-- What the phase says of the page in flight. -/
inductive InPhase (h : List ExportAttempt) (winMin winMax : Int) (c : ExportCursor) : Prop
  | created (phase : c.phase = .created) (offset : c.pageOffsetDone = 0)
      (bytes : c.pageByteOffset = 0)
      (job : c.jobID ≠ "" → ∃ a ∈ h, Creates winMin winMax c.page c.jobID a)
  | polling (phase : c.phase = .polling) (offset : c.pageOffsetDone = 0)
      (bytes : c.pageByteOffset = 0) (nonempty : c.jobID ≠ "")
      (job : ∃ a ∈ h, Creates winMin winMax c.page c.jobID a)
  | downloading (phase : c.phase = .downloading) (nonempty : c.jobID ≠ "")
      (a : ExportAttempt) (as : List ExportAttempt) (sub : (a :: as).Sublist h)
      (job : Creates winMin winMax c.page c.jobID a)
      (chunks : Chunks c.jobID as c.pageOffsetDone c.pageByteOffset)

/-- A window that is being read. -/
structure Reading (h : List ExportAttempt) (winMin winMax : Int) (c : ExportCursor) : Prop where
  page_nonneg : 0 ≤ c.page
  page_lt : c.page < c.pages
  sized : l.Sized h winMin winMax c.pages
  pagesDone : ∀ page, 0 ≤ page → page < c.page → PageDone h winMin winMax page
  phase : InPhase h winMin winMax c

/-- What the cursor says of the window that comes after the time `t`. -/
def CursorOk (h : List ExportAttempt) (t : Int) (c : ExportCursor) : Prop :=
  c.phase = .idle ∨
    ∃ m M, c.windowBounds = some (m, M) ∧ t ≤ m ∧ m < M ∧
      (c.phase = .blocked ∨ l.Reading h m M c)

/-- The assumptions on one call: the clock is in the years a cursor can hold and not within
`max_backfill` of their start, and no count of records is so large that the pages overflow. -/
structure EnvOk (env : ExportEnv) : Prop where
  year : Lib.Rfc3339.year env.now ≤ 9999
  backfill : l.maxBackfill ≤ env.now
  total : ∀ request jobID total, env.create request = .ok (jobID, total) → total < 2 ^ 62

/-- `Collect` comes from one position to another, under some assumption on its surroundings. -/
def Proposes (ok : ExportEnv → Prop) (p : Position) (e : ExportEvent) (q : Position) : Prop :=
  ∃ env since w, ok env ∧ since.position = p ∧ w.position = q ∧
    l.collect env since = ⟨e.calls, .ok (e.logs, w)⟩

end LogsExportLoop

/-! ### More attempts -/

section Mono

variable {h : List ExportAttempt} {winMin winMax : Int} (a : ExportAttempt)

theorem PageDone.mono {page : Int} (hd : PageDone h winMin winMax page) :
    PageDone (h ++ [a]) winMin winMax page := by
  obtain ⟨jobID, c, as, last, skip, byteOffset, chunk, hsub, hrest⟩ := hd
  exact ⟨jobID, c, as, last, skip, byteOffset, chunk, hsub.trans (List.sublist_append_left _ _),
    hrest⟩

theorem Reported.mono {total : Int} (hr : Reported h winMin winMax total) :
    Reported (h ++ [a]) winMin winMax total := by
  obtain ⟨b, hb, hrest⟩ := hr
  exact ⟨b, List.mem_append_left _ hb, hrest⟩

namespace LogsExportLoop

variable {R : Type} {l : LogsExportLoop R}

theorem Sized.mono {pages : Int} (hs : l.Sized h winMin winMax pages) :
    l.Sized (h ++ [a]) winMin winMax pages := by
  obtain ⟨total, hr, hrest⟩ := hs
  exact ⟨total, hr.mono a, hrest⟩

theorem InPhase.mono {c : ExportCursor} (hc : InPhase h winMin winMax c) :
    InPhase (h ++ [a]) winMin winMax c := by
  cases hc with
  | created phase offset bytes job =>
    refine .created phase offset bytes fun hne => ?_
    obtain ⟨b, hb, hjob⟩ := job hne
    exact ⟨b, List.mem_append_left _ hb, hjob⟩
  | polling phase offset bytes nonempty job =>
    obtain ⟨b, hb, hjob⟩ := job
    exact .polling phase offset bytes nonempty ⟨b, List.mem_append_left _ hb, hjob⟩
  | downloading phase nonempty b as sub job chunks =>
    exact .downloading phase nonempty b as (sub.trans (List.sublist_append_left _ _)) job chunks

theorem Reading.mono {c : ExportCursor} (hr : l.Reading h winMin winMax c) :
    l.Reading (h ++ [a]) winMin winMax c :=
  ⟨hr.page_nonneg, hr.page_lt, hr.sized.mono a, fun page h0 hlt => (hr.pagesDone page h0 hlt).mono a,
    hr.phase.mono a⟩

theorem CursorOk.mono {t : Int} {c : ExportCursor} (hc : l.CursorOk h t c) :
    l.CursorOk (h ++ [a]) t c := by
  rcases hc with hidle | ⟨m, M, hbounds, htm, hmM, hphase⟩
  · exact Or.inl hidle
  · exact Or.inr ⟨m, M, hbounds, htm, hmM, hphase.imp_right fun hr => hr.mono a⟩

theorem ReadUpTo.mono {t w : Int} (hr : l.ReadUpTo h t w) : l.ReadUpTo (h ++ [a]) t w := by
  obtain ⟨m, htm, hmw, hread⟩ := hr
  refine ⟨m, htm, hmw, ?_⟩
  rcases hread with ⟨total, hle, hr⟩ | ⟨pages, hs, hpos, hdone⟩
  · exact Or.inl ⟨total, hle, hr.mono a⟩
  · exact Or.inr ⟨pages, hs.mono a, hpos, fun page h0 hlt => (hdone page h0 hlt).mono a⟩

end LogsExportLoop

end Mono

end GenaiBridge
