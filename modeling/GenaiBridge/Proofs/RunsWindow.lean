/-
What a cursor of the runs loop says was drained of a window.

As for the log export, the facts are about the attempts so far.  `CursorOk` ties a cursor
to the pages of its window that were fetched and written, in the order of the API's
tokens; `Drained` is what it comes to when the window is complete.
-/
import GenaiBridge.Proofs.Cursor
import GenaiBridge.Proofs.LogWindows
import GenaiBridge.Proofs.Positions
import GenaiBridge.Proofs.RunsSettings

namespace GenaiBridge

open Lib (Json)

/-! ### The cursor survives its text -/

private theorem RunsCursor.nodup_names (c : RunsCursor) :
    (c.slots.map fun s => s.name.map Json.foldCase).Nodup := by
  show (["win_min".toList, "win_max".toList, "next".toList, "page".toList].map
    fun s => s.map Json.foldCase).Nodup
  decide +kernel

/-- **A cursor is read as it was written.** -/
theorem decodeRunsCursor_encode {c : RunsCursor} (h : InInt64 c.page) :
    decodeRunsCursor c.encode = c := by
  have hne : c.encode ≠ "" := by
    intro heq
    have := congrArg String.toList heq
    simp [RunsCursor.encode, Json.encodeRecord, Json.encode] at this
  have hwinMin := textField_written c.nodup_names "win_min" c.winMin true (by simp [RunsCursor.slots])
  have hwinMax := textField_written c.nodup_names "win_max" c.winMax true (by simp [RunsCursor.slots])
  have hnext := textField_written c.nodup_names "next" c.next true (by simp [RunsCursor.slots])
  have hpage := intField_written c.nodup_names "page" h (by simp [RunsCursor.slots])
  have hread : RunsCursor.unmarshal c.encode = some c := by
    unfold RunsCursor.unmarshal RunsCursor.encode
    rw [String.toList_ofList, Json.parse_encodeRecord]
    show RunsCursor.ofMembers _ = _
    unfold RunsCursor.ofMembers
    rw [hwinMin, hwinMax, hnext, hpage]
    rfl
  unfold decodeRunsCursor
  rw [if_neg hne, hread]
  rfl

theorem draining_encode {m M page : Int} {next : String} (h0 : 0 ≤ m) (hlt : m < M)
    (hyear : Lib.Rfc3339.year M ≤ 9999) (hpage : InInt64 page) :
    RunsLoop.draining (decodeRunsCursor (RunsCursor.mk (formatCursorTime m) (formatCursorTime M)
      next page).encode) = some ⟨m, M, next, page⟩ := by
  obtain ⟨hmin, hmax⟩ := parse_windowBounds h0 hlt (le_refl M) hyear
  rw [decodeRunsCursor_encode hpage]
  have hne : formatCursorTime M ≠ "" := by
    intro hempty
    rw [hempty] at hmax
    cases hmax
  unfold RunsLoop.draining RunsCursor.windowBounds
  rw [if_neg hne, hmin, hmax]
  rfl

/-! ### What was done of a window -/

/-- What a call of `Collect` did: the calls it made, and the logs of its batch. -/
structure RunsEvent where
  calls : List RunsCall
  logs : List LogRecord

abbrev RunsAttempt := Lib.Attempt Position RunsEvent

/-- A query, with its answer. -/
def RunsCall.query? : RunsCall → Option (Int × Int × String × Except String RunsPage)
  | .query winMin winMax cursor answer => some (winMin, winMax, cursor, answer)
  | _ => none

namespace RunsLoop

variable (l : RunsLoop)

/-- The attempt made one query, for a page of the window; it returned the records of the page, and
was written. -/
structure Fetches (winMin winMax : Int) (cursor : String) (page : RunsPage) (a : RunsAttempt) :
    Prop where
  landed : a.landed = true
  status : page.status = 200
  query : a.event.calls.filterMap RunsCall.query? = [(winMin, winMax, cursor, .ok page)]
  logs : a.event.logs = page.runs.map fun raw => l.policy.strip raw winMax

/-- Pages of the window from its first one on, each with the token the one before gave. -/
inductive Pages (winMin winMax : Int) : List RunsAttempt → String → Prop
  | none : Pages winMin winMax [] ""
  | more {as : List RunsAttempt} {a : RunsAttempt} {cursor : String} {page : RunsPage}
      (before : Pages winMin winMax as cursor) (fetches : l.Fetches winMin winMax cursor page a)
      (more : page.next ≠ "") : Pages winMin winMax (as ++ [a]) page.next

/-- The window was fetched to its last page, or to the cap with the event that says so. -/
def Drained (h : List RunsAttempt) (winMin winMax : Int) : Prop :=
  ∃ as a cursor page, (as ++ [a]).Sublist h ∧ l.Pages winMin winMax as cursor ∧
    l.Fetches winMin winMax cursor page a ∧
    ((as ++ [a]).length : Int) ≤ l.maxPagesPerWindow ∧
    (page.next = "" ∨
      ((as ++ [a]).length : Int) = l.maxPagesPerWindow ∧
        .incomplete .windowTruncated ∈ a.event.calls)

/-- What is known of the window that is being drained after the time `t`. -/
structure Draining (h : List RunsAttempt) (t : Int) (w : Window) : Prop where
  start : t ≤ w.winMin
  nonneg : 0 ≤ w.winMin
  lt : w.winMin < w.winMax
  year : Lib.Rfc3339.year w.winMax ≤ 9999
  pages : ∃ as, as.Sublist h ∧ l.Pages w.winMin w.winMax as w.resume ∧ w.page = as.length
  page_lt : w.page < l.maxPagesPerWindow

/-- What the cursor says of the window that comes after the time `t`. -/
def CursorOk (h : List RunsAttempt) (p : Position) : Prop :=
  ∀ w, draining (decodeRunsCursor p.cursor) = some w → l.Draining h p.time w

/-- A change of position: the time stands still or moves to the end of a window that was drained. -/
def Moved (h : List RunsAttempt) (p q : Position) : Prop :=
  q.time = p.time ∨ ∃ m, p.time ≤ m ∧ m < q.time ∧ l.Drained h m q.time

/-- The assumptions on one call: the clock is in the years a cursor can hold, and not within
`max_backfill` of their start. -/
structure EnvOk (env : RunsEnv) : Prop where
  year : Lib.Rfc3339.year env.now ≤ 9999
  backfill : l.maxBackfill ≤ env.now

/-- `Collect` comes from one position to another, under some assumption on its surroundings. -/
def Proposes (ok : RunsEnv → Prop) (p : Position) (e : RunsEvent) (q : Position) : Prop :=
  ∃ env cache cache' since w, ok env ∧ since.position = p ∧ w.position = q ∧
    l.collect env cache since = ⟨e.calls, cache', .ok (e.logs, w)⟩

/-! ### More attempts -/

variable {l} {h : List RunsAttempt}

theorem Draining.mono {t : Int} {w : Window} (hd : l.Draining h t w) (a : RunsAttempt) :
    l.Draining (h ++ [a]) t w := by
  obtain ⟨as, hsub, hrest⟩ := hd.pages
  exact { hd with pages := ⟨as, hsub.trans (List.sublist_append_left _ _), hrest⟩ }

theorem CursorOk.mono {p : Position} (hc : l.CursorOk h p) (a : RunsAttempt) :
    l.CursorOk (h ++ [a]) p :=
  fun w hw => (hc w hw).mono a

theorem Moved.mono {p q : Position} (hm : l.Moved h p q) (a : RunsAttempt) :
    l.Moved (h ++ [a]) p q := by
  rcases hm with heq | ⟨m, htm, hmw, as, last, cursor, page, hsub, hrest⟩
  · exact Or.inl heq
  · exact Or.inr ⟨m, htm, hmw, as, last, cursor, page,
      hsub.trans (List.sublist_append_left _ _), hrest⟩

end RunsLoop

end GenaiBridge
