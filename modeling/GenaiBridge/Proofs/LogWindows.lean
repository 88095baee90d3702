/-
The window a log loop begins.

Both log loops compute it the same way from the watermark and the clock.  It starts at
the watermark, or a window before the clock if there is none, but not before the
backfill floor; it ends a window later, but not before what has settled.
-/
import GenaiBridge.Bridge.Runs

namespace GenaiBridge

/-- Where a window would start without a floor. -/
def windowFrom (window t now : Int) : Int := if t = 0 then now - window else t

/-- Where a window starts. -/
def windowStart (window maxBackfill t now : Int) : Int :=
  max (windowFrom window t now) (now - maxBackfill)

/-- Where a window that starts at `start` ends. -/
def windowEnd (window settle start now : Int) : Int := min (start + window) (now - settle)

/-! ### The two loops -/

private theorem ite_isZero (window t now : Int) :
    (if Time.isZero t then now - window else t) = windowFrom window t now := by
  by_cases h : t = 0 <;> simp [windowFrom, Time.isZero, h]

private theorem ite_floor (window maxBackfill t now : Int) :
    (if windowFrom window t now < now - maxBackfill then now - maxBackfill
      else windowFrom window t now) = windowStart window maxBackfill t now := by
  unfold windowStart
  split_ifs <;> omega

private theorem ite_cutoff (window settle start now : Int) :
    (if now - settle < start + window then now - settle else start + window) =
      windowEnd window settle start now := by
  unfold windowEnd
  split_ifs <;> omega

theorem LogsExportLoop.windowBoundsFor_eq {R : Type} (l : LogsExportLoop R) (t now : Int) :
    l.windowBoundsFor t now =
      (windowStart l.window l.maxBackfill t now,
        windowEnd l.window l.settle (windowStart l.window l.maxBackfill t now) now,
        decide (windowStart l.window l.maxBackfill t now <
          windowEnd l.window l.settle (windowStart l.window l.maxBackfill t now) now)) := by
  unfold windowBoundsFor
  dsimp only
  rw [ite_isZero, ite_floor, ite_cutoff]

theorem RunsLoop.beginWindow_eq (l : RunsLoop) (t now : Int) :
    l.beginWindow t now =
      (if windowFrom l.window t now < now - l.maxBackfill then [.incomplete .backfillSkipped]
        else [],
        if windowStart l.window l.maxBackfill t now <
            windowEnd l.window l.settle (windowStart l.window l.maxBackfill t now) now then
          some (windowStart l.window l.maxBackfill t now,
            windowEnd l.window l.settle (windowStart l.window l.maxBackfill t now) now)
        else none) := by
  unfold beginWindow
  dsimp only
  rw [ite_isZero, ite_floor, ite_cutoff]

/-- The window that begins, unless it is empty. -/
def windowFor (window settle maxBackfill t now : Int) : Option (Int × Int) :=
  let start := windowStart window maxBackfill t now
  if start < windowEnd window settle start now then some (start, windowEnd window settle start now)
  else none

/-- The window `stepIdle` creates the export of, from a time on; none if nothing has settled. -/
def LogsExportLoop.opens {R : Type} (l : LogsExportLoop R) (t now : Int) : Option (Int × Int) :=
  let (winMin, winMax, settled) := l.windowBoundsFor t now
  if settled then some (winMin, winMax) else none

theorem LogsExportLoop.opens_eq {R : Type} (l : LogsExportLoop R) (t now : Int) :
    l.opens t now = windowFor l.window l.settle l.maxBackfill t now := by
  unfold opens
  rw [windowBoundsFor_eq]
  simp only [decide_eq_true_eq, windowFor]

/-- The window an idle call of `Collect` begins. -/
def LogsExportLoop.begins {R : Type} (l : LogsExportLoop R) (now : Int) (since : Watermark) :
    Option (Int × Int) :=
  match (decodeCursor since.cursor).phase with
  | .idle | .other _ => l.opens since.time now
  | .created | .polling | .downloading | .blocked => none

/-- The same, of the runs loop. -/
def RunsLoop.begins (l : RunsLoop) (now : Int) (since : Watermark) : Option (Int × Int) :=
  match draining (decodeRunsCursor since.cursor) with
  | some _ => none
  | none => (l.beginWindow since.time now).2

/-- A window lies after the watermark and before the clock, if the clock is at least the backfill
after the zero time. -/
theorem windowStart_spec {window settle maxBackfill t now : Int} (hsettle : 0 ≤ settle)
    (hbackfill : maxBackfill ≤ now) :
    t ≤ windowStart window maxBackfill t now ∧ 0 ≤ windowStart window maxBackfill t now ∧
      windowEnd window settle (windowStart window maxBackfill t now) now ≤ now := by
  unfold windowEnd windowStart windowFrom
  split_ifs <;> omega

end GenaiBridge
