/-
The count of minutes that are given up as too old to store.

A windowed loop whose watermark lies before `now - max_backfill` has lost what is between
the two: the backend does not take it any more.  `runOnce` counts it in whole minutes
before it collects, and the runner remembers up to where it has counted for a watermark,
so that a loop that is stuck does not count the same span at every tick.
-/
import GenaiBridge.Bridge.Model

namespace GenaiBridge

/-- What the count reads of a `LoopSpec`. -/
structure BackfillSpec where
  window : Int
  maxBackfill : Int
deriving DecidableEq, Repr

/-- `now.Add(-sp.MaxBackfill)`. -/
def BackfillSpec.floor (sp : BackfillSpec) (now : Int) : Int := Time.addNeg now sp.maxBackfill

/-- The fields of a `LoopRunner` behind `BackfillUnstorableMinutes`. -/
structure BackfillCount where
  backfillCountedWm : Int := 0
  backfillCountedFloor : Int := 0
deriving DecidableEq, Repr

/-- One call of `runOnce`, as far as the count sees it. -/
structure BackfillTick where
  now : Int
  /-- What `Busy` reports. -/
  busy : Bool
  /-- The time of the watermark `Since` returns, or nothing where the load failed. -/
  since : Option Int
deriving DecidableEq, Repr

namespace BackfillCount

/-- What `Reset` leaves of the count. -/
def reset (_ : BackfillCount) : BackfillCount := {}

/-- Where a count for this watermark starts: past what was counted for it already. -/
def start (s : BackfillCount) (wm : Int) : Int :=
  if s.backfillCountedWm = wm ∧ wm < s.backfillCountedFloor then s.backfillCountedFloor else wm

/-- `BackfillUnstorableMinutes`. -/
def backfillUnstorableMinutes (s : BackfillCount) (wm floor : Int) : Int × BackfillCount :=
  let mins := (Time.sub floor (s.start wm)).tdiv minute
  if mins ≤ 0 then (0, s)
  else (mins, { backfillCountedWm := wm
                backfillCountedFloor := s.start wm + wrap64 (mins * minute) })

/-- `runOnce` up to its `Collect`: the minutes it adds to `backfill_unstorable`. -/
def runOnce (sp : BackfillSpec) (s : BackfillCount) (t : BackfillTick) : Int × BackfillCount :=
  if t.busy then (0, s)
  else
    match t.since with
    | none => (0, s)
    | some wm =>
      if 0 < sp.window ∧ wm ≠ 0 ∧ wm < sp.floor t.now then
        s.backfillUnstorableMinutes wm (sp.floor t.now)
      else (0, s)

end BackfillCount

end GenaiBridge
