/-
The position of a loop that keeps a cursor, and what a store does with it.

A loop goes on from a time and a cursor; the epoch of a watermark is only for the
store.  The store admits a position after another one if the time is later, or the
cursor is another one.
-/
import GenaiBridge.Bridge.Checkpoint
import GenaiBridge.Lib.Checkpointed

namespace GenaiBridge

/-- Where a loop goes on from. -/
structure Position where
  time : Int
  cursor : String
deriving DecidableEq, Repr

/-- The position of a watermark. -/
def Watermark.position (w : Watermark) : Position := ⟨w.time, w.cursor⟩

/-- The change from one position to another passes the fence. -/
def Position.admits (stored incoming : Position) : Prop :=
  stored.time < incoming.time ∨ stored.time = incoming.time ∧ incoming.cursor ≠ stored.cursor

theorem Position.admits_le {p q : Position} (h : p.admits q) : p.time ≤ q.time := by
  rcases h with h | h <;> omega

/-- **The stored time never decreases.** -/
theorem stored_time_le_of_step {ε : Type} {proposes : Position → ε → Position → Prop}
    {s s' : Lib.Checkpointed Position ε}
    (hstep : Lib.Checkpointed.Step proposes Position.admits s s') :
    s.stored.time ≤ s'.stored.time := by
  cases hstep with
  | failed h => exact le_refl _
  | unseen h ha => exact Position.admits_le ha
  | committed h ha => exact Position.admits_le ha
  | reload => exact le_refl _

end GenaiBridge
