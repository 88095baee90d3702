/-
The single-replica coordinator, and the epoch it takes over.

`Noop` is always the leader and stamps a fixed epoch.  Over a store that a deployment
with elections has advanced, a fixed epoch would be fenced for good, so `Build` reads
what is stored under the keys of its loops and takes the largest epoch it finds.
-/
import GenaiBridge.Bridge.App

namespace GenaiBridge

/-- `coordinate.Noop`. -/
structure Noop where
  epoch : Int64 := 0
deriving DecidableEq

namespace Noop

/-- The epoch `Run` stamps on the leader context. -/
def stamped (n : Noop) : Int64 := max 1 n.epoch

/-- The loop of `Build` over the loops' keys; `load` is what `Load` returns, `none` an error. -/
def maxStored (load : CheckpointKey → Option Watermark) : Int64 → List CheckpointKey → Int64
  | m, [] => m
  | m, key :: keys =>
    match load key with
    | none => maxStored load m keys
    | some wm => maxStored load (if m < wm.epoch then wm.epoch else m) keys

/-- The coordinator `Build` goes on with. -/
def heal (n : Noop) (load : CheckpointKey → Option Watermark) (keys : List CheckpointKey) : Noop :=
  let cur := max 1 n.epoch
  let maxStored := maxStored load cur keys
  if cur < maxStored then ⟨maxStored⟩ else n

end Noop

/-- The keys of the loops of an app, in their order. -/
def App.keys (app : App) (sha256 : String → String) : List CheckpointKey :=
  app.loops.map fun l => l.loop.key sha256

/-- The coordinator of an app that `Build` was given a `Noop` for. -/
def App.coordinator (app : App) (sha256 : String → String)
    (load : CheckpointKey → Option Watermark) (n : Noop) : Noop := n.heal load (app.keys sha256)

end GenaiBridge
