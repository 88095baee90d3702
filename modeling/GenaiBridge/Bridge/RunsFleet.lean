/-
The runs loop in several processes.

The window that is being drained is in the checkpoint, which the processes share; the
sessions that were discovered are in the memory of each.  A process that is elected starts
its runner anew (`Reset`), so that it reads the checkpoint again, but it keeps the
sessions: only a restart drops them.  What happens is a sequence of events, which may
come in any order; several processes may take themselves for the leader at once.

The events are numbered, and things are carried along that the code does not have: with
a watermark, at which event the window in it began; with the sessions of a process, at
which event they were discovered and whether that was in its current leadership; and the
queries for later pages that were made.  The epoch of a watermark is left out, since
`Collect` does not read it.
-/
import GenaiBridge.Bridge.Runner
import GenaiBridge.Bridge.Runs

namespace GenaiBridge

namespace RunsLoop

variable (l : RunsLoop)

/-- `resolveSessions` uses the sessions it has kept. -/
def Reuses (env : RunsEnv) (cache : SessionCache) (draining : Bool) : Prop :=
  cache.cachedSessions ≠ [] ∧
    (draining ∨ Time.sub env.now cache.cachedAt < l.sessionRefresh)

instance (env : RunsEnv) (cache : SessionCache) (draining : Bool) :
    Decidable (l.Reuses env cache draining) :=
  inferInstanceAs (Decidable (_ ∧ _))

/-- A watermark is inside a window. -/
def isDraining (w : Watermark) : Bool := (draining (decodeRunsCursor w.cursor)).isSome

/-- The sessions `Collect` queries runs of, if it makes a query. -/
def asks (env : RunsEnv) (cache : SessionCache) (since : Watermark) : Option (List String) :=
  match draining (decodeRunsCursor since.cursor) with
  | some _ => (l.resolveSessions env cache true).1.toOption
  | none =>
    match (l.beginWindow since.time env.now).2 with
    | some _ => (l.resolveSessions env cache false).1.toOption
    | none => none

end RunsLoop

/-! ### The state -/

/-- The query for the first page of a window: the process, the event, and the sessions. -/
structure Begun where
  replica : Nat
  event : Nat
  sessions : List String
deriving DecidableEq

/-- A watermark, and where the window in it began. -/
structure Placed where
  watermark : Watermark
  begun : Option Begun := none

/-- A process: what its loop has discovered, and what its runner holds. -/
structure RunsReplica where
  cache : SessionCache := {}
  /-- The sessions were discovered in the current leadership. -/
  fresh : Bool := false
  /-- The event at which they were discovered. -/
  found : Nat := 0
  leads : Bool := false
  /-- The frontier, if there is one. -/
  frontier : Option Placed := none
  /-- A batch that was collected and is not finished with. -/
  queued : Option Placed := none

/-- A query for a page after the first one of its window. -/
structure LaterPage where
  replica : Nat
  begun : Option Begun
  sessions : List String
  /-- The sessions were discovered in the leadership in which they are used. -/
  fresh : Bool
  /-- The event at which they were discovered. -/
  found : Nat
deriving DecidableEq

structure RunsFleet where
  /-- The number of the next event. -/
  event : Nat
  stored : Placed
  replicas : Nat → RunsReplica
  laterPages : List LaterPage

inductive RunsFleetEvent
  | elected (n : Nat)
  | deposed (n : Nat)
  | restarted (n : Nat)
  /-- A tick of the leader. -/
  | collect (n : Nat) (env : RunsEnv)
  /-- The worker gives up the batch, or cannot read back what a refused save met. -/
  | dropped (n : Nat)
  /-- The worker saves the batch. -/
  | saved (n : Nat) (outcome : SaveOutcome)

namespace RunsReplica

/-- The process at the start of a leadership: `Reset` leaves the loop as it is. -/
def elected (r : RunsReplica) : RunsReplica :=
  { r with fresh := false, leads := true, frontier := none, queued := none }

/-- The process after a restart; it has to be elected again. -/
def restarted (_ : RunsReplica) : RunsReplica := {}

/-- `Since`. -/
def since (r : RunsReplica) (stored : Placed) : Placed := r.frontier.getD stored

/-- The frontier after a successful save. -/
def follow (r : RunsReplica) (p : Placed) : Placed :=
  match r.frontier with
  | none => p
  | some f =>
    if f.watermark.time < p.watermark.time ∨ (p.watermark.time = f.watermark.time ∧
        p.watermark.cursor ≠ "" ∧ p.watermark.cursor ≠ f.watermark.cursor) then p else f

/-- Where the window of what is collected began. -/
def begins (l : RunsLoop) (n event : Nat) (r : RunsReplica) (env : RunsEnv) (since : Placed) :
    Option Begun :=
  if RunsLoop.isDraining since.watermark then since.begun
  else (l.asks env r.cache since.watermark).map fun sessions => ⟨n, event, sessions⟩

/-- A call of `Collect` discovers sessions. -/
def discovers (l : RunsLoop) (r : RunsReplica) (env : RunsEnv) (since : Placed) : Bool :=
  (l.asks env r.cache since.watermark).isSome &&
    !decide (l.Reuses env r.cache (RunsLoop.isDraining since.watermark))

/-- A call of `Collect`. -/
def collect (l : RunsLoop) (n event : Nat) (r : RunsReplica) (env : RunsEnv) (since : Placed) :
    RunsReplica :=
  let step := l.collect env r.cache since.watermark
  { r with
    cache := step.cache
    fresh := r.fresh || r.discovers l env since
    found := if r.discovers l env since then event else r.found
    queued := match step.result with
      | .ok (_, w) => some ⟨w, r.begins l n event env since⟩
      | .error _ => none }

/-- The query for a later page that it makes. -/
def laterPage (l : RunsLoop) (n event : Nat) (r : RunsReplica) (env : RunsEnv) (since : Placed) :
    Option LaterPage :=
  let after := r.collect l n event env since
  if RunsLoop.isDraining since.watermark then
    (l.asks env r.cache since.watermark).map fun sessions =>
      ⟨n, since.begun, sessions, after.fresh, after.found⟩
  else none

end RunsReplica

namespace RunsFleet

/-- A checkpoint, and processes that were never elected. -/
def fresh (w : Watermark) : RunsFleet := ⟨0, ⟨w, none⟩, fun _ => {}, []⟩

/-- The fleet with another state of one process. -/
def set (s : RunsFleet) (n : Nat) (r : RunsReplica) : RunsFleet :=
  { s with replicas := Function.update s.replicas n r }

/-- What one event does; one that cannot happen changes nothing. -/
def act (l : RunsLoop) (s : RunsFleet) : RunsFleetEvent → RunsFleet
  | .elected n => s.set n (s.replicas n).elected
  | .deposed n => s.set n { s.replicas n with leads := false }
  | .restarted n => s.set n (s.replicas n).restarted
  | .collect n env =>
    let r := s.replicas n
    if r.leads ∧ r.queued.isNone then
      { s.set n (r.collect l n s.event env (r.since s.stored)) with
        laterPages := s.laterPages ++ (r.laterPage l n s.event env (r.since s.stored)).toList }
    else s
  | .dropped n => s.set n { s.replicas n with queued := none }
  | .saved n outcome =>
    let r := s.replicas n
    match r.queued with
    | none => s
    | some p =>
      match outcome with
      | .ok => { s.set n { r with frontier := some (r.follow p), queued := none } with stored := p }
      | .stale => s.set n { r with frontier := some s.stored, queued := none }
      | .failed landed =>
        { s.set n { r with queued := none } with stored := if landed then p else s.stored }

/-- One event. -/
def apply (l : RunsLoop) (s : RunsFleet) (e : RunsFleetEvent) : RunsFleet :=
  { s.act l e with event := s.event + 1 }

/-- A sequence of events. -/
def run (l : RunsLoop) (s : RunsFleet) (events : List RunsFleetEvent) : RunsFleet :=
  events.foldl (apply l) s

end RunsFleet

end GenaiBridge
