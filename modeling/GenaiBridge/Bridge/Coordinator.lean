/-
The goroutines of the DynamoDB coordinator: `Run`, `lead` and `renewWatchdog`.

A process that runs the coordinator has one goroutine in `Run`, and for every term it
led the goroutine of `onElected` and the watchdog of the renewals.  The goroutines of
all terms are kept, also those of terms `Run` is past: that they have ended by then is
for the barrier in `lead` to see to.

A cluster is several such processes over one lock, and a real time.  Tickers and
pauses may fire at any time.  What is assumed of time is in three numbers: a clock reads
within `skew` of the time, at every reading anew, a request is carried out (and a success
reported) within `delay` of the reading of the clock it bears, and a goroutine whose
`select` has become ready goes on within `slack`.
-/
import GenaiBridge.Bridge.Lease

namespace GenaiBridge

namespace Lease

/-! ### One term -/

/-- Where `renewWatchdog` is. -/
inductive Watchdog
  /-- The goroutine was launched at this time and has not made its timer yet. -/
  | starting (since : Int)
  /-- At its `select`, the timer due at this time. -/
  | armed (deadline : Int)
  | returned
deriving DecidableEq

/-- The variables of one call of `lead`. -/
structure Term where
  /-- The call of `acquire` that returned the fence. -/
  call : Nat
  fence : Int64
  /-- `cancel()` was called. -/
  cancelled : Bool
  /-- `onElected` has returned: `done` is closed. -/
  finished : Bool
  watchdog : Watchdog
  /-- The buffer of `renewOK`: when the signal in it was sent. -/
  renewOK : Option Int
deriving DecidableEq

/-- `lead` at a time: the two goroutines are launched. -/
def Term.lead (call : Nat) (fence : Int64) (now : Int) : Term :=
  ⟨call, fence, false, false, .starting now, none⟩

/-- The lead loop's `cancel()`. -/
def Term.cancel (t : Term) : Term := { t with cancelled := true }

/-- The lead loop's non-blocking send on `renewOK`: a full buffer stays as it is. -/
def Term.signal (t : Term) (now : Int) : Term :=
  match t.renewOK with
  | none => { t with renewOK := some now }
  | some _ => t

/-- A step of one of the two goroutines of a term; `ctx` says whether the context of `Run` is
cancelled, so `leaderCtx` is done if it or the term is. -/
inductive Term.Step (renewDeadline now : Int) (ctx : Bool) : Term → Term → Prop
  | arm {t} (since : Int) (h : t.watchdog = .starting since) :
      Step renewDeadline now ctx t { t with watchdog := .armed (now + renewDeadline) }
  | reset {t} (deadline sent : Int) (h : t.watchdog = .armed deadline) (hok : t.renewOK = some sent) :
      Step renewDeadline now ctx t
        { t with watchdog := .armed (now + renewDeadline), renewOK := none }
  | expire {t} (deadline : Int) (h : t.watchdog = .armed deadline) (hdue : deadline ≤ now) :
      Step renewDeadline now ctx t { t with cancelled := true, watchdog := .returned }
  | leave {t} (deadline : Int) (h : t.watchdog = .armed deadline)
      (hdone : (ctx || t.cancelled) = true) :
      Step renewDeadline now ctx t { t with watchdog := .returned }
  /-- `onElected` may return at any time, also on its own. -/
  | finish {t} : Step renewDeadline now ctx t { t with finished := true }

/-! ### One process -/

/-- Where the goroutine of `Run` is. -/
inductive Main
  /-- At the top of the loop. -/
  | top
  /-- In a call of `acquire`. -/
  | acquiring (call : Nat)
  /-- At the `select` after an acquire that did not succeed. -/
  | waiting
  /-- At the `select` of `lead`. -/
  | leading
  /-- In a call of `renew`. -/
  | renewing (call : Nat)
  /-- In `lead`, past its `select`: at `<-watchdogDone` and `<-done`. -/
  | draining
  | returned
deriving DecidableEq

/-- The goroutine is inside `lead`. -/
def Main.inLead : Main → Bool
  | .leading | .renewing _ | .draining => true
  | .top | .acquiring _ | .waiting | .returned => false

/-- The call the goroutine is in. -/
def Main.call? : Main → Option Nat
  | .acquiring n | .renewing n => some n
  | .top | .waiting | .leading | .draining | .returned => none

/-- A process that runs the coordinator. -/
structure Replica where
  main : Main
  /-- The context of `Run` is cancelled. -/
  cancelled : Bool
  /-- The terms it has led, newest first. -/
  terms : List Term
deriving DecidableEq

/-- A process at the start of `Run`. -/
def Replica.fresh : Replica := ⟨.top, false, []⟩

/-- `leaderCtx` of a term is not done. -/
def Replica.live (p : Replica) (t : Term) : Bool := !p.cancelled && !t.cancelled

/-- A step of one process in which it does not talk to the lock. -/
inductive Replica.Step (renewDeadline now : Int) : Replica → Replica → Prop
  | cancel {p} : Step renewDeadline now p { p with cancelled := true }
  | giveUp {p} (h : p.main = .top) (hctx : p.cancelled = true) :
      Step renewDeadline now p { p with main := .returned }
  | retry {p} (h : p.main = .waiting) : Step renewDeadline now p { p with main := .top }
  | stopWaiting {p} (h : p.main = .waiting) (hctx : p.cancelled = true) :
      Step renewDeadline now p { p with main := .returned }
  /-- `case <-ctx.Done()` and `case <-done` of `lead`. -/
  | stop {p} (t : Term) (rest : List Term) (h : p.main = .leading) (hterms : p.terms = t :: rest)
      (hcase : p.cancelled = true ∨ t.finished = true) :
      Step renewDeadline now p { p with main := .draining, terms := t.cancel :: rest }
  /-- `case <-leaderCtx.Done()` of `lead`. -/
  | steppedDown {p} (t : Term) (rest : List Term) (h : p.main = .leading)
      (hterms : p.terms = t :: rest) (hcase : p.live t = false) :
      Step renewDeadline now p { p with main := .draining }
  /-- `lead` returns, with its deferred `cancel()`. -/
  | drained {p} (t : Term) (rest : List Term) (h : p.main = .draining)
      (hterms : p.terms = t :: rest) (hwatchdog : t.watchdog = .returned)
      (hdone : t.finished = true) :
      Step renewDeadline now p { p with main := .top, terms := t.cancel :: rest }
  | goroutine {p} (newer : List Term) (t t' : Term) (older : List Term)
      (hterms : p.terms = newer ++ t :: older) (h : t.Step renewDeadline now p.cancelled t') :
      Step renewDeadline now p { p with terms := newer ++ t' :: older }

/-- No goroutine of a live term is later than `slack` at a time. -/
structure Term.Prompt (slack now : Int) (t : Term) : Prop where
  starts : ∀ since, t.watchdog = .starting since → now ≤ since + slack
  fires : ∀ deadline, t.watchdog = .armed deadline → now ≤ deadline + slack
  hears : ∀ sent, t.renewOK = some sent → now ≤ sent + slack

/-! ### The cluster -/

/-- A process of the cluster: its coordinator, and the deadline of its watchdog. -/
structure Member where
  coordinator : Coordinator
  renewDeadline : Int

/-- What is assumed of the network, of the runtime and of the clocks. -/
structure Timing where
  delay : Int
  slack : Int
  skew : Int

/-- What a clock may read at a time. -/
def Timing.Reads (T : Timing) (now reading : Int) : Prop :=
  now - T.skew ≤ reading ∧ reading ≤ now + T.skew

/-- Processes over one lock.  Of every call it is recorded whose it is, and at what time its
reading of the clock was. -/
structure Cluster where
  now : Int
  lock : System
  owner : Nat → Nat
  readAt : Nat → Int
  replicas : Nat → Replica

/-- A cluster that starts at a time, over a lock item. -/
def Cluster.fresh (now : Int) (item : Option LockItem) : Cluster :=
  ⟨now, .fresh item, fun _ => 0, fun _ => 0, fun _ => .fresh⟩

/-- The cluster after a process has sent the request of a call that was idle. -/
def Cluster.send (s : Cluster) (r n : Nat) (call : Call) (req : Request) (main : Main) : Cluster :=
  { s with
    lock := { s.lock with
      calls := Function.update s.lock.calls n call
      sent := (n, req) :: s.lock.sent }
    owner := Function.update s.owner n r
    readAt := Function.update s.readAt n s.now
    replicas := Function.update s.replicas r { s.replicas r with main := main } }

/-- The cluster after a call of a process has returned. -/
def Cluster.answer (s : Cluster) (r n : Nat) (call : Call) (p : Replica) : Cluster :=
  { s with
    lock := { s.lock with calls := Function.update s.lock.calls n call }
    replicas := Function.update s.replicas r p }

/-- One step of a cluster. -/
inductive Cluster.Step (T : Timing) (M : Nat → Member) : Cluster → Cluster → Prop
  /-- Time goes on, but not past what a goroutine is given. -/
  | elapse {s} (now : Int) (hle : s.now ≤ now)
      (hprompt : ∀ r, ∀ t ∈ (s.replicas r).terms, (s.replicas r).live t = true →
        t.Prompt T.slack now) :
      Step T M s { s with now := now }
  | process {s} (r : Nat) (p : Replica)
      (h : (s.replicas r).Step (M r).renewDeadline s.now p) :
      Step T M s { s with replicas := Function.update s.replicas r p }
  | acquire {s} (r n : Nat) (reading : Int) (h : (s.replicas r).main = .top)
      (hctx : (s.replicas r).cancelled = false) (hidle : s.lock.calls n = .idle)
      (hclock : T.Reads s.now reading) :
      Step T M s (s.send r n (.acquiring (M r).coordinator)
        ((M r).coordinator.acquire reading) (.acquiring n))
  | renew {s} (r n : Nat) (reading : Int) (t : Term) (rest : List Term)
      (h : (s.replicas r).main = .leading) (hterms : (s.replicas r).terms = t :: rest)
      (hidle : s.lock.calls n = .idle) (hclock : T.Reads s.now reading) :
      Step T M s (s.send r n (.renewing (M r).coordinator t.fence)
        ((M r).coordinator.renew t.fence reading) (.renewing n))
  | land {s} (n : Nat) (req : Request) (item : LockItem) (e : Event)
      (hsent : (n, req) ∈ s.lock.sent) (happly : apply n req s.lock.item = some (item, e))
      (hdelay : s.now ≤ s.readAt n + T.delay) :
      Step T M s { s with lock := { s.lock with item := some item, log := e :: s.lock.log } }
  | elected {s} (r n : Nat) (q : ℚ) (fence : Int64) (h : (s.replicas r).main = .acquiring n)
      (hlanded : .acquired n q ∈ s.lock.log) (hfence : DynamoDB.numAttr (some (.n q)) = some fence)
      (hdelay : s.now ≤ s.readAt n + T.delay) :
      Step T M s (s.answer r n (.acquired (M r).coordinator fence)
        { s.replicas r with
          main := .leading
          terms := .lead n fence s.now :: (s.replicas r).terms })
  | acquireFails {s} (r n : Nat) (h : (s.replicas r).main = .acquiring n) :
      Step T M s (s.answer r n .failed { s.replicas r with main := .waiting })
  | renewed {s} (r n : Nat) (t : Term) (rest : List Term)
      (h : (s.replicas r).main = .renewing n) (hterms : (s.replicas r).terms = t :: rest)
      (hlanded : .renewed n t.fence ∈ s.lock.log) (hdelay : s.now ≤ s.readAt n + T.delay) :
      Step T M s (s.answer r n (.renewed (M r).coordinator t.fence)
        { s.replicas r with main := .leading, terms := t.signal s.now :: rest })
  /-- `renew` reports that the lock is somebody else's. -/
  | renewLost {s} (r n : Nat) (t : Term) (rest : List Term)
      (h : (s.replicas r).main = .renewing n) (hterms : (s.replicas r).terms = t :: rest) :
      Step T M s (s.answer r n .failed
        { s.replicas r with main := .draining, terms := t.cancel :: rest })
  /-- `renew` reports an error: the watchdog is left to decide. -/
  | renewFails {s} (r n : Nat) (h : (s.replicas r).main = .renewing n) :
      Step T M s (s.answer r n .failed { s.replicas r with main := .leading })

/-- Any number of steps of a cluster. -/
def Cluster.Run (T : Timing) (M : Nat → Member) : Cluster → Cluster → Prop :=
  Relation.ReflTransGen (Cluster.Step T M)

/-- Some `leaderCtx` of the process is not done: its scheduler may emit and save. -/
def Cluster.Leads (s : Cluster) (r : Nat) : Prop :=
  ∃ t ∈ (s.replicas r).terms, (s.replicas r).live t = true

end Lease

end GenaiBridge
