/-
Leadership over one DynamoDB lock item, and the fleet that saves under it.

`acquire` and `renew` are one conditional `UpdateItem` each.  A request that was sent
may be carried out at any later time and any number of times (the SDK sends a request
again when its response is lost), and a caller may be told of a failed condition or of
an error whatever happened; only a success has to be true.  Clocks are whatever they
are.

The fleet is the lock together with the DynamoDB checkpoint store, where every save
bears the fence of some acquire as its epoch.
-/
import GenaiBridge.Bridge.Checkpoint

namespace GenaiBridge

/-- `t.UnixMilli()`. -/
def Time.unixMilli (t : Int) : Int64 := Int64.ofInt ((t - Time.unixEpoch) / 1000000)

namespace Lease

open DynamoDB (AttributeValue nstr sstr numAttr)

/-- The lock item.  It may have been seeded by hand, so any attribute may be missing or odd. -/
structure LockItem where
  holder : Option AttributeValue
  expiresAtMs : Option AttributeValue
  fence : Option AttributeValue
deriving DecidableEq

/-- `dynamodb.Coordinator`: what its requests depend on. -/
structure Coordinator where
  identity : String
  lease : Int
deriving DecidableEq

/-- The `UpdateItem`s of `acquire` and `renew`, with their expression attribute values. -/
inductive Request
  | acquire (me : String) (now exp : Int64)
  | renew (me : String) (fence exp : Int64)
deriving DecidableEq

/-- The request of `acquire`, at a reading of the clock. -/
def Coordinator.acquire (c : Coordinator) (now : Int) : Request :=
  .acquire c.identity (Time.unixMilli now) (Time.unixMilli (now + c.lease))

/-- The request of `renew`, at a reading of the clock. -/
def Coordinator.renew (c : Coordinator) (fence : Int64) (now : Int) : Request :=
  .renew c.identity fence (Time.unixMilli (now + c.lease))

/-- `attr < :v` for a number: false of a missing attribute and of another type. -/
def numLess : Option AttributeValue → Int64 → Bool
  | some (.n q), v => decide (q < (v.toInt : ℚ))
  | _, _ => false

/-- The condition of `acquire`: `attribute_not_exists(pk) OR attribute_not_exists(expiresAtMs) OR
expiresAtMs < :now OR holder = :me`. -/
def acquirable (me : String) (now : Int64) : Option LockItem → Bool
  | none => true
  | some item => item.expiresAtMs.isNone || numLess item.expiresAtMs now
      || item.holder == some (sstr me)

/-- `ADD fence :one`: a missing attribute counts from 0, another type is an error. -/
def addOne : Option AttributeValue → Option ℚ
  | none => some 1
  | some (.n q) => some (q + 1)
  | some (.s _) | some .other => none

/-- The condition of `renew`: `holder = :me AND fence = :fence`. -/
def renewable (me : String) (fence : Int64) : Option LockItem → Bool
  | none => false
  | some item => item.holder == some (sstr me) && item.fence == some (nstr fence)

/-- A committed request: an acquire with the fence it produced, or a renew. -/
inductive Event
  | acquired (call : Nat) (fence : ℚ)
  | renewed (call : Nat) (fence : Int64)
deriving DecidableEq

/-- Carrying out the request of a call on the lock item: what is stored then, and the event. -/
def apply (call : Nat) (req : Request) (item : Option LockItem) : Option (LockItem × Event) :=
  match req with
  | .acquire me now exp =>
    if acquirable me now item then
      (addOne (item.bind LockItem.fence)).map fun q =>
        (⟨some (sstr me), some (nstr exp), some (.n q)⟩, .acquired call q)
    else none
  | .renew me fence exp =>
    match item with
    | none => none
    | some i =>
      if renewable me fence (some i) then
        some ({ i with expiresAtMs := some (nstr exp) }, .renewed call fence)
      else none

/-- How far a call is, and what it returned. -/
inductive Call
  | idle
  | acquiring (c : Coordinator)
  /-- `acquire` returned this fence. -/
  | acquired (c : Coordinator) (fence : Int64)
  | renewing (c : Coordinator) (fence : Int64)
  /-- `renew` returned true. -/
  | renewed (c : Coordinator) (fence : Int64)
  /-- Any other return: the lock is somebody else's, or an error. -/
  | failed
deriving DecidableEq

/-- The lock item, the calls, the requests between them, and what was committed, newest first. -/
structure System where
  item : Option LockItem
  calls : Nat → Call
  sent : List (Nat × Request)
  log : List Event

/-- A lock nobody has asked for yet. -/
def System.fresh (item : Option LockItem) : System := ⟨item, fun _ => .idle, [], []⟩

/-- One step of one party. -/
inductive Step : System → System → Prop
  | acquire {s} (n : Nat) (c : Coordinator) (now : Int) (hidle : s.calls n = .idle) :
      Step s { s with
        calls := Function.update s.calls n (.acquiring c)
        sent := (n, c.acquire now) :: s.sent }
  /-- A leader renews with the fence its own acquire returned. -/
  | renew {s} (n m : Nat) (c : Coordinator) (fence : Int64) (now : Int)
      (hidle : s.calls n = .idle) (hleader : s.calls m = .acquired c fence) :
      Step s { s with
        calls := Function.update s.calls n (.renewing c fence)
        sent := (n, c.renew fence now) :: s.sent }
  | land {s} (n : Nat) (req : Request) (item : LockItem) (e : Event) (hsent : (n, req) ∈ s.sent)
      (happly : apply n req s.item = some (item, e)) :
      Step s { s with item := some item, log := e :: s.log }
  | elected {s} (n : Nat) (c : Coordinator) (q : ℚ) (fence : Int64)
      (hcall : s.calls n = .acquiring c) (hlanded : .acquired n q ∈ s.log)
      (hfence : numAttr (some (.n q)) = some fence) :
      Step s { s with calls := Function.update s.calls n (.acquired c fence) }
  | extended {s} (n : Nat) (c : Coordinator) (fence : Int64)
      (hcall : s.calls n = .renewing c fence) (hlanded : .renewed n fence ∈ s.log) :
      Step s { s with calls := Function.update s.calls n (.renewed c fence) }
  | fails {s} (n : Nat)
      (hcall : (∃ c, s.calls n = .acquiring c) ∨ ∃ c fence, s.calls n = .renewing c fence) :
      Step s { s with calls := Function.update s.calls n .failed }

/-- Any number of steps of any parties. -/
def Run : System → System → Prop := Relation.ReflTransGen Step

end Lease

/-! ### The fleet -/

namespace DynamoDB

/-- The checkpoint store and its writers. -/
abbrev System : Type :=
  Lib.Optimistic.System (CheckpointKey × Watermark) String (Option Item) PutItem SaveError

/-- A step of the store in which saves only begin with an epoch in `E`. -/
def StepWith (keyspace : String) (E : Int64 → Prop) (s t : System) : Prop :=
  Lib.Optimistic.Step (client keyspace) applies s t ∧
    ∀ c arg, s.calls c = .idle → t.calls c = .reading arg 0 → E arg.2.epoch

end DynamoDB

/-- The lock and the checkpoint store of one deployment. -/
structure Fleet where
  lease : Lease.System
  store : DynamoDB.System

/-- The fences acquires have returned. -/
def Lease.System.Elected (s : Lease.System) (fence : Int64) : Prop :=
  ∃ n c, s.calls n = .acquired c fence

/-- One step of a fleet: of the lock, or of the store by leaders who save under their fence. -/
inductive Fleet.Step (keyspace : String) : Fleet → Fleet → Prop
  | lease {s} (t : Lease.System) (h : Lease.Step s.lease t) : Step keyspace s { s with lease := t }
  | store {s} (t : DynamoDB.System) (h : DynamoDB.StepWith keyspace s.lease.Elected s.store t) :
      Step keyspace s { s with store := t }

/-- Any number of steps of a fleet. -/
def Fleet.Run (keyspace : String) : Fleet → Fleet → Prop :=
  Relation.ReflTransGen (Fleet.Step keyspace)

/-- A fleet that has done nothing yet. -/
def Fleet.fresh (item : Option Lease.LockItem) (contents : String → Option DynamoDB.Item) : Fleet :=
  ⟨.fresh item, .fresh contents⟩

end GenaiBridge
