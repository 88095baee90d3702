/-
What the emitter reads from the body of a successful response.

A 2xx answer may say in its body, a protobuf message, that a part of the batch was
rejected.  `doOnce` reads at most 4096 bytes of it, `decodePartialSuccess` looks for the
count, and `post` hands it to `OnPartialReject`.  The functions of `protowire` are
parameters.  A function that does not return, because it slices past the end of its input
or goes on without end, is `none`.
-/
import GenaiBridge.Bridge.Time

namespace GenaiBridge

/-- The functions of `protowire` that are called.  Each returns what it read and how many bytes of
its input that took; `none` stands for a negative length. -/
structure Protowire where
  consumeTag : List UInt8 → Option ((Nat × Nat) × Nat)
  consumeVarint : List UInt8 → Option (Nat × Nat)
  consumeBytes : List UInt8 → Option (List UInt8 × Nat)
  consumeFieldValue : Nat → Nat → List UInt8 → Option (Unit × Nat)

namespace Protowire

/-- `protowire.VarintType`. -/
def varintType : Nat := 0

/-- `protowire.BytesType`. -/
def bytesType : Nat := 2

variable (wire : Protowire)

/-- `b[n:]`. -/
def slice (b : List UInt8) (n : Nat) : Option (List UInt8) :=
  if n ≤ b.length then some (b.drop n) else none

/-- The loop of `fieldBytes`. -/
def fieldBytesLoop (num : Nat) : Nat → Option (List UInt8) → List UInt8 →
    Option (Option (List UInt8))
  | 0, _, _ => none
  | fuel + 1, out, b =>
    if b = [] then some out
    else
      match wire.consumeTag b with
      | none => some out
      | some ((n, typ), tl) => do
          let b ← slice b tl
          if n = num ∧ typ = bytesType then
            match wire.consumeBytes b with
            | none => some out
            | some (v, vl) => do
                let b ← slice b vl
                fieldBytesLoop num fuel (some v) b
          else
            match wire.consumeFieldValue n typ b with
            | none => some out
            | some (_, vl) => do
                let b ← slice b vl
                fieldBytesLoop num fuel out b

/-- `fieldBytes`. -/
def fieldBytes (fuel : Nat) (b : List UInt8) (num : Nat) : Option (Option (List UInt8)) :=
  wire.fieldBytesLoop num fuel none b

/-- The loop of `decodePartialSuccess`. -/
def partialSuccessLoop : Nat → Int × List UInt8 → List UInt8 → Option (Int × List UInt8)
  | 0, _, _ => none
  | fuel + 1, (rejected, msg), sub =>
    if sub = [] then some (rejected, msg)
    else
      match wire.consumeTag sub with
      | none => some (0, [])
      | some ((num, typ), tl) => do
          let sub ← slice sub tl
          if num = 1 ∧ typ = varintType then
            match wire.consumeVarint sub with
            | none => some (0, [])
            | some (v, vl) => do
                let sub ← slice sub vl
                partialSuccessLoop fuel (wrap64 v, msg) sub
          else if num = 2 ∧ typ = bytesType then
            match wire.consumeBytes sub with
            | none => some (0, [])
            | some (b, vl) => do
                let sub ← slice sub vl
                partialSuccessLoop fuel (rejected, b) sub
          else
            match wire.consumeFieldValue num typ sub with
            | none => some (0, [])
            | some (_, vl) => do
                let sub ← slice sub vl
                partialSuccessLoop fuel (rejected, msg) sub

/-- `decodePartialSuccess`: the count and the message. -/
def decodePartialSuccess (fuel : Nat) (body : List UInt8) : Option (Int × List UInt8) := do
  match ← wire.fieldBytes fuel body 1 with
  | none => some (0, [])
  | some sub => wire.partialSuccessLoop fuel (0, []) sub

end Protowire

/-- What `doOnce` reads of a body. -/
def readBody (body : List UInt8) : List UInt8 := body.take 4096

/-- A call of `OnPartialReject`. -/
structure PartialReject where
  plane : String
  count : Int
  message : List UInt8
deriving DecidableEq, Repr

/-- The call of `OnPartialReject` in `post`, if there is one, after an answer with a body.  The hook
may be missing; `redact` is `redactSecrets` on the bytes of a message. -/
def reportPartialReject (wire : Protowire) (redact : List UInt8 → List UInt8) (hooked logs : Bool)
    (fuel : Nat) (status : Int) (body : List UInt8) : Option (Option PartialReject) :=
  if 200 ≤ status ∧ status < 300 ∧ hooked then do
    let (n, msg) ← wire.decodePartialSuccess fuel (readBody body)
    if 0 < n then some (some ⟨if logs then "logs" else "metrics", n, redact msg⟩) else some none
  else some none

end GenaiBridge
