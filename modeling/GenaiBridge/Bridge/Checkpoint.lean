/-
The checkpoint stores: the write fence, the ConfigMap store, the DynamoDB store.

Both stores save a watermark by a loop of get, check and conditional write; the body
of the loop between the get and the write is a function from what was read to the
request or a refusal.  The loop around it (its attempts, what it answers to the
errors of the API) is the client of `Lib.Optimistic`.
-/
import GenaiBridge.Bridge.Model
import GenaiBridge.Lib.Json
import GenaiBridge.Lib.Optimistic
import GenaiBridge.Lib.Rfc3339
import Mathlib.Data.Rat.Defs

namespace GenaiBridge

open Lib (Json)

/-! ### The fence -/

/-- The errors of a `Save`, each with what its message is made of. -/
inductive SaveError
  /-- `ErrUnencodable`. -/
  | unencodable (time year : Int)
  /-- `ErrStaleWrite`, for one of its three reasons. -/
  | staleEpoch (epoch stored : Int64)
  | staleTime (time stored : Int)
  | staleCursor (time stored : Int)
  | get (cause : String)
  /-- Present but unreadable, hence not overwritten. -/
  | corrupt (key : CheckpointKey)
  | encode (key : CheckpointKey)
  | tooLarge (size cap : Nat)
  | write (cause : String)
  | exhausted (attempts : Nat) (key : CheckpointKey)
deriving DecidableEq

/-- `CheckEncodable`. -/
def checkEncodable (w : Watermark) : Except SaveError Unit :=
  let y := Lib.Rfc3339.year w.time
  if y < 1 ∨ 9999 < y then .error (.unencodable w.time y) else .ok ()

/-- `CheckEncodable` of a time in a location `offset` seconds east of UTC, where `Year` is the year on
the clock there. -/
def checkEncodableIn (offset : Int) (w : Watermark) : Except SaveError Unit :=
  let y := Lib.Rfc3339.year (w.time + offset * second)
  if y < 1 ∨ 9999 < y then .error (.unencodable w.time y) else .ok ()

/-- `CheckMonotonic`. -/
def checkMonotonic (stored incoming : Watermark) : Except SaveError Unit :=
  if incoming.epoch < stored.epoch then .error (.staleEpoch incoming.epoch stored.epoch)
  else if incoming.time < stored.time then .error (.staleTime incoming.time stored.time)
  else if incoming.time = stored.time ∧ incoming.cursor = stored.cursor then
    .error (.staleCursor incoming.time stored.time)
  else .ok ()

/-- What a store holds under one key: the zero watermark if nothing, `none` if it is unreadable. -/
def loadEntry {ρ : Type} (decode : ρ → Option Watermark) : Option ρ → Option Watermark
  | none => some {}
  | some raw => decode raw

/-- The refusal of a watermark before the loop of `Save`. -/
def refusesSave (w : Watermark) : Option SaveError :=
  match checkEncodable w with
  | .error e => some e
  | .ok () => none

/-- `retries` of both stores. -/
def saveRetries : Nat := 5

/-! ### The ConfigMap store -/

namespace ConfigMap

/-- `maxConfigMapBytes`. -/
def maxConfigMapBytes : Nat := 900 * 1024

/-- The object the store lives in.  A resource version is a number that grows with every write. -/
structure Object where
  resourceVersion : Nat
  data : Lib.SortedMap String String

/-- The bytes `dataKey` leaves as they are. -/
def keyChar (c : Char) : Bool :=
  ('a' ≤ c ∧ c ≤ 'z') ∨ ('A' ≤ c ∧ c ≤ 'Z') ∨ ('0' ≤ c ∧ c ≤ '9') ∨ c = '-' ∨ c = '_' ∨ c = '.'

/-- `dataKey`, over the hexadecimal digest of a text. -/
def dataKey (sha256 : String → String) (k : CheckpointKey) : String :=
  -- a character outside ASCII is several bytes, each of which becomes an underscore
  let readable := k.string.toList.flatMap fun c =>
    if keyChar c then [c] else List.replicate c.utf8Size '_'
  String.ofList (readable.take 200) ++ "." ++ String.ofList ((sha256 k.string).toList.take 12)

/-- `dataBytes`. -/
def dataBytes (d : Lib.SortedMap String String) : Nat :=
  (d.entries.map fun e => e.1.utf8ByteSize + e.2.utf8ByteSize).sum

/-- `json.Unmarshal` into a `time.Time`, which reads the literal as it stands. -/
def readTime : Json → Option Int
  | .str literal => Lib.Rfc3339.parse literal
  | _ => none

/-- `json.Unmarshal` into a `record`. -/
def decodeRecord (raw : String) : Option Watermark := do
  let ms ← (← Json.parse raw.toList).members
  let time ← Json.field readTime "time".toList 0 ms
  let cursor ← Json.field Json.readText "cursor".toList [] ms
  let epoch ← Json.field (Json.readInteger minInt64 maxInt64) "epoch".toList 0 ms
  return { time := time, cursor := String.ofList cursor, epoch := Int64.ofInt epoch }

/-- `json.Marshal` of a `record`; a year the layout cannot write is an error. -/
def encodeRecord (w : Watermark) : Option String :=
  let y := Lib.Rfc3339.year w.time
  if y < 0 ∨ 9999 < y then none
  else some (String.ofList (Json.encode [
    ("time".toList, .text (Lib.Rfc3339.formatNano w.time)),
    ("cursor".toList, .text w.cursor.toList),
    ("epoch".toList, .int w.epoch.toInt)]))

/-- The write request: `Create`, or `Update` under the resource version that was read. -/
inductive Request
  | create (data : Lib.SortedMap String String)
  | update (resourceVersion : Nat) (data : Lib.SortedMap String String)

/-- Which request writes the data, given what was read. -/
def request (cm : Option Object) (data : Lib.SortedMap String String) : Request :=
  match cm with
  | none => .create data
  | some o => .update o.resourceVersion data

/-- What is stored under a data key. -/
def entry (cm : Option Object) (k : String) : Option String := cm.bind fun o => o.data.get? k

/-- `Load`, after the get. -/
def load (sha256 : String → String) (cm : Option Object) (key : CheckpointKey) : Option Watermark :=
  loadEntry decodeRecord (entry cm (dataKey sha256 key))

/-- The body of the loop of `Save`, between the get and the write. -/
def prepare (sha256 : String → String) (arg : CheckpointKey × Watermark) (cm : Option Object) :
    Except SaveError Request :=
  let (key, w) := arg
  match load sha256 cm key with
  | none => .error (.corrupt key)
  | some stored =>
    match checkMonotonic stored w with
    | .error e => .error e
    | .ok () =>
      match encodeRecord w with
      | none => .error (.encode key)
      | some enc =>
        let data := ((cm.map Object.data).getD .empty).insert (dataKey sha256 key) enc
        if maxConfigMapBytes < dataBytes data then
          .error (.tooLarge (dataBytes data) maxConfigMapBytes)
        else .ok (request cm data)

/-- The API server: a create needs no object, an update the version it names. -/
def applies : Request → Option Object → Option Object → Prop
  | .create data, none, some o => o.data = data
  | .update rv data, some o, some o' =>
    o.resourceVersion = rv ∧ o.resourceVersion < o'.resourceVersion ∧ o'.data = data
  | _, _, _ => False

/-- `Save`. -/
def client (sha256 : String → String) :
    Lib.Optimistic.Client (CheckpointKey × Watermark) Unit (Option Object) Request SaveError where
  loc _ := ()
  refuses arg := refusesSave arg.2
  prepare := prepare sha256
  retries := saveRetries
  readFailed _ cause := .get cause
  writeFailed _ cause := .write cause
  exhausted arg := .exhausted (saveRetries + 1) arg.1

end ConfigMap

/-! ### The DynamoDB store -/

namespace DynamoDB

/-- An attribute value: a string, a number, or one of the other types. -/
inductive AttributeValue
  | s (value : String)
  | n (value : ℚ)
  | other
deriving DecidableEq

/-- `nstr`. -/
def nstr (n : Int64) : AttributeValue := .n n.toInt

/-- `sstr`. -/
def sstr (v : String) : AttributeValue := .s v

/-- `strconv.ParseInt` of a number attribute: the integers of 64 bits. -/
def parseInt (q : ℚ) : Option Int64 :=
  if q.den = 1 ∧ minInt64 ≤ q.num ∧ q.num ≤ maxInt64 then some (Int64.ofInt q.num) else none

/-- `numAttr`. -/
def numAttr : Option AttributeValue → Option Int64
  | some (.n q) => parseInt q
  | _ => none

/-- `strAttr`. -/
def strAttr : Option AttributeValue → Option String
  | some (.s v) => some v
  | _ => none

/-- The attributes of a checkpoint item, besides the partition key it is found under. -/
structure Item where
  time : Option AttributeValue
  cursor : Option AttributeValue
  epoch : Option AttributeValue
  version : Option AttributeValue
deriving DecidableEq

/-- `encode`. -/
def encode (w : Watermark) (version : Int64) : Item where
  time := some (sstr (String.ofList (Lib.Rfc3339.formatNano w.time)))
  cursor := some (sstr w.cursor)
  epoch := some (nstr w.epoch)
  version := some (nstr version)

/-- The version of an item: a missing one reads as 0, one of another type is corruption. -/
def versionAttr : Option AttributeValue → Option Int64
  | none => some 0
  | some raw => numAttr (some raw)

/-- `decode`; every failure is a refusal. -/
def decode (item : Item) : Option (Watermark × Int64) := do
  let ts ← strAttr item.time
  let tm ← Lib.Rfc3339.parse ts.toList
  let ep ← numAttr item.epoch
  let ver ← versionAttr item.version
  return ({ time := tm, cursor := (strAttr item.cursor).getD "", epoch := ep }, ver)

/-- `pk`. -/
def pk (keyspace : String) (key : CheckpointKey) : String := keyspace ++ key.string

/-- The `ConditionExpression` of a put. -/
inductive Condition
  /-- `attribute_not_exists(pk)` -/
  | pkNotExists
  /-- `version = :v` -/
  | versionIs (v : AttributeValue)
  /-- `attribute_not_exists(version)` -/
  | versionNotExists
deriving DecidableEq

/-- `PutItemInput`. -/
structure PutItem where
  item : Item
  condition : Condition
deriving DecidableEq

/-- The version attribute of an item, if there are both. -/
def versionOf (cur : Option Item) : Option AttributeValue := cur.bind Item.version

/-- Whether a condition holds of what is stored under the partition key. -/
def Condition.holds : Condition → Option Item → Bool
  | .pkNotExists, cur => cur.isNone
  | .versionIs v, cur => versionOf cur == some v
  | .versionNotExists, cur => (versionOf cur).isNone

/-- `Load`, after the get. -/
def load (cur : Option Item) : Option Watermark := loadEntry (fun i => (decode i).map Prod.fst) cur

/-- What `Save` takes from a get: the watermark, its version, and the condition of the put. -/
def readItem (key : CheckpointKey) :
    Option Item → Except SaveError (Watermark × Int64 × Condition)
  | none => .ok ({}, 0, .pkNotExists)
  | some item =>
    match decode item with
    | none => .error (.corrupt key)
    | some (stored, version) =>
      .ok (stored, version,
        if item.version.isSome then .versionIs (nstr version) else .versionNotExists)

/-- The body of the loop of `Save`, between the get and the put. -/
def prepare (arg : CheckpointKey × Watermark) (cur : Option Item) : Except SaveError PutItem :=
  let (key, w) := arg
  match readItem key cur with
  | .error e => .error e
  | .ok (stored, version, condition) =>
    match checkMonotonic stored w with
    | .error e => .error e
    | .ok () => .ok { item := encode w (version + 1), condition := condition }

/-- DynamoDB: the put replaces the whole item if its condition holds. -/
def applies (put : PutItem) (cur new : Option Item) : Prop :=
  put.condition.holds cur = true ∧ new = some put.item

/-- `Save`. -/
def client (keyspace : String) :
    Lib.Optimistic.Client (CheckpointKey × Watermark) String (Option Item) PutItem SaveError where
  loc arg := pk keyspace arg.1
  refuses arg := refusesSave arg.2
  prepare := prepare
  retries := saveRetries
  readFailed _ cause := .get cause
  writeFailed _ cause := .write cause
  exhausted arg := .exhausted (saveRetries + 1) arg.1

@[simp] theorem client_loc (keyspace : String) (arg : CheckpointKey × Watermark) :
    (client keyspace).loc arg = pk keyspace arg.1 := rfl

@[simp] theorem client_refuses (keyspace : String) (arg : CheckpointKey × Watermark) :
    (client keyspace).refuses arg = refusesSave arg.2 := rfl

@[simp] theorem client_prepare (keyspace : String) : (client keyspace).prepare = prepare := rfl

end DynamoDB

end GenaiBridge
