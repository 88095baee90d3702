/-
Downloading an exported page, a chunk of lines at a time.

The object is read through a limited, counting, buffered reader; `readLine` takes one
line from it, draining a line that is too long.  `downloadChunk` resumes a page at a
line offset and a byte offset: by a range request if the server honours it, else by
skipping lines of the whole body.  What `json.Unmarshal` and the field policy make of
a line is given by `LinePolicy`; per line consumed, `downloadChunk` returns what
became of it.
-/
import GenaiBridge.Bridge.Model
import GenaiBridge.Lib.BufferedReader
import GenaiBridge.Lib.Decimal

namespace GenaiBridge

open Lib (ReadErr Source Reader)

/-- `defaultDownloadMaxBytes`. -/
def defaultDownloadMaxBytes : Int := 512 * 2 ^ 20

/-- `maxLogLineBytes`. -/
def maxLogLineBytes : Int := 2 ^ 20

/-- `lineReadBufBytes`. -/
def lineReadBufBytes : Nat := 64 * 2 ^ 10

/-- `'\n'`. -/
def newline : UInt8 := 10

/-! ### One line -/

/-- What `readLine` returns. -/
structure LineRead where
  line : List UInt8
  tooLong : Bool
  consumed : Nat
  err : Option ReadErr
deriving DecidableEq

/-- The loop of `readLine`, with what it has of the line so far. -/
def readLineFrom (limit : Int) (buf : List UInt8) (total : Nat) (tooLong : Bool) (consumed : Nat)
    (r : Reader UInt8) : LineRead × Reader UInt8 :=
  let out := r.readSlice lineReadBufBytes newline
  let frag := out.1
  let consumed := consumed + frag.length
  let chunk := if out.2.1 = none ∧ frag.getLast? = some newline then frag.dropLast else frag
  let total := total + chunk.length
  let tooLong := tooLong || decide (limit < total)
  let buf := if tooLong then [] else buf ++ chunk
  match _h : out.2.1 with
  | some .bufferFull => readLineFrom limit buf total tooLong consumed out.2.2
  | none => (⟨buf, tooLong, consumed, none⟩, out.2.2)
  | some (.read .eof) =>
    if total = 0 then (⟨[], false, consumed, some .eof⟩, out.2.2)
    else (⟨buf, tooLong, consumed, none⟩, out.2.2)
  | some (.read e) => (⟨[], false, consumed, some e⟩, out.2.2)
termination_by r.size
decreasing_by exact Lib.Reader.size_readSlice_lt (by decide) ‹_›

/-- `readLine`. -/
def readLine (limit : Int) (r : Reader UInt8) : LineRead × Reader UInt8 :=
  readLineFrom limit [] 0 false 0 r

/-! ### One chunk -/

/-- What `json.Unmarshal` and the field policy make of a line. -/
structure LinePolicy (R : Type) where
  unmarshal : List UInt8 → Option R
  strip : R → Int → LogRecord
  traceIDAttrKey : String

/-- What became of a line: the hook that was fired, or the record it was turned into. -/
inductive LineOutcome
  | oversize
  | malformed
  | record (rec : LogRecord) (traceIDUnparsed : Bool)
deriving DecidableEq

/-- What of `logsExportLoop` a download uses. -/
structure Downloader (R : Type) where
  downloadMaxBytes : Int
  maxLineBytes : Int
  policy : LinePolicy R

/-- The body of a response, as it arrives. -/
structure Body where
  segments : List (List UInt8)
  nonempty : ∀ s ∈ segments, s ≠ []
  ending : ReadErr
  endsWithLast : Bool

/-- What a request for the object comes back with. -/
inductive Response
  | failed (err : String)
  | answered (status : Nat) (contentRange : String) (body : Body)

/-- An error of `downloadChunk`. -/
inductive DownloadError
  /-- `signed-url download: %w`. -/
  | transport (err : String)
  /-- `signed-url returned 206 with unexpected Content-Range`. -/
  | unexpectedRange (contentRange : String) (wanted : Int)
  /-- `signed-url download status %d`. -/
  | status (code : Nat)
  /-- `stream signed-url body: %w`. -/
  | stream (err : String)
  /-- `signed-url object exceeds %d bytes (truncated)`. -/
  | truncated (maxBytes : Int)
deriving DecidableEq, Repr

/-- What `downloadChunk` returns without an error. -/
structure Chunk where
  outcomes : List LineOutcome
  linesRead : Int
  nextByteOffset : Int
  eof : Bool
deriving DecidableEq

/-- The records of a chunk. -/
def Chunk.recs (c : Chunk) : List LogRecord :=
  c.outcomes.filterMap fun
    | .record rec _ => some rec
    | _ => none

/-- `contentRangeStart`. -/
def contentRangeStart (h : String) : Option Int :=
  match (trimSpace h).toList with
  | 'b' :: 'y' :: 't' :: 'e' :: 's' :: ' ' :: rest =>
    let start := rest.takeWhile (· ≠ '-')
    if start.length = rest.length ∨ start = [] then none
    else (Lib.readInt (trimSpace (String.ofList start)).toList).filter fun n =>
      0 ≤ n ∧ n ≤ maxInt64
  | _ => none

namespace Downloader

variable {R : Type}

/-- The byte cap in force. -/
def maxBytes (d : Downloader R) : Int :=
  if d.downloadMaxBytes ≤ 0 then defaultDownloadMaxBytes else d.downloadMaxBytes

/-- The line cap in force. -/
def lineCap (d : Downloader R) : Int :=
  if d.maxLineBytes ≤ 0 then maxLogLineBytes else d.maxLineBytes

/-- `bufio.NewReaderSize` over the counting reader over the first `maxBytes+1` bytes of the body. -/
def newReader (d : Downloader R) (body : Body) : Reader UInt8 :=
  { buf := [], err := none
    src :=
      { segments := body.segments
        nonempty := body.nonempty
        ending := body.ending
        endsWithLast := body.endsWithLast
        limit := wrap64 (d.maxBytes + 1)
        count := 0 } }

/-- What becomes of a line of the object. -/
def outcome (d : Downloader R) (fallbackTS : Int) (line : List UInt8) (tooLong : Bool) :
    LineOutcome :=
  if tooLong then .oversize
  else match d.policy.unmarshal line with
    | none => .malformed
    | some raw =>
      let rec' := d.policy.strip raw fallbackTS
      let f := d.policy.traceIDAttrKey
      .record rec' (f ≠ "" ∧ rec'.traceID = [] ∧ (rec'.recordAttributes.get? f).getD "" ≠ "")

/-- The loop over the lines consumed before: the bytes consumed, and the error that ended it. -/
def skipLines (d : Downloader R) : Nat → Reader UInt8 → Nat → Nat × Option ReadErr × Reader UInt8
  | 0, r, consumed => (consumed, none, r)
  | n + 1, r, consumed =>
    let out := readLine d.lineCap r
    match out.1.err with
    | some e => (consumed + out.1.consumed, some e, out.2)
    | none => d.skipLines n out.2 (consumed + out.1.consumed)

/-- The loop over the lines of the chunk: what became of them, the bytes consumed, and a fault. -/
def chunkLines (d : Downloader R) (fallbackTS : Int) :
    Nat → Reader UInt8 → Nat → List LineOutcome × Nat × Option String × Reader UInt8
  | 0, r, consumed => ([], consumed, none, r)
  | n + 1, r, consumed =>
    let out := readLine d.lineCap r
    match out.1.err with
    | some .eof => ([], consumed, none, out.2)
    | some (.fault err) => ([], consumed, some err, out.2)
    | none =>
      let (outcomes, consumed', err, r') :=
        d.chunkLines fallbackTS n out.2 (consumed + out.1.consumed)
      (d.outcome fallbackTS out.1.line out.1.tooLong :: outcomes, consumed', err, r')

/-- `downloadChunk` once the body is known to start at `base`. -/
def readChunk (d : Downloader R) (body : Body) (skip base : Int) (skipLines : Nat) (max : Int)
    (fallbackTS : Int) : Except DownloadError Chunk :=
  match d.skipLines skipLines (d.newReader body) 0 with
  | (consumed, some .eof, _) =>
    -- fewer lines than the saved offset
    .ok { outcomes := [], linesRead := skip, nextByteOffset := base + consumed, eof := true }
  | (_, some (.fault err), _) => .error (.stream err)
  | (consumed, none, r) =>
    match d.chunkLines fallbackTS max.toNat r consumed with
    | (_, _, some err, _) => .error (.stream err)
    | (outcomes, consumed, none, r) =>
      if d.maxBytes < r.src.count then .error (.truncated d.maxBytes)
      else .ok
        { outcomes, linesRead := outcomes.length, nextByteOffset := base + consumed
          eof := outcomes.length < max }

/-- `downloadChunk`. -/
def downloadChunk (d : Downloader R) (resp : Response) (skip byteOffset max fallbackTS : Int) :
    Except DownloadError Chunk :=
  match resp with
  | .failed err => .error (.transport err)
  | .answered status contentRange body =>
    if status = 200 then d.readChunk body skip 0 skip.toNat max fallbackTS
    else if status = 206 then
      if 0 < byteOffset ∧ contentRangeStart contentRange = some byteOffset then
        -- the body starts at `byteOffset`, so there are no lines to skip
        d.readChunk body skip byteOffset 0 max fallbackTS
      else .error (.unexpectedRange contentRange byteOffset)
    else .error (.status status)

end Downloader

end GenaiBridge
