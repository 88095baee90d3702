/-
A page, downloaded call by call.

`stepDownloading` keeps two offsets into the object, one in lines and one in bytes, and
hands both to the next call; the server decides which of them is used.  A run of calls
keeps both at the end of the same line (`Resumed`), so a chunk is the same whichever
way it was resumed — with one exception: a body that is cut before the lines consumed
so far are skipped.  An object within the byte cap is never cut, and is read exactly
once (`page_read_once`); of a larger one the exception ends the page too early
(`page_ends_early`), and without it no page does (`page_eof_complete`).
-/
import GenaiBridge.Proofs.Download

namespace GenaiBridge

open Lib (ReadErr rawLines content)

/-- A page as the calls so far have left it: the offsets of the cursor, what became of the lines and
the records returned for them, how far into the object the calls have come, whether one reported the
end, and the errors. -/
structure Page where
  pageOffsetDone : Int
  pageByteOffset : Int
  outcomes : List LineOutcome
  recs : List LogRecord
  reached : Int
  eof : Bool
  errors : List DownloadError
deriving DecidableEq

/-- A page of which nothing was downloaded. -/
def Page.start : Page :=
  { pageOffsetDone := 0, pageByteOffset := 0, outcomes := [], recs := [], reached := 0
    eof := false, errors := [] }

namespace Downloader

/-- What a server that has the object may send for a request from `byteOffset` on: the whole object,
or the rest of it as a verifiable range. -/
inductive Answers (sent : List UInt8 → Body → Prop) (object : List UInt8) (byteOffset : Int) :
    Response → Prop
  | whole (contentRange : String) (body : Body) (delivers : sent object body) :
      Answers sent object byteOffset (.answered 200 contentRange body)
  | tail (contentRange : String) (body : Body) (resumed : 0 < byteOffset)
      (range : contentRangeStart contentRange = some byteOffset)
      (delivers : sent (object.drop byteOffset.toNat) body) :
      Answers sent object byteOffset (.answered 206 contentRange body)

variable {R : Type} (d : Downloader R) (max fallbackTS : Int)

/-- One call of `downloadChunk` for the page, with the offsets that `stepDownloading` keeps.  A call
that fails leaves them as they are. -/
def call (p : Page) (resp : Response) : Page :=
  match d.downloadChunk resp p.pageOffsetDone p.pageByteOffset max fallbackTS with
  | .error e => { p with errors := p.errors ++ [e] }
  | .ok chunk =>
    { p with
      pageOffsetDone := p.pageOffsetDone + chunk.linesRead
      pageByteOffset := chunk.nextByteOffset
      outcomes := p.outcomes ++ chunk.outcomes
      recs := p.recs ++ chunk.recs
      reached := Max.max p.reached chunk.nextByteOffset
      eof := chunk.eof }

/-- The page after `n` calls, the `i`-th of which is answered by `serve i`; after the call that
reports the end there are no more. -/
def page (serve : Nat → Int → Response) : Nat → Page
  | 0 => .start
  | n + 1 =>
    let p := page serve n
    if p.eof then p else d.call max fallbackTS p (serve n p.pageByteOffset)

/-- The body is the object, and ends. -/
def Delivers (object : List UInt8) (body : Body) : Prop :=
  body.segments.flatten = object ∧ body.ending = .eof

theorem Delivers.serves {object : List UInt8} {body : Body} (h : Delivers object body) :
    Serves object body :=
  ⟨h.1 ▸ List.prefix_refl _, fun _ => h.1⟩

/-- The answer is the whole object, and before the cut there are fewer than `k` lines of it. -/
def CutShort (object : List UInt8) (k : Int) : Response → Prop
  | .answered status _ _ =>
    status = 200 ∧ ((rawLines newline (object.take (d.maxBytes + 1).toNat)).length : Int) < k
  | .failed _ => False

instance (object : List UInt8) (k : Int) : (resp : Response) → Decidable (d.CutShort object k resp)
  | .answered .. => inferInstanceAs (Decidable (_ ∧ _))
  | .failed _ => inferInstanceAs (Decidable False)

/-- What has to become of a line: one over the cap and one that does not parse are reported, any
other is a record. -/
inductive Accounted (fallbackTS : Int) (raw : List UInt8) : LineOutcome → Prop
  | oversize (long : d.lineCap < (content newline raw).length) : Accounted fallbackTS raw .oversize
  | malformed (fits : (content newline raw).length ≤ d.lineCap)
      (unparsed : d.policy.unmarshal (content newline raw) = none) :
      Accounted fallbackTS raw .malformed
  | record (fits : (content newline raw).length ≤ d.lineCap) {r : R}
      (parsed : d.policy.unmarshal (content newline raw) = some r) (traceIDUnparsed : Bool) :
      Accounted fallbackTS raw (.record (d.policy.strip r fallbackTS) traceIDUnparsed)

/-- The record of a line, if it is within the cap and parses. -/
def recordOf (fallbackTS : Int) (raw : List UInt8) : Option LogRecord :=
  if (content newline raw).length ≤ d.lineCap then
    (d.policy.unmarshal (content newline raw)).map fun r => d.policy.strip r fallbackTS
  else none

theorem accounted_lineOutcome (raw : List UInt8) :
    d.Accounted fallbackTS raw (d.lineOutcome fallbackTS raw) := by
  unfold lineOutcome outcome
  by_cases hlong : d.lineCap < (content newline raw).length
  · rw [if_pos (decide_eq_true hlong)]
    exact .oversize hlong
  · rw [if_neg (by simpa using hlong)]
    cases hparse : d.policy.unmarshal (content newline raw) with
    | none => exact .malformed (not_lt.mp hlong) hparse
    | some r => exact .record (not_lt.mp hlong) hparse _

theorem recs_lineOutcomes (raws : List (List UInt8)) (linesRead nextByteOffset : Int) (eof : Bool) :
    Chunk.recs ⟨raws.map (d.lineOutcome fallbackTS), linesRead, nextByteOffset, eof⟩ =
      raws.filterMap (d.recordOf fallbackTS) := by
  unfold Chunk.recs
  rw [List.filterMap_map]
  refine List.filterMap_congr fun raw _ => ?_
  unfold recordOf
  rw [Function.comp_apply]
  generalize hout : d.lineOutcome fallbackTS raw = out
  cases hout ▸ d.accounted_lineOutcome fallbackTS raw with
  | oversize hlong => simp [not_le.mpr hlong]
  | malformed hfits hparse => simp [hfits, hparse]
  | record hfits hparse _ => simp [hfits, hparse]

/-! ### One call -/

/-- Both offsets are at the end of the `k`-th line of the object. -/
structure Resumed (object : List UInt8) (p : Page) (k : Nat) : Prop where
  le : k ≤ (rawLines newline object).length
  pageOffsetDone : p.pageOffsetDone = k
  pageByteOffset : p.pageByteOffset = (((rawLines newline object).take k).flatten.length : Nat)
  outcomes : p.outcomes = ((rawLines newline object).take k).map (d.lineOutcome fallbackTS)
  recs : p.recs = ((rawLines newline object).take k).filterMap (d.recordOf fallbackTS)
  reached : p.reached = p.pageByteOffset

theorem resumed_start (object : List UInt8) : d.Resumed fallbackTS object .start 0 :=
  ⟨by simp, rfl, by simp [Page.start], by simp [Page.start], by simp [Page.start], rfl⟩

variable {d max fallbackTS} {object : List UInt8} {p : Page} {k : Nat} {resp : Response}

/-- **What a chunk is**, whichever way it was resumed. -/
private theorem downloadChunk_lines (hcap : d.maxBytes < maxInt64)
    (hp : d.Resumed fallbackTS object p k) (hresp : Answers Serves object p.pageByteOffset resp)
    {chunk : Chunk}
    (h : d.downloadChunk resp p.pageOffsetDone p.pageByteOffset max fallbackTS = .ok chunk) :
    let lines := rawLines newline object
    (d.CutShort object k resp ∧
      chunk = ⟨[], k, ((object.take (d.maxBytes + 1).toNat).length : Nat), true⟩) ∨
    ∃ j, k + j ≤ lines.length ∧ j ≤ max.toNat ∧
      chunk = ⟨((lines.drop k).take j).map (d.lineOutcome fallbackTS), j,
        ((lines.take (k + j)).flatten.length : Nat), j < max⟩ ∧
      (j < max.toNat → k + j = lines.length) := by
  intro lines
  rw [hp.pageOffsetDone] at h
  cases hresp with
  | whole contentRange body delivers =>
    rw [downloadChunk, if_pos rfl] at h
    rcases readChunk_lines hcap delivers h with ⟨hfew, hchunk⟩ | ⟨j, hj, hmax, hchunk, hlast⟩
    · exact Or.inl ⟨⟨rfl, by simpa using hfew⟩, by simpa using hchunk⟩
    · exact Or.inr ⟨j, by simpa using hj, hmax, by simpa using hchunk, by simpa using hlast⟩
  | tail contentRange body resumed range delivers =>
    rw [downloadChunk, if_neg (by decide), if_pos rfl, if_pos ⟨resumed, range⟩] at h
    have hdrop : rawLines newline (object.drop p.pageByteOffset.toNat) = lines.drop k := by
      rw [hp.pageByteOffset, Int.toNat_natCast, Lib.rawLines_drop]
    have hflat : ∀ j, (lines.take (k + j)).flatten.length =
        (lines.take k).flatten.length + ((lines.drop k).take j).flatten.length := by
      intro j
      rw [List.take_add, List.flatten_append, List.length_append]
    rcases readChunk_lines hcap delivers h with ⟨hfew, -⟩ | ⟨j, hj, hmax, hchunk, hlast⟩
    · omega
    · have hle : k ≤ lines.length := hp.le
      rw [hdrop, List.length_drop] at hj hlast
      rw [hdrop, hp.pageByteOffset] at hchunk
      refine Or.inr ⟨j, by omega, hmax, ?_, fun hlt => ?_⟩
      · rw [hchunk, hflat]
        simp [lines]
      · have := hlast hlt
        omega

theorem call_of_ok {chunk : Chunk}
    (h : d.downloadChunk resp p.pageOffsetDone p.pageByteOffset max fallbackTS = .ok chunk) :
    d.call max fallbackTS p resp =
      { p with
        pageOffsetDone := p.pageOffsetDone + chunk.linesRead
        pageByteOffset := chunk.nextByteOffset
        outcomes := p.outcomes ++ chunk.outcomes
        recs := p.recs ++ chunk.recs
        reached := Max.max p.reached chunk.nextByteOffset
        eof := chunk.eof } := by
  simp only [call, h]

/-- What a call does: nothing but record its error; end the page at a cut; or consume lines, at most
`max` of them, and report the end of the page if there are fewer. -/
private theorem call_cases (max : Int) (hcap : d.maxBytes < maxInt64) (hp : d.Resumed fallbackTS object p k)
    (hresp : Answers Serves object p.pageByteOffset resp) :
    (∃ e, d.downloadChunk resp p.pageOffsetDone p.pageByteOffset max fallbackTS = .error e ∧
      d.call max fallbackTS p resp = { p with errors := p.errors ++ [e] }) ∨
    (d.CutShort object k resp ∧ (d.call max fallbackTS p resp).eof = true ∧
      (d.call max fallbackTS p resp).outcomes = p.outcomes ∧
      (d.call max fallbackTS p resp).reached =
        Max.max p.reached ((object.take (d.maxBytes + 1).toNat).length : Nat)) ∨
    ∃ j ≤ max.toNat, d.Resumed fallbackTS object (d.call max fallbackTS p resp) (k + j) ∧
      (d.call max fallbackTS p resp).eof = decide (j < max) ∧
      (d.call max fallbackTS p resp).errors = p.errors ∧
      (j < max.toNat → k + j = (rawLines newline object).length) := by
  cases hchunk : d.downloadChunk resp p.pageOffsetDone p.pageByteOffset max fallbackTS with
  | error e => exact Or.inl ⟨e, rfl, by simp only [call, hchunk]⟩
  | ok chunk =>
    rcases downloadChunk_lines hcap hp hresp hchunk with ⟨hcut, rfl⟩ | ⟨j, hj, hmax, rfl, hlast⟩
    · rw [call_of_ok hchunk]
      exact Or.inr (Or.inl ⟨hcut, by simp⟩)
    · rw [call_of_ok hchunk]
      refine Or.inr (Or.inr ⟨j, hmax, ⟨hj, ?_, rfl, ?_, ?_, max_eq_right ?_⟩, rfl, rfl, hlast⟩)
      · simp [hp.pageOffsetDone]
      · simp [hp.outcomes, List.take_add]
      · dsimp only
        rw [hp.recs, recs_lineOutcomes, List.take_add, List.filterMap_append]
      · dsimp only
        rw [hp.reached, hp.pageByteOffset, List.take_add, List.flatten_append, List.length_append]
        omega

private theorem downloadChunk_succeeds (hcap : d.maxBytes < maxInt64)
    (hsize : (object.length : Int) ≤ d.maxBytes) {byteOffset : Int}
    (hresp : Answers Delivers object byteOffset resp) (skip : Int) :
    ∃ chunk, d.downloadChunk resp skip byteOffset max fallbackTS = .ok chunk := by
  cases hresp with
  | whole contentRange body delivers =>
    rw [downloadChunk, if_pos rfl]
    exact readChunk_succeeds hcap delivers.2 (delivers.1 ▸ hsize) ..
  | tail contentRange body resumed range delivers =>
    rw [downloadChunk, if_neg (by decide), if_pos rfl, if_pos ⟨resumed, range⟩]
    refine readChunk_succeeds hcap delivers.2 ?_ ..
    rw [delivers.1, List.length_drop]
    omega

private theorem serves_of_delivers {byteOffset : Int}
    (h : Answers Delivers object byteOffset resp) : Answers Serves object byteOffset resp := by
  cases h with
  | whole contentRange body delivers => exact .whole _ _ delivers.serves
  | tail contentRange body resumed range delivers => exact .tail _ _ resumed range delivers.serves

/-! ### All calls -/

variable {serve : Nat → Int → Response}

private theorem not_cutShort (hsize : (object.length : Int) ≤ d.maxBytes)
    (hp : d.Resumed fallbackTS object p k) : ¬d.CutShort object k resp := by
  have hle := hp.le
  cases resp with
  | failed err => exact id
  | answered status contentRange body =>
    rintro ⟨-, hfew⟩
    rw [List.take_of_length_le (by omega)] at hfew
    omega

/-- As long as no call has reported the end, each has consumed `max` lines; one does once there are
fewer. -/
theorem page_progress (hcap : d.maxBytes < maxInt64)
    (hsize : (object.length : Int) ≤ d.maxBytes)
    (n : Nat)
    (hserve : ∀ i < n, let byteOffset := (d.page max fallbackTS serve i).pageByteOffset
      Answers Delivers object byteOffset (serve i byteOffset)) :
    let p := d.page max fallbackTS serve n
    p.errors = [] ∧
    ((p.eof = true ∧ d.Resumed fallbackTS object p (rawLines newline object).length ∧
        (rawLines newline object).length < n * max.toNat) ∨
      (p.eof = false ∧ d.Resumed fallbackTS object p (n * max.toNat))) := by
  induction n with
  | zero => exact ⟨rfl, Or.inr ⟨rfl, (Nat.zero_mul max.toNat).symm ▸ d.resumed_start fallbackTS object⟩⟩
  | succ n ih =>
    intro p
    obtain ⟨herrors, hstate⟩ := ih fun i hi => hserve i (Nat.lt_succ_of_lt hi)
    have hresp := hserve n n.lt_succ_self
    have hmul : (n + 1) * max.toNat = n * max.toNat + max.toNat := Nat.succ_mul ..
    rcases hstate with ⟨heof, hp, hfew⟩ | ⟨heof, hp⟩
    · rw [show p = d.page max fallbackTS serve n from if_pos heof]
      exact ⟨herrors, Or.inl ⟨heof, hp, by omega⟩⟩
    · generalize hq : d.page max fallbackTS serve n = q at herrors heof hp hresp
      have hpq : p = d.call max fallbackTS q (serve n q.pageByteOffset) := by
        show d.page max fallbackTS serve (n + 1) = _
        rw [page, hq, heof]
        rfl
      rw [hpq]
      rcases call_cases max hcap hp (serves_of_delivers hresp) with ⟨e, herr, -⟩ | ⟨hcut, -⟩ |
        ⟨j, hj, hnext, hend, herrors', hlast⟩
      · obtain ⟨chunk, hok⟩ := downloadChunk_succeeds hcap hsize hresp q.pageOffsetDone
        rw [herr] at hok
        cases hok
      · exact absurd hcut (not_cutShort hsize hp)
      · refine ⟨herrors'.trans herrors, ?_⟩
        rcases hj.lt_or_eq with hlt | rfl
        · have hall := hlast hlt
          exact Or.inl ⟨by rw [hend, decide_eq_true_iff]; omega, hall ▸ hnext, by omega⟩
        · exact Or.inr ⟨by rw [hend, decide_eq_false_iff_not]; omega, hmul ▸ hnext⟩

private theorem Resumed.eq_length (hp : d.Resumed fallbackTS object p k)
    (hall : object.length ≤ p.reached) : k = (rawLines newline object).length := by
  rw [hp.reached, hp.pageByteOffset] at hall
  by_contra hne
  have := Lib.flatten_take_lt (lt_of_le_of_ne hp.le hne)
  omega

private theorem Resumed.complete (hp : d.Resumed fallbackTS object p k)
    (hk : k = (rawLines newline object).length) :
    p.reached = object.length ∧
      p.outcomes = (rawLines newline object).map (d.lineOutcome fallbackTS) := by
  subst hk
  constructor
  · rw [hp.reached, hp.pageByteOffset, List.take_length, Lib.flatten_rawLines]
  · rw [hp.outcomes, List.take_length]

/-- **A page is read exactly once.**  Of an object within the byte cap, whatever the server chooses
for each request and however the bodies arrive, the calls come to the end of the page without an
error, and have consumed its lines one after the other: those over the cap and those that do not
parse are reported, and the records are those of the others. -/
theorem page_read_once (hcap : d.maxBytes < maxInt64) (hsize : (object.length : Int) ≤ d.maxBytes)
    (hmax : 1 ≤ max)
    (hserve : ∀ i byteOffset, Answers Delivers object byteOffset (serve i byteOffset)) :
    ∃ n, let p := d.page max fallbackTS serve n
      p.eof = true ∧ p.errors = [] ∧
      List.Forall₂ (d.Accounted fallbackTS) (rawLines newline object) p.outcomes ∧
      p.recs = (rawLines newline object).filterMap (d.recordOf fallbackTS) ∧
      p.reached = object.length := by
  -- after as many calls as there are lines, and one more
  refine ⟨(rawLines newline object).length + 1, ?_⟩
  intro p
  obtain ⟨herrors, hstate⟩ := page_progress hcap hsize
    ((rawLines newline object).length + 1) fun i _ => hserve i _
  rcases hstate with ⟨heof, hp, -⟩ | ⟨-, hp⟩
  · obtain ⟨hreached, houtcomes⟩ := hp.complete rfl
    refine ⟨heof, herrors, ?_, ?_, hreached⟩
    · rw [houtcomes, List.forall₂_map_right_iff]
      exact List.forall₂_same.mpr fun raw _ => d.accounted_lineOutcome fallbackTS raw
    · rw [hp.recs, List.take_length]
  · have hle := hp.le
    have : (rawLines newline object).length + 1 ≤
        ((rawLines newline object).length + 1) * max.toNat :=
      Nat.le_mul_of_pos_right _ (by omega)
    omega

/-- A body that arrives byte by byte. -/
def bytewise (bytes : List UInt8) : Body :=
  { segments := bytes.map fun b => [b]
    nonempty := by simp
    ending := .eof
    endsWithLast := false }

theorem delivers_bytewise (bytes : List UInt8) : Delivers bytes (bytewise bytes) :=
  ⟨by induction bytes <;> simp_all [bytewise], rfl⟩

/-- A loop that takes every line for a record. -/
def echo (downloadMaxBytes maxLineBytes : Int) : Downloader (List UInt8) :=
  { downloadMaxBytes, maxLineBytes
    policy :=
      { unmarshal := some
        strip := fun _ ts => ⟨ts, "", "", .empty, .empty, []⟩
        traceIDAttrKey := "" } }

/-- Four lines. -/
def fourLines : List UInt8 := [97, 10, 98, 10, 99, 10, 100, 10]

/-- A server that has the four lines and honours some ranges. -/
def honouring (ranges : List Int) (byteOffset : Int) : Response :=
  if byteOffset ∈ ranges then
    .answered 206 ("bytes " ++ toString byteOffset ++ "-7/8")
      (bytewise (fourLines.drop byteOffset.toNat))
  else .answered 200 "" (bytewise fourLines)

private theorem answers_honouring {ranges : List Int}
    (hranges : ∀ o ∈ ranges, o = 2 ∨ o = 4 ∨ o = 6) (byteOffset : Int) :
    Answers Delivers fourLines byteOffset (honouring ranges byteOffset) := by
  unfold honouring
  split_ifs with hmem
  · refine .tail _ _ ?_ ?_ (delivers_bytewise _)
    · rcases hranges byteOffset hmem with rfl | rfl | rfl <;> decide
    · rcases hranges byteOffset hmem with rfl | rfl | rfl <;> decide +kernel
  · exact .whole _ _ (delivers_bytewise _)

/-- A loop with a line cap of two bytes, for which a line is its record unless it is `!`. -/
def choosy : Downloader (List UInt8) :=
  { downloadMaxBytes := 16, maxLineBytes := 2
    policy :=
      { unmarshal := fun line => if line = [33] then none else some line
        strip := fun line ts =>
          ⟨ts, String.ofList (line.map fun b => Char.ofNat b.toNat), "", .empty, .empty, []⟩
        traceIDAttrKey := "" } }

/-- The lines `a`, `bbb`, `!` and, without a newline, `c`. -/
def mixedLines : List UInt8 := [97, 10, 98, 98, 98, 10, 33, 10, 99]

/-- A server that has them and honours one range. -/
def serveMixed (byteOffset : Int) : Response :=
  if byteOffset = 6 then .answered 206 "bytes 6-8/9" (bytewise (mixedLines.drop 6))
  else .answered 200 "" (bytewise mixedLines)

private theorem answers_serveMixed (byteOffset : Int) :
    Answers Delivers mixedLines byteOffset (serveMixed byteOffset) := by
  unfold serveMixed
  split_ifs with hrange
  · subst hrange
    exact .tail _ _ (by decide) (by decide +kernel) (delivers_bytewise _)
  · exact .whole _ _ (delivers_bytewise _)

/-- Two by two, the second two by a range: of the four lines one is too long and one does not
parse. -/
theorem page_read_once_mixedLines :
    ∃ n, let p := choosy.page 2 0 (fun _ => serveMixed) n
      p.eof = true ∧ p.errors = [] ∧
      List.Forall₂ (choosy.Accounted 0) [[97, 10], [98, 98, 98, 10], [33, 10], [99]] p.outcomes ∧
      p.recs.map LogRecord.body = ["a", "c"] ∧ p.reached = 9 := by
  obtain ⟨n, heof, herrors, houtcomes, hrecs, hreached⟩ :=
    @page_read_once _ choosy 2 0 mixedLines (fun _ => serveMixed) (by decide) (by decide)
      (by decide) fun _ => answers_serveMixed
  refine ⟨n, heof, herrors, houtcomes, ?_, hreached⟩
  rw [hrecs]
  decide +kernel

/-- The page is still open, at the end of some line, or at its end with all of it consumed. -/
def OpenOrComplete (d : Downloader R) (fallbackTS : Int) (object : List UInt8) (p : Page) : Prop :=
  p.eof = false ∧ (∃ k, d.Resumed fallbackTS object p k) ∨
  p.eof = true ∧ p.reached = object.length ∧
    p.outcomes = (rawLines newline object).map (d.lineOutcome fallbackTS)

/-- The step: an answer that is not cut before the lines consumed so far keeps it so. -/
private theorem openOrComplete_call (max : Int) (hcap : d.maxBytes < maxInt64)
    (hopen : p.eof = false) (hp : d.Resumed fallbackTS object p k)
    (hresp : Answers Serves object p.pageByteOffset resp)
    (hcut : p.reached < object.length → ¬d.CutShort object p.pageOffsetDone resp) :
    d.OpenOrComplete fallbackTS object (d.call max fallbackTS p resp) := by
  rcases call_cases max hcap hp hresp with ⟨e, -, heq⟩ | ⟨hshort, heof, houtcomes, hreached⟩ |
    ⟨j, hj, hnext, heof, -, hlast⟩
  · rw [heq]
    exact Or.inl ⟨hopen, k, ⟨hp.le, hp.pageOffsetDone, hp.pageByteOffset, hp.outcomes, hp.recs,
      hp.reached⟩⟩
  · -- the loop over the lines consumed came to the cut: only if nothing is left to be consumed
    have hall : (object.length : Int) ≤ p.reached := by
      by_contra hlt
      exact hcut (by omega) (hp.pageOffsetDone ▸ hshort)
    obtain ⟨hreached', houtcomes'⟩ := hp.complete (hp.eq_length hall)
    have htake : (object.take (d.maxBytes + 1).toNat).length ≤ object.length :=
      List.length_take_le' _ _
    refine Or.inr ⟨heof, ?_, houtcomes.trans houtcomes'⟩
    rw [hreached, hreached']
    omega
  · rcases hj.lt_or_eq with hlt | rfl
    · exact Or.inr ⟨by rw [heof, decide_eq_true_iff]; omega, hnext.complete (hlast hlt)⟩
    · exact Or.inl ⟨by rw [heof, decide_eq_false_iff_not]; omega, _, hnext⟩

/-- **No page ends early**, if no answer that carries the whole object is cut before the lines
consumed so far — unless these are all of them — and the cap is small enough for `maxBytes+1` not to
wrap. -/
theorem page_eof_complete (hcap : d.maxBytes < maxInt64)
    (hserve : ∀ i byteOffset, Answers Serves object byteOffset (serve i byteOffset))
    (hcut : ∀ i, let p := d.page max fallbackTS serve i
      p.eof = false → p.reached < object.length →
        ¬d.CutShort object p.pageOffsetDone (serve i p.pageByteOffset))
    (n : Nat) (heof : (d.page max fallbackTS serve n).eof = true) :
    (d.page max fallbackTS serve n).reached = object.length ∧
    (d.page max fallbackTS serve n).outcomes =
      (rawLines newline object).map (d.lineOutcome fallbackTS) := by
  have hstate : d.OpenOrComplete fallbackTS object (d.page max fallbackTS serve n) := by
    clear heof
    induction n with
    | zero => exact Or.inl ⟨rfl, 0, d.resumed_start fallbackTS object⟩
    | succ n ih =>
      rw [page]
      rcases ih with ⟨hopen, k, hp⟩ | hall
      · rw [hopen]
        exact openOrComplete_call max hcap hopen hp (hserve _ _) (hcut n hopen)
      · rw [hall.1]
        exact Or.inr hall
  rcases hstate with ⟨hopen, -⟩ | ⟨-, hall⟩
  · rw [heof] at hopen
    cases hopen
  · exact hall

private theorem page_of_eof {n : Nat} (h : (d.page max fallbackTS serve n).eof = true) (i : Nat) :
    (d.page max fallbackTS serve (n + i)).eof = true := by
  induction i with
  | zero => exact h
  | succ i ih => rwa [← Nat.add_assoc, page, if_pos ih]

/-- An object larger than the cap, all of it by ranges. -/
theorem page_eof_complete_fourLines :
    ((echo 3 1).page 1 0 (fun _ => honouring [2, 4, 6]) 5).eof = true ∧
    ((echo 3 1).page 1 0 (fun _ => honouring [2, 4, 6]) 5).reached = fourLines.length ∧
    ((echo 3 1).page 1 0 (fun _ => honouring [2, 4, 6]) 5).outcomes =
      (rawLines newline fourLines).map ((echo 3 1).lineOutcome 0) := by
  have heof : ((echo 3 1).page 1 0 (fun _ => honouring [2, 4, 6]) 5).eof = true := by
    decide +kernel
  refine ⟨heof, page_eof_complete (by decide)
    (fun _ byteOffset => serves_of_delivers (answers_honouring (by decide) byteOffset))
    (fun i => ?_) 5 heof⟩
  rcases Nat.lt_or_ge i 5 with hi | hi
  · revert i
    decide +kernel
  · obtain ⟨i, rfl⟩ := Nat.exists_eq_add_of_le hi
    intro p hopen
    rw [page_of_eof heof i] at hopen
    cases hopen

/-- **A page ends early.**  Of four lines and with a cap of three bytes, the first three are consumed
one by one, two of them by ranges; then the whole object is sent, which is cut behind its second
line, and the page ends without an error and without the fourth line. -/
theorem page_ends_early :
    (∀ byteOffset, Answers Serves fourLines byteOffset (honouring [2, 4] byteOffset)) ∧
    let p := (echo 3 1).page 1 0 (fun _ => honouring [2, 4]) 4
    p.eof = true ∧ p.errors = [] ∧ p.outcomes.length = 3 ∧ p.reached < fourLines.length :=
  ⟨fun byteOffset => serves_of_delivers (answers_honouring (by decide) byteOffset),
    by decide +kernel⟩

end Downloader

end GenaiBridge
