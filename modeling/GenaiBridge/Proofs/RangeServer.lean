/-
Downloading a page from a server that answers ranges by RFC 7233.

Such a server has nothing to send from the end of an object on, and answers a request
from there with 416.  `stepDownloading` makes that request whenever the lines of the
object fill its chunks exactly, because only a chunk with fewer lines ends a page; and
it takes the answer for an error.  Iterating `stepDownloading` is followed by the calls
of `Proofs/Page.lean`, so the page is done exactly if the last chunk is not full
(`downloading_finishes`).
-/
import GenaiBridge.Lib.Words
import GenaiBridge.Proofs.Cursor
import GenaiBridge.Proofs.Page

namespace GenaiBridge

open Lib (rawLines)

/-! ### The header -/

theorem trimSpace_ofList {l : List Char} (hhead : ∀ c, l.head? = some c → isSpace c = false)
    (hlast : ∀ c, l.getLast? = some c → isSpace c = false) :
    trimSpace (String.ofList l) = String.ofList l := by
  show String.ofList (Lib.trim isSpace (String.ofList l).toList) = _
  rw [String.toList_ofList, Lib.trim_eq_self hhead hlast]

private theorem isSpace_of_isDigit {c : Char} (h : c.isDigit = true) : isSpace c = false := by
  have hrange : 48 ≤ c.toNat ∧ c.toNat ≤ 57 := by
    simp only [Char.isDigit, Bool.and_eq_true, decide_eq_true_eq, ge_iff_le] at h
    exact ⟨h.1, h.2⟩
  unfold isSpace
  simp only [decide_eq_false_iff_not]
  omega

/-- The `Content-Range` of an object of `length` bytes from `byteOffset` on. -/
def contentRange (byteOffset length : Nat) : String :=
  String.ofList ("bytes ".toList ++ (Nat.toDigits 10 byteOffset ++
    '-' :: (Nat.toDigits 10 (length - 1) ++ '/' :: Nat.toDigits 10 length)))

private theorem isSpace_toDigits {n : Nat} {c : Char} (h : c ∈ Nat.toDigits 10 n) :
    isSpace c = false :=
  isSpace_of_isDigit (Lib.isDigit_of_mem_toDigits h)

theorem contentRangeStart_contentRange {byteOffset length : Nat}
    (h : (byteOffset : Int) ≤ maxInt64) :
    contentRangeStart (contentRange byteOffset length) = some byteOffset := by
  have htrim : trimSpace (contentRange byteOffset length) = contentRange byteOffset length := by
    refine trimSpace_ofList (fun c hc => ?_) (fun c hc => ?_)
    · rw [show "bytes ".toList = ['b', 'y', 't', 'e', 's', ' '] from rfl] at hc
      obtain rfl := Option.some.inj hc
      decide
    · have hlast : c ∈ Nat.toDigits 10 length := by
        rw [List.getLast?_append_of_ne_nil _ (by simp), List.getLast?_append_of_ne_nil _ (by simp),
          List.getLast?_cons_of_ne_nil (by simp), List.getLast?_append_of_ne_nil _ (by simp),
          List.getLast?_cons_of_ne_nil Nat.toDigits_ne_nil] at hc
        exact List.mem_of_getLast? hc
      exact isSpace_toDigits hlast
  have htake : ∀ rest, (Nat.toDigits 10 byteOffset ++ '-' :: rest).takeWhile (· ≠ '-') =
      Nat.toDigits 10 byteOffset := by
    intro rest
    rw [List.takeWhile_append_of_pos]
    · simp
    · intro c hc
      have := Lib.isDigit_of_mem_toDigits hc
      simp only [ne_eq, decide_not, Bool.not_eq_eq_eq_not, Bool.not_true, decide_eq_false_iff_not]
      rintro rfl
      exact absurd this (by decide)
  have htrim' : trimSpace (String.ofList (Nat.toDigits 10 byteOffset)) =
      String.ofList (Nat.toDigits 10 byteOffset) :=
    trimSpace_ofList (fun c hc => isSpace_toDigits (List.mem_of_head? hc))
      (fun c hc => isSpace_toDigits (List.mem_of_getLast? hc))
  have hread : Lib.readInt (Nat.toDigits 10 byteOffset) = some byteOffset :=
    Lib.readInt_decimal byteOffset
  unfold contentRangeStart
  rw [htrim]
  unfold contentRange
  rw [String.toList_ofList, show "bytes ".toList = ['b', 'y', 't', 'e', 's', ' '] from rfl]
  have htake := htake (Nat.toDigits 10 (length - 1) ++ '/' :: Nat.toDigits 10 length)
  generalize hrest : Nat.toDigits 10 byteOffset ++
    '-' :: (Nat.toDigits 10 (length - 1) ++ '/' :: Nat.toDigits 10 length) = rest at htake
  show (if (rest.takeWhile (· ≠ '-')).length = rest.length ∨ rest.takeWhile (· ≠ '-') = [] then none
    else (Lib.readInt (trimSpace (String.ofList (rest.takeWhile (· ≠ '-')))).toList).filter fun n =>
      0 ≤ n ∧ n ≤ maxInt64) = _
  rw [htake, if_neg, htrim', String.toList_ofList, hread]
  · simp [h]
  · simp [← hrest]

/-! ### The server and the loop -/

/-- What a server that follows RFC 7233 sends for a request from `byteOffset` on; one that is not
positive is a request without a range. -/
inductive RangeAnswer (object : List UInt8) (byteOffset : Int) : Response → Prop
  | whole (contentRange : String) (body : Body) (noRange : byteOffset ≤ 0)
      (delivers : Downloader.Delivers object body) :
      RangeAnswer object byteOffset (.answered 200 contentRange body)
  | tail (body : Body) (ranged : 0 < byteOffset) (inside : byteOffset < object.length)
      (delivers : Downloader.Delivers (object.drop byteOffset.toNat) body) :
      RangeAnswer object byteOffset
        (.answered 206 (contentRange byteOffset.toNat object.length) body)
  | unsatisfiable (contentRange : String) (body : Body) (ranged : 0 < byteOffset)
      (beyond : object.length ≤ byteOffset) :
      RangeAnswer object byteOffset (.answered 416 contentRange body)

private theorem RangeAnswer.answers {object : List UInt8} {byteOffset : Int} {resp : Response}
    (h : RangeAnswer object byteOffset resp) (hfits : (object.length : Int) ≤ maxInt64)
    (hinside : byteOffset < object.length ∨ byteOffset = 0) :
    Downloader.Answers Downloader.Delivers object byteOffset resp := by
  cases h with
  | whole contentRange body noRange delivers => exact .whole _ _ delivers
  | tail body ranged inside delivers =>
    refine .tail _ _ ranged ?_ delivers
    rw [contentRangeStart_contentRange (by omega)]
    exact congrArg some (by omega)
  | unsatisfiable contentRange body ranged beyond => omega

namespace LogsExportLoop

variable {R : Type} (l : LogsExportLoop R)

/-- The job is there, and its object is behind a URL the loop accepts. -/
structure Serving (object : List UInt8) (jobID : String) (env : ExportEnv) (url : String) :
    Prop where
  downloadURL : env.downloadURL jobID = .ok url
  nonempty : url ≠ ""
  allowed : l.validateSignedURLHost env.casing (env.parseURL url) = .ok ()
  ranges : ∀ byteOffset, RangeAnswer object byteOffset (env.get url byteOffset)

/-- `stepDownloading`, again and again, as long as the cursor is in that phase. -/
def downloading (env : Nat → ExportEnv) (since : Watermark) : Nat → Except ExportError Watermark
  | 0 => .ok since
  | n + 1 =>
    match downloading env since n with
    | .error e => .error e
    | .ok w =>
      let cur := decodeCursor w.cursor
      if cur.phase = .downloading then (l.stepDownloading (env n) w cur).result.map Prod.snd
      else .ok w

/-- The download never fails, and leaves its phase. -/
def Finishes (env : Nat → ExportEnv) (since : Watermark) : Prop :=
  (∀ n, ∃ w, l.downloading env since n = .ok w) ∧
    ∃ n w, l.downloading env since n = .ok w ∧ (decodeCursor w.cursor).phase ≠ .downloading

/-! ### The loop follows the calls -/

/-- The cursor of a page, at the offsets the calls have come to. -/
private def cursorAt (cur : ExportCursor) (p : Page) : ExportCursor :=
  { cur with pageOffsetDone := p.pageOffsetDone, pageByteOffset := p.pageByteOffset }

private theorem cursorAt_start {cur : ExportCursor} (hoffset : cur.pageOffsetDone = 0)
    (hbytes : cur.pageByteOffset = 0) : cursorAt cur .start = cur := by
  cases cur
  simp_all [cursorAt, Page.start]

variable {l} {object : List UInt8} {cur : ExportCursor} {winMin winMax : Int}

private theorem stepDownloading_result {env : ExportEnv} {url : String}
    (hbounds : cur.windowBounds = some (winMin, winMax))
    (henv : l.Serving object cur.jobID env url) (since : Watermark) :
    (l.stepDownloading env since cur).result.map Prod.snd =
      match l.downloader.downloadChunk (env.get url cur.pageByteOffset) cur.pageOffsetDone
        cur.pageByteOffset l.chunkMaxRecords winMax with
      | .error err => .error (.download err)
      | .ok chunk => .ok (match chunkedCursor cur chunk with
          | some cur => advanceCursor since.time cur
          | none => { time := winMax }) := by
  unfold stepDownloading
  simp only [hbounds, henv.downloadURL, henv.allowed, if_neg henv.nonempty]
  generalize l.downloader.downloadChunk (env.get url cur.pageByteOffset) cur.pageOffsetDone
    cur.pageByteOffset l.chunkMaxRecords winMax = answer
  cases answer with
  | error err => rfl
  | ok chunk =>
    dsimp only
    cases chunkedCursor cur chunk <;> rfl

private theorem downloading_of_left {env : Nat → ExportEnv} {since w : Watermark} {n : Nat}
    (h : l.downloading env since n = .ok w) (hleft : (decodeCursor w.cursor).phase ≠ .downloading)
    (i : Nat) : l.downloading env since (n + i) = .ok w := by
  induction i with
  | zero => exact h
  | succ i ih =>
    rw [← Nat.add_assoc, downloading, ih]
    exact if_neg hleft

private theorem downloading_of_le {env : Nat → ExportEnv} {since w : Watermark} {n i : Nat}
    (h : l.downloading env since (n + i) = .ok w) : ∃ w', l.downloading env since n = .ok w' := by
  induction i generalizing w with
  | zero => exact ⟨w, h⟩
  | succ i ih =>
    rw [← Nat.add_assoc, downloading] at h
    cases hprev : l.downloading env since (n + i) with
    | error e => simp [hprev] at h
    | ok w' => exact ih hprev

private theorem finishes_iff {env : Nat → ExportEnv} {since : Watermark} :
    l.Finishes env since ↔
      ∃ n w, l.downloading env since n = .ok w ∧ (decodeCursor w.cursor).phase ≠ .downloading := by
  refine ⟨fun h => h.2, fun ⟨n, w, hok, hleft⟩ => ⟨fun i => ?_, n, w, hok, hleft⟩⟩
  rcases Nat.le_total n i with hle | hle
  · obtain ⟨k, rfl⟩ := Nat.exists_eq_add_of_le hle
    exact ⟨w, downloading_of_left hok hleft k⟩
  · obtain ⟨k, rfl⟩ := Nat.exists_eq_add_of_le hle
    exact downloading_of_le hok

private theorem phase_of_eof (t : Int) {c : ExportCursor} (hc : c.WellFormed) {chunk : Chunk}
    (heof : chunk.eof = true) :
    (decodeCursor (match chunkedCursor c chunk with
      | some cur => advanceCursor t cur
      | none => ({ time := winMax } : Watermark)).cursor).phase ≠ .downloading := by
  rcases chunkedCursor_cases c chunk with ⟨hnot, -⟩ | ⟨-, -, heq⟩ | ⟨-, -, heq⟩
  · simp [heof] at hnot
  · rw [heq]
    show (decodeCursor (ExportCursor.encode _)).phase ≠ .downloading
    rw [decodeCursor_encode (chunkedCursor_wellFormed hc heq)]
    simp
  · rw [heq]
    show (decodeCursor "").phase ≠ .downloading
    decide

/-- What a page is downloaded from, and the cursor the download starts with. -/
structure Downloads (l : LogsExportLoop R) (object : List UInt8) (cur : ExportCursor)
    (env : Nat → ExportEnv) (url : Nat → String) : Prop where
  cap : l.downloader.maxBytes < maxInt64
  size : (object.length : Int) ≤ l.downloader.maxBytes
  chunk : 1 ≤ l.chunkMaxRecords
  wellFormed : cur.WellFormed
  phase : cur.phase = .downloading
  pageOffsetDone : cur.pageOffsetDone = 0
  pageByteOffset : cur.pageByteOffset = 0
  serving : ∀ i, l.Serving object cur.jobID (env i) (url i)

section

variable {env : Nat → ExportEnv} {url : Nat → String} (h : Downloads l object cur env url)
  (hbounds : cur.windowBounds = some (winMin, winMax)) (t : Int)

include h

/-- The calls the steps make. -/
private abbrev pageOf (l : LogsExportLoop R) (env : Nat → ExportEnv) (url : Nat → String)
    (winMax : Int) (n : Nat) : Page :=
  l.downloader.page l.chunkMaxRecords winMax (fun i off => (env i).get (url i) off) n

private theorem pageOf_open (winMax : Int) {n : Nat}
    (hn : n * l.chunkMaxRecords.toNat ≤ (rawLines newline object).length) :
    (∀ i < n, Downloader.Answers Downloader.Delivers object (pageOf l env url winMax i).pageByteOffset
      ((env i).get (url i) (pageOf l env url winMax i).pageByteOffset)) ∧
    (pageOf l env url winMax n).eof = false ∧
    l.downloader.Resumed winMax object (pageOf l env url winMax n)
      (n * l.chunkMaxRecords.toNat) := by
  have hchunk := h.chunk
  have hcap := h.cap
  have hsize := h.size
  induction n with
  | zero =>
    exact ⟨by simp, rfl, (Nat.zero_mul l.chunkMaxRecords.toNat).symm ▸
      l.downloader.resumed_start winMax object⟩
  | succ n ih =>
    have hmul : (n + 1) * l.chunkMaxRecords.toNat =
      n * l.chunkMaxRecords.toNat + l.chunkMaxRecords.toNat := Nat.succ_mul ..
    obtain ⟨hanswers, -, hp⟩ := ih (by omega)
    have hanswers : ∀ i < n + 1, Downloader.Answers Downloader.Delivers object
        (pageOf l env url winMax i).pageByteOffset
        ((env i).get (url i) (pageOf l env url winMax i).pageByteOffset) := by
      intro i hi
      rcases Nat.lt_succ_iff_lt_or_eq.mp hi with hi | rfl
      · exact hanswers i hi
      · refine ((h.serving i).ranges _).answers (by omega) (Or.inl ?_)
        have hlt := Lib.flatten_take_lt (show i * l.chunkMaxRecords.toNat <
          (rawLines newline object).length by omega)
        rw [hp.pageByteOffset]
        omega
    refine ⟨hanswers, ?_⟩
    obtain ⟨-, hstate⟩ := Downloader.page_progress hcap hsize (n + 1) hanswers
    rcases hstate with ⟨-, -, hfew⟩ | hopen
    · omega
    · exact hopen

private theorem inInt64_offsets {p : Page} {k : Nat}
    (hp : l.downloader.Resumed winMax object p k) :
    InInt64 p.pageOffsetDone ∧ InInt64 p.pageByteOffset := by
  have hcap := h.cap
  have hsize := h.size
  have hlines := @Lib.length_rawLines_le _ _ newline object
  have hle := hp.le
  have hbytes : ((rawLines newline object).take k).flatten.length ≤ object.length := by
    conv_rhs => rw [← @Lib.flatten_rawLines _ _ newline object,
      ← List.take_append_drop k (rawLines newline object), List.flatten_append]
    rw [List.length_append]
    omega
  rw [hp.pageOffsetDone, hp.pageByteOffset]
  unfold InInt64 minInt64
  omega

private theorem cursorAt_wellFormed {p : Page} {k : Nat}
    (hp : l.downloader.Resumed winMax object p k) : (cursorAt cur p).WellFormed := by
  obtain ⟨hoffset, hbytes⟩ := inInt64_offsets h hp
  have hwf := h.wellFormed
  exact ⟨hwf.phase, hwf.named, hwf.page, hwf.pages, hwf.totalRecords, hoffset, hbytes⟩

include hbounds in
private theorem downloading_succ {n k : Nat}
    (hp : l.downloader.Resumed winMax object (pageOf l env url winMax n) k) {w : Watermark}
    (hw : l.downloading env { time := t, cursor := cur.encode } n = .ok w)
    (hcur : w = advanceCursor t (cursorAt cur (pageOf l env url winMax n))) :
    l.downloading env { time := t, cursor := cur.encode } (n + 1) =
      match l.downloader.downloadChunk
        ((env n).get (url n) (pageOf l env url winMax n).pageByteOffset)
        (pageOf l env url winMax n).pageOffsetDone (pageOf l env url winMax n).pageByteOffset
        l.chunkMaxRecords winMax with
      | .error err => .error (.download err)
      | .ok chunk => .ok (match chunkedCursor (cursorAt cur (pageOf l env url winMax n)) chunk with
          | some cur => advanceCursor t cur
          | none => { time := winMax }) := by
  have hdecode : decodeCursor w.cursor = cursorAt cur (pageOf l env url winMax n) := by
    rw [hcur]
    exact decodeCursor_encode (cursorAt_wellFormed h hp)
  have htime : w.time = t := by rw [hcur]; rfl
  have hb : (cursorAt cur (pageOf l env url winMax n)).windowBounds = some (winMin, winMax) :=
    hbounds
  rw [downloading, hw]
  dsimp only
  rw [hdecode, if_pos (show (cursorAt cur _).phase = .downloading from h.phase),
    stepDownloading_result hb (h.serving n) w, htime]
  rfl

private theorem pageOf_succ {n : Nat}
    (hopen : (pageOf l env url winMax n).eof = false)
    (hanswers : ∀ i < n + 1, Downloader.Answers Downloader.Delivers object
      (pageOf l env url winMax i).pageByteOffset
      ((env i).get (url i) (pageOf l env url winMax i).pageByteOffset)) :
    ∃ chunk, l.downloader.downloadChunk
        ((env n).get (url n) (pageOf l env url winMax n).pageByteOffset)
        (pageOf l env url winMax n).pageOffsetDone (pageOf l env url winMax n).pageByteOffset
        l.chunkMaxRecords winMax = .ok chunk ∧
      (pageOf l env url winMax (n + 1)).eof = chunk.eof ∧
      (pageOf l env url winMax (n + 1)).pageOffsetDone =
        (pageOf l env url winMax n).pageOffsetDone + chunk.linesRead ∧
      (pageOf l env url winMax (n + 1)).pageByteOffset = chunk.nextByteOffset := by
  have hnext : pageOf l env url winMax (n + 1) =
      l.downloader.call l.chunkMaxRecords winMax (pageOf l env url winMax n)
        ((env n).get (url n) (pageOf l env url winMax n).pageByteOffset) := by
    show l.downloader.page _ _ _ (n + 1) = _
    rw [Downloader.page, hopen]
    rfl
  have herrors := (Downloader.page_progress h.cap h.size (n + 1) hanswers).1
  cases hchunk : l.downloader.downloadChunk
      ((env n).get (url n) (pageOf l env url winMax n).pageByteOffset)
      (pageOf l env url winMax n).pageOffsetDone (pageOf l env url winMax n).pageByteOffset
      l.chunkMaxRecords winMax with
  | error e =>
    have : (pageOf l env url winMax (n + 1)).errors ≠ [] := by
      rw [hnext]
      simp [Downloader.call, hchunk]
    exact absurd herrors this
  | ok chunk =>
    rw [hnext, Downloader.call_of_ok hchunk]
    exact ⟨chunk, rfl, rfl, rfl, rfl⟩

include hbounds in
private theorem downloading_open {n : Nat}
    (hn : n * l.chunkMaxRecords.toNat ≤ (rawLines newline object).length) :
    l.downloading env { time := t, cursor := cur.encode } n =
      .ok (advanceCursor t (cursorAt cur (pageOf l env url winMax n))) := by
  induction n with
  | zero =>
    have hstart : cursorAt cur (pageOf l env url winMax 0) = cur :=
      cursorAt_start h.pageOffsetDone h.pageByteOffset
    rw [hstart]
    rfl
  | succ n ih =>
    have hmul : (n + 1) * l.chunkMaxRecords.toNat =
      n * l.chunkMaxRecords.toNat + l.chunkMaxRecords.toNat := Nat.succ_mul ..
    obtain ⟨-, hopen, hp⟩ := pageOf_open h winMax (show n * _ ≤ _ by omega)
    obtain ⟨hanswers, hopen', hp'⟩ := pageOf_open h winMax hn
    obtain ⟨chunk, hchunk, heof, hoffset, hbytes⟩ := pageOf_succ h hopen hanswers
    obtain ⟨hin, hin'⟩ := inInt64_offsets h hp'
    rw [downloading_succ h hbounds t hp (ih (by omega)) rfl, hchunk]
    have hnotEof : chunk.eof = false := heof ▸ hopen'
    have hcursor : chunkedCursor (cursorAt cur (pageOf l env url winMax n)) chunk =
        some (cursorAt cur (pageOf l env url winMax (n + 1))) := by
      unfold chunkedCursor
      rw [hnotEof]
      simp only [Bool.not_false, if_true, cursorAt]
      rw [← hoffset, ← hbytes, wrap64_of_mem hin.1 hin.2, wrap64_of_mem hin'.1 hin'.2]
    dsimp only
    rw [hcursor]

include hbounds in
/-- Lines that fill the chunks exactly: the request from the end of the object on is refused. -/
private theorem downloading_refused {n : Nat} (hpos : object ≠ [])
    (hn : n * l.chunkMaxRecords.toNat = (rawLines newline object).length) :
    l.downloading env { time := t, cursor := cur.encode } (n + 1) =
      .error (.download (.status 416)) := by
  obtain ⟨-, -, hp⟩ := pageOf_open h winMax hn.le
  rw [downloading_succ h hbounds t hp (downloading_open h hbounds t hn.le) rfl]
  have hend : (pageOf l env url winMax n).pageByteOffset = object.length := by
    rw [hp.pageByteOffset, hn, List.take_length, Lib.flatten_rawLines]
  have hlen := List.length_pos_iff.mpr hpos
  have hresp := (h.serving n).ranges (pageOf l env url winMax n).pageByteOffset
  generalize (env n).get (url n) (pageOf l env url winMax n).pageByteOffset = resp at hresp
  cases hresp with
  | whole contentRange body noRange delivers => omega
  | tail body ranged inside delivers => omega
  | unsatisfiable contentRange body ranged beyond => rfl

include hbounds in
/-- Lines that do not fill the chunks exactly: the chunk that is not full ends the page. -/
private theorem downloading_leaves
    (hexact : ¬(l.chunkMaxRecords.toNat ∣ (rawLines newline object).length) ∨ object = []) :
    ∃ n w, l.downloading env { time := t, cursor := cur.encode } n = .ok w ∧
      (decodeCursor w.cursor).phase ≠ .downloading := by
  have hchunk := h.chunk
  have hcap := h.cap
  have hsize := h.size
  obtain ⟨n, hn⟩ : ∃ n, n = (rawLines newline object).length / l.chunkMaxRecords.toNat := ⟨_, rfl⟩
  have hle : n * l.chunkMaxRecords.toNat ≤ (rawLines newline object).length := by
    rw [hn]
    exact Nat.div_mul_le_self ..
  have hgt : (rawLines newline object).length < (n + 1) * l.chunkMaxRecords.toNat := by
    rw [hn]
    exact Nat.lt_mul_of_div_lt (Nat.lt_succ_self _) (by omega)
  obtain ⟨hanswers, hopen, hp⟩ := pageOf_open h winMax hle
  have hresp : Downloader.Answers Downloader.Delivers object
      (pageOf l env url winMax n).pageByteOffset
      ((env n).get (url n) (pageOf l env url winMax n).pageByteOffset) := by
    refine ((h.serving n).ranges _).answers (by omega) ?_
    rw [hp.pageByteOffset]
    rcases hexact with hnot | rfl
    · have hne : n * l.chunkMaxRecords.toNat ≠ (rawLines newline object).length := fun heq =>
        hnot ⟨n, by rw [← heq, Nat.mul_comm]⟩
      have := Lib.flatten_take_lt (lt_of_le_of_ne hle hne)
      exact Or.inl (by omega)
    · exact Or.inr (by simp)
  have hanswers : ∀ i < n + 1, Downloader.Answers Downloader.Delivers object
      (pageOf l env url winMax i).pageByteOffset
      ((env i).get (url i) (pageOf l env url winMax i).pageByteOffset) := by
    intro i hi
    rcases Nat.lt_succ_iff_lt_or_eq.mp hi with hi | rfl
    · exact hanswers i hi
    · exact hresp
  obtain ⟨chunk, hchunk, heof, -⟩ := pageOf_succ h hopen hanswers
  have heof' : (pageOf l env url winMax (n + 1)).eof = true := by
    obtain ⟨-, hstate⟩ := Downloader.page_progress hcap hsize (n + 1) hanswers
    rcases hstate with ⟨heof, -⟩ | ⟨-, hp'⟩
    · exact heof
    · have := hp'.le
      omega
  have hstep := downloading_succ h hbounds t hp (downloading_open h hbounds t hle) rfl
  rw [hchunk] at hstep
  exact ⟨n + 1, _, hstep, phase_of_eof t (cursorAt_wellFormed h hp) (heof ▸ heof')⟩

include hbounds in
/-- **When a page is downloaded from an RFC 7233 server.**  The steps never fail and leave the
downloading phase exactly if the lines of the object do not fill the chunks exactly, or there are
none. -/
theorem downloading_finishes :
    l.Finishes env { time := t, cursor := cur.encode } ↔
      ¬(l.chunkMaxRecords.toNat ∣ (rawLines newline object).length ∧ object ≠ []) := by
  rw [finishes_iff]
  constructor
  · rintro ⟨m, w, hok, hleft⟩ ⟨⟨n, hn⟩, hpos⟩
    have hn : n * l.chunkMaxRecords.toNat = (rawLines newline object).length := by
      rw [hn, Nat.mul_comm]
    have herror := downloading_refused h hbounds t hpos hn
    rcases Nat.le_total m (n + 1) with hle | hle
    · obtain ⟨k, hk⟩ := Nat.exists_eq_add_of_le hle
      rw [hk, downloading_of_left hok hleft k] at herror
      cases herror
    · obtain ⟨k, rfl⟩ := Nat.exists_eq_add_of_le hle
      obtain ⟨w', hw'⟩ := downloading_of_le hok
      rw [herror] at hw'
      cases hw'
  · intro hexact
    refine downloading_leaves h hbounds t ?_
    by_cases hpos : object = []
    · exact Or.inr hpos
    · exact Or.inl fun hdvd => hexact ⟨hdvd, hpos⟩

end

/-! ### Two pages -/

/-- A server that has one object. -/
def rangeEnv (object : List UInt8) : ExportEnv :=
  { now := 0
    nowStarted := 0
    create := fun _ => .error (.status 500)
    start := fun _ => .error (.status 500)
    poll := fun _ => .error (.status 500)
    downloadURL := fun _ => .ok "https://objects/page"
    cancel := fun _ => .error (.status 500)
    parseURL := fun _ => .ok ("https", "objects")
    get := fun _ byteOffset =>
      if byteOffset ≤ 0 then .answered 200 "" (Downloader.bytewise object)
      else if byteOffset < object.length then
        .answered 206 (contentRange byteOffset.toNat object.length)
          (Downloader.bytewise (object.drop byteOffset.toNat))
      else .answered 416 "" (Downloader.bytewise [])
    span := none
    spanFromHex := fun _ _ => none
    casing := ⟨Char.toLower, Char.toLower⟩ }

/-- A loop with chunks of `n` records. -/
def chunksOf (n : Int) : LogsExportLoop (List UInt8) :=
  { sourceInstance := "portkey"
    workspaceID := "ws"
    window := hour
    settle := 10 * minute
    maxBackfill := 24 * hour
    pageSize := 50000
    maxPagesPerWindow := 50
    chunkMaxRecords := n
    downloader := Downloader.echo 0 0
    allowPrivate := false
    jobPollTimeout := 30 * minute
    requestedData := []
    signedURLAllowHosts := ["objects"]
    indexed := []
    useCase := ""
    apiKeyIDs := "" }

/-- The cursor of the only page of an hour, before its download. -/
def firstChunk : ExportCursor :=
  { phase := .downloading
    jobID := "job"
    winMin := "2026-06-01T00:00:00Z"
    winMax := "2026-06-01T01:00:00Z"
    pages := 1
    totalRecords := 4 }

private theorem downloads_rangeEnv {object : List UInt8} {n : Int} (hn : 1 ≤ n)
    (hsize : (object.length : Int) ≤ defaultDownloadMaxBytes) :
    Downloads (chunksOf n) object firstChunk (fun _ => rangeEnv object)
      (fun _ => "https://objects/page") := by
  have hcap : (Downloader.echo 0 0).maxBytes < maxInt64 := by decide
  have hhost : (chunksOf 1).validateSignedURLHost ⟨Char.toLower, Char.toLower⟩
      (.ok ("https", "objects")) = .ok () := by
    decide +kernel
  refine ⟨hcap, hsize, hn, ⟨rfl, by decide, ?_, ?_, ?_, ?_, ?_⟩, rfl, rfl, rfl, fun _ =>
    ⟨rfl, by decide, hhost, fun byteOffset => ?_⟩⟩
  iterate 5 exact ⟨by decide, by decide⟩
  show RangeAnswer object byteOffset (if _ then _ else _)
  split_ifs with hnone hinside
  · exact .whole _ _ hnone (Downloader.delivers_bytewise _)
  · exact .tail _ (by omega) hinside (Downloader.delivers_bytewise _)
  · exact .unsatisfiable _ _ (by omega) (by omega)

/-- Four lines in chunks of three. -/
theorem downloading_finishes_threes :
    (chunksOf 3).Finishes (fun _ => rangeEnv Downloader.fourLines)
      { cursor := firstChunk.encode } :=
  (downloading_finishes (downloads_rangeEnv (by decide) (by decide))
    (by decide +kernel : firstChunk.windowBounds =
      some (63915868800000000000, 63915872400000000000)) 0).mpr (by decide)

/-- **A page that is never done**: four lines in chunks of two.  After two chunks the request from
byte 8 on is answered by 416, and that is an error each time. -/
theorem downloading_stuck :
    Downloads (chunksOf 2) Downloader.fourLines firstChunk (fun _ => rangeEnv Downloader.fourLines)
      (fun _ => "https://objects/page") ∧
    ¬(chunksOf 2).Finishes (fun _ => rangeEnv Downloader.fourLines)
      { cursor := firstChunk.encode } := by
  refine ⟨downloads_rangeEnv (by decide) (by decide), fun hfinishes => ?_⟩
  obtain ⟨w, hw⟩ := hfinishes.1 3
  have hbounds : firstChunk.windowBounds = some (63915868800000000000, 63915872400000000000) := by
    decide +kernel
  rw [downloading_refused (downloads_rangeEnv (by decide) (by decide)) hbounds 0 (by decide)
    (by decide : 2 * 2 = (rawLines newline Downloader.fourLines).length)] at hw
  cases hw

end LogsExportLoop

end GenaiBridge
