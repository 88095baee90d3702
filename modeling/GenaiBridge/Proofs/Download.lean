/-
What one call of `downloadChunk` consumes.

The two loops of a chunk read lines off the front of what the body delivers, so the
result is a function of its lines: `readChunk_ok` reads it off a chunk that was
returned, `readChunk_succeeds` says when one is.  A body is cut after `maxBytes+1`
bytes; a chunk is returned only if the cut was not reached, except when the loop over
the lines consumed before runs into it.
-/
import GenaiBridge.Proofs.LineReader

namespace GenaiBridge

open Lib (ReadErr Reader rawLines content)

namespace Downloader

variable {R : Type} (d : Downloader R)

/-- What becomes of a line of the object. -/
def lineOutcome (fallbackTS : Int) (raw : List UInt8) : LineOutcome :=
  d.outcome fallbackTS (content newline raw) (d.lineCap < (content newline raw).length)

theorem lineCap_pos : 0 < d.lineCap := by
  unfold lineCap maxLogLineBytes
  split <;> omega

theorem maxBytes_pos : 0 < d.maxBytes := by
  unfold maxBytes defaultDownloadMaxBytes
  split <;> omega

private theorem outcome_lineRead (fallbackTS : Int) (raw : List UInt8) :
    d.outcome fallbackTS (lineRead d.lineCap raw).line (lineRead d.lineCap raw).tooLong =
      d.lineOutcome fallbackTS raw := by
  unfold lineOutcome lineRead
  dsimp only
  split
  · rename_i h
    simp [outcome, h]
  · rfl

/-! ### The two loops -/

/-- After `n` lines of what a reader had pending. -/
structure After (r : Reader UInt8) (n : Nat) (r' : Reader UInt8) : Prop where
  enough : n ≤ (rawLines newline r.pending).length
  text : r.pending = ((rawLines newline r.pending).take n).flatten ++ r'.pending
  lines : rawLines newline r'.pending = (rawLines newline r.pending).drop n
  ends : (∀ line ∈ (rawLines newline r.pending).take n, line.getLast? = some newline) ∨
    r.final = .eof
  ok : r'.Ok
  total : r'.total = r.total
  final : r'.final = r.final

private theorem After.zero {r : Reader UInt8} (hr : r.Ok) : After r 0 r :=
  ⟨by simp, by simp, by simp, by simp, hr, rfl, rfl⟩

private theorem After.succ {r r₁ r' : Reader UInt8} {raw : List UInt8} {n : Nat}
    (text : r.pending = raw ++ r₁.pending)
    (first : rawLines newline r.pending = raw :: rawLines newline r₁.pending)
    (ends : raw.getLast? = some newline ∨ r.final = .eof) (total : r₁.total = r.total)
    (final : r₁.final = r.final) (h : After r₁ n r') : After r (n + 1) r' := by
  refine ⟨?_, ?_, ?_, ?_, h.ok, h.total.trans total, h.final.trans final⟩
  · rw [first, List.length_cons]
    exact Nat.succ_le_succ h.enough
  · rw [first, List.take_succ_cons, List.flatten_cons, List.append_assoc, ← h.text]
    exact text
  · rw [first, List.drop_succ_cons]
    exact h.lines
  · rw [first, List.take_succ_cons]
    rcases ends with hraw | heof
    · rcases h.ends with hrest | heof
      · left
        intro line hline
        rcases List.mem_cons.mp hline with rfl | hline
        · exact hraw
        · exact hrest line hline
      · exact Or.inr (final ▸ heof)
    · exact Or.inr heof

private theorem skipLines_spec (n : Nat) : ∀ {r : Reader UInt8} (_ : r.Ok) (consumed : Nat),
    (∃ r', d.skipLines n r consumed =
        (consumed + ((rawLines newline r.pending).take n).flatten.length, none, r') ∧
        After r n r') ∨
    (∃ r', d.skipLines n r consumed = (consumed + r.pending.length, some .eof, r') ∧
      (rawLines newline r.pending).length < n ∧ r.final = .eof) ∨
    (∃ msg, (d.skipLines n r consumed).2.1 = some (.fault msg) ∧ r.final = .fault msg) := by
  induction n with
  | zero => exact fun hr consumed => Or.inl ⟨_, rfl, After.zero hr⟩
  | succ n ih =>
    intro r hr consumed
    unfold skipLines
    generalize hread : readLine d.lineCap r = out
    have hline := readsLine_readLine d.lineCap_pos.le hr
    rw [hread] at hline
    cases hline with
    | eof text_eq final_eq =>
      exact Or.inr (Or.inl ⟨_, by rw [text_eq]; rfl, by simp [text_eq], final_eq⟩)
    | fault final_eq => exact Or.inr (Or.inr ⟨_, rfl, final_eq⟩)
    | @line raw r₁ text_eq first ends ok total_eq final_eq =>
      rw [first, List.take_succ_cons, List.flatten_cons, List.length_append, ← Nat.add_assoc]
      rcases ih ok (consumed + raw.length) with ⟨r', heq, hafter⟩ | ⟨r', heq, hfew, heof⟩ |
        ⟨msg, heq, hfault⟩
      · exact Or.inl ⟨r', heq, hafter.succ text_eq first ends total_eq final_eq⟩
      · refine Or.inr (Or.inl ⟨r', ?_, ?_, final_eq ▸ heof⟩)
        · rw [text_eq, List.length_append, ← Nat.add_assoc]
          exact heq
        · rw [List.length_cons]
          omega
      · exact Or.inr (Or.inr ⟨msg, heq, final_eq ▸ hfault⟩)

private theorem chunkLines_spec (fallbackTS : Int) (n : Nat) :
    ∀ {r : Reader UInt8} (_ : r.Ok) (consumed : Nat),
    (∃ r', d.chunkLines fallbackTS n r consumed =
        (((rawLines newline r.pending).take n).map (d.lineOutcome fallbackTS),
          consumed + ((rawLines newline r.pending).take n).flatten.length, none, r') ∧
        After r ((rawLines newline r.pending).take n).length r' ∧
        ((rawLines newline r.pending).length < n → r.final = .eof)) ∨
    (∃ msg, (d.chunkLines fallbackTS n r consumed).2.2.1 = some msg ∧ r.final = .fault msg) := by
  induction n with
  | zero => exact fun hr consumed => Or.inl ⟨_, rfl, After.zero hr, by simp⟩
  | succ n ih =>
    intro r hr consumed
    unfold chunkLines
    generalize hread : readLine d.lineCap r = out
    have hline := readsLine_readLine d.lineCap_pos.le hr
    rw [hread] at hline
    cases hline with
    | @eof r₁ text_eq final_eq ok total_eq pending after =>
      refine Or.inl ⟨r₁, by simp [text_eq], ?_, fun _ => final_eq⟩
      exact ⟨by simp, by simp [text_eq, pending], by simp [text_eq, pending], by simp [text_eq],
        ok, total_eq, after.trans final_eq.symm⟩
    | fault final_eq => exact Or.inr ⟨_, rfl, final_eq⟩
    | @line raw r₁ text_eq first ends ok total_eq final_eq =>
      rw [first, List.take_succ_cons, List.flatten_cons, List.length_append, ← Nat.add_assoc,
        List.map_cons, List.length_cons, List.length_cons]
      rcases ih ok (consumed + raw.length) with ⟨r', heq, hafter, heof⟩ | ⟨msg, heq, hfault⟩
      · refine Or.inl ⟨r', ?_, hafter.succ text_eq first ends total_eq final_eq, ?_⟩
        · rw [← outcome_lineRead]
          simp only [lineRead] at heq ⊢
          rw [heq]
        · exact fun hlt => final_eq ▸ heof (by omega)
      · exact Or.inr ⟨msg, heq, final_eq ▸ hfault⟩

/-! ### The body -/

/-- What the body delivers before it is cut. -/
def seen (body : Body) : List UInt8 := body.segments.flatten.take (d.maxBytes + 1).toNat

section NewReader

variable {d} (hcap : d.maxBytes < maxInt64) (body : Body)

include hcap

private theorem limit_newReader : (d.newReader body).src.limit = d.maxBytes + 1 := by
  have hpos := d.maxBytes_pos
  unfold newReader
  exact wrap64_of_mem (by unfold minInt64; omega) (by omega)

private theorem pending_newReader : (d.newReader body).pending = d.seen body := by
  have hlimit := limit_newReader hcap body
  unfold Reader.pending Lib.Source.rest
  rw [hlimit]
  rfl

private theorem total_newReader : (d.newReader body).total = (d.seen body).length := by
  have hpending := pending_newReader hcap body
  unfold Reader.total
  rw [← hpending]
  simp [newReader, Reader.pending]

/-- A body that is over before the cut ends as it ends; a longer one just stops. -/
private theorem final_newReader :
    (d.newReader body).final = .eof ∧ d.maxBytes < (d.seen body).length ∨
    (d.newReader body).final = body.ending ∧ d.seen body = body.segments.flatten := by
  have hpos := d.maxBytes_pos
  have hlimit := limit_newReader hcap body
  have hfinal : (d.newReader body).final =
      if body.segments.flatten.length < (d.maxBytes + 1).toNat ∨
        (body.segments.flatten.length = (d.maxBytes + 1).toNat ∧ body.endsWithLast ∧
          body.segments ≠ []) then body.ending else .eof := by
    rw [← hlimit]
    rfl
  unfold seen
  rw [hfinal]
  split
  · exact Or.inr ⟨rfl, List.take_of_length_le (by omega)⟩
  · refine Or.inl ⟨rfl, ?_⟩
    rw [List.length_take]
    omega

end NewReader

/-! ### One chunk -/

private theorem After.trans {r r₁ r₂ : Reader UInt8} {n k : Nat} (h : After r n r₁)
    (h' : After r₁ k r₂) : After r (n + k) r₂ := by
  have htake : (rawLines newline r.pending).take (n + k) =
      (rawLines newline r.pending).take n ++ (rawLines newline r₁.pending).take k := by
    rw [List.take_add, h.lines]
  refine ⟨?_, ?_, ?_, ?_, h'.ok, h'.total.trans h.total, h'.final.trans h.final⟩
  · have hlen := h'.enough
    rw [h.lines, List.length_drop] at hlen
    have := h.enough
    omega
  · rw [htake, List.flatten_append, List.append_assoc, ← h'.text]
    exact h.text
  · rw [h'.lines, h.lines, List.drop_drop]
  · rw [htake]
    rcases h.ends with hl | heof
    · rcases h'.ends with hl' | heof
      · left
        intro line hline
        exact (List.mem_append.mp hline).elim (hl line) (hl' line)
      · exact Or.inr (h.final ▸ heof)
    · exact Or.inr heof

private theorem After.consumed_le_count {r r' : Reader UInt8} {n : Nat} (h : After r n r') :
    ((rawLines newline r.pending).take n).flatten.length + r.total ≤
      r.pending.length + r'.src.count := by
  have htext := congrArg List.length h.text
  have htotal := h.total
  have hrest : r'.src.rest.length ≤ r'.pending.length := by simp [Reader.pending]
  rw [List.length_append] at htext
  unfold Reader.total at htotal ⊢
  omega

/-- A chunk that was returned: the loop over the lines consumed before came to the end of the body,
or the chunk holds the lines after them, and all lines it went over are whole lines. -/
theorem readChunk_ok {d : Downloader R} (hcap : d.maxBytes < maxInt64) {body : Body}
    {skip base max fallbackTS : Int} {n : Nat} {chunk : Chunk}
    (h : d.readChunk body skip base n max fallbackTS = .ok chunk) :
    let lines := rawLines newline (d.seen body)
    (lines.length < n ∧
      chunk = ⟨[], skip, base + ((d.seen body).length : Nat), true⟩ ∧
      (d.maxBytes < (d.seen body).length ∨
        (d.seen body = body.segments.flatten ∧ body.ending = .eof))) ∨
    ∃ k, n + k ≤ lines.length ∧ k ≤ max.toNat ∧
      chunk = ⟨((lines.drop n).take k).map (d.lineOutcome fallbackTS), k,
        base + ((lines.take (n + k)).flatten.length : Nat), k < max⟩ ∧
      ((∀ line ∈ lines.take (n + k), line.getLast? = some newline) ∨
        (d.seen body = body.segments.flatten ∧ body.ending = .eof)) ∧
      (k < max.toNat → n + k = lines.length ∧
        d.seen body = body.segments.flatten ∧ body.ending = .eof) := by
  intro lines
  have hr : (d.newReader body).Ok := by simp [Reader.Ok, newReader]
  have hpending := pending_newReader hcap body
  have htotal := total_newReader hcap body
  have hfinal := final_newReader hcap body
  have hlines : rawLines newline (d.newReader body).pending = lines := by rw [hpending]
  unfold readChunk at h
  rcases d.skipLines_spec n hr 0 with ⟨r₁, hskip, hafter⟩ |
    ⟨r₁, hskip, hfew, heof⟩ | ⟨msg, hskip, -⟩
  · rw [hskip] at h
    dsimp only at h
    rcases d.chunkLines_spec fallbackTS max.toNat hafter.ok _ with
      ⟨r₂, hchunk, hafter', heof⟩ | ⟨msg, hchunk, -⟩
    · rw [hchunk] at h
      dsimp only at h
      split at h
      · simp at h
      · rename_i hcount
        have hboth := hafter.trans hafter'
        have hrest : rawLines newline r₁.pending = lines.drop n := by rw [hafter.lines, hlines]
        rw [hrest] at h hboth heof
        generalize hk : ((lines.drop n).take max.toNat).length = k at hboth
        rw [List.length_take, List.length_drop] at hk
        have hgot : (lines.drop n).take max.toNat = (lines.drop n).take k := by
          rw [List.take_eq_take_iff, List.length_drop]
          omega
        have hgotlen : ((lines.drop n).take k).length = k := by
          rw [List.length_take, List.length_drop]
          omega
        have hflat : (lines.take (n + k)).flatten.length =
            (lines.take n).flatten.length + ((lines.drop n).take k).flatten.length := by
          rw [List.take_add, List.flatten_append, List.length_append]
        have hconsumed := hboth.consumed_le_count
        have henough := hboth.enough
        have hends := hboth.ends
        rw [hlines, hpending, htotal] at hconsumed
        rw [hlines] at henough hends
        have hle : ((lines.take (n + k)).flatten.length : Int) ≤ d.maxBytes := by omega
        refine Or.inr ⟨k, henough, by omega, ?_, ?_, fun hlt => ?_⟩
        · rw [hgot, List.length_map, hgotlen, hlines] at h
          rw [hflat, ← Except.ok.inj h]
          simp
        · refine hends.elim Or.inl fun heof => ?_
          rcases hfinal with ⟨-, hbig⟩ | ⟨hsame, hall⟩
          · have hlt : (lines.take (n + k)).flatten.length < (d.seen body).length := by omega
            exact Or.inl (Lib.getLast?_of_mem_take hlt)
          · exact Or.inr ⟨hall, hsame ▸ heof⟩
        · -- the loop came to the end, and all of it was read
          have hlen : n + k = lines.length := by omega
          have hall : (lines.take (n + k)).flatten = d.seen body := by
            rw [hlen, List.take_length, Lib.flatten_rawLines]
          rw [hall] at hle
          have hend : (d.newReader body).final = .eof := by
            rw [← hafter.final]
            refine heof ?_
            rw [List.length_drop]
            omega
          rcases hfinal with ⟨-, hbig⟩ | ⟨hsame, hwhole⟩
          · omega
          · exact ⟨hlen, hwhole, hsame ▸ hend⟩
    · rcases hout : d.chunkLines fallbackTS max.toNat r₁ _ with ⟨outcomes, consumed, err, r₂⟩
      rw [hout] at hchunk h
      obtain rfl : err = _ := hchunk
      simp at h
  · rw [hskip, hpending] at h
    rw [hpending] at hfew
    refine Or.inl ⟨hfew, by simpa using (Except.ok.inj h).symm, ?_⟩
    rcases hfinal with ⟨-, hbig⟩ | ⟨hsame, hall⟩
    · exact Or.inl hbig
    · exact Or.inr ⟨hall, hsame ▸ heof⟩
  · rcases hout : d.skipLines n (d.newReader body) 0 with ⟨consumed, err, r₁⟩
    rw [hout] at hskip h
    obtain rfl : err = _ := hskip
    simp at h

theorem readChunk_succeeds {d : Downloader R} (hcap : d.maxBytes < maxInt64) {body : Body}
    (hend : body.ending = .eof) (hsize : (body.segments.flatten.length : Int) ≤ d.maxBytes)
    (skip base max fallbackTS : Int) (n : Nat) :
    ∃ chunk, d.readChunk body skip base n max fallbackTS = .ok chunk := by
  have hr : (d.newReader body).Ok := by simp [Reader.Ok, newReader]
  have htotal := total_newReader hcap body
  have hseen : ((d.seen body).length : Int) ≤ d.maxBytes := by
    have : (d.seen body).length ≤ body.segments.flatten.length := List.length_take_le' _ _
    omega
  have heof : (d.newReader body).final = .eof := by
    rcases final_newReader hcap body with ⟨-, hbig⟩ | ⟨hsame, -⟩
    · omega
    · rw [hsame, hend]
  unfold readChunk
  rcases d.skipLines_spec n hr 0 with ⟨r₁, hskip, hafter⟩ | ⟨r₁, hskip, -⟩ | ⟨msg, -, hfault⟩
  · rw [hskip]
    dsimp only
    rcases d.chunkLines_spec fallbackTS max.toNat hafter.ok _ with ⟨r₂, hchunk, hafter', -⟩ |
      ⟨msg, -, hfault⟩
    · rw [hchunk]
      have hcount : r₂.src.count ≤ (d.seen body).length := by
        rw [← htotal, ← hafter.total, ← hafter'.total]
        exact Nat.le_add_right _ _
      dsimp only
      rw [if_neg (by omega)]
      exact ⟨_, rfl⟩
    · rw [hafter.final, heof] at hfault
      simp at hfault
  · rw [hskip]
    exact ⟨_, rfl⟩
  · rw [heof] at hfault
    simp at hfault

/-! ### The object -/

/-- The body is a part of the object from its start, and if it ends without a fault all of it. -/
def Serves (object : List UInt8) (body : Body) : Prop :=
  body.segments.flatten <+: object ∧ (body.ending = .eof → body.segments.flatten = object)

/-- **What a chunk is**, of the object the body delivers: the lines after the ones skipped, up to
`max`, and the end of them if there are fewer — unless the part of the object before the cut has not
as many lines as are to be skipped. -/
theorem readChunk_lines {d : Downloader R} (hcap : d.maxBytes < maxInt64) {object : List UInt8}
    {body : Body} (hserves : Serves object body) {skip base max fallbackTS : Int} {n : Nat}
    {chunk : Chunk} (h : d.readChunk body skip base n max fallbackTS = .ok chunk) :
    let lines := rawLines newline object
    let cut := object.take (d.maxBytes + 1).toNat
    ((rawLines newline cut).length < n ∧ chunk = ⟨[], skip, base + (cut.length : Nat), true⟩) ∨
    ∃ k, n + k ≤ lines.length ∧ k ≤ max.toNat ∧
      chunk = ⟨((lines.drop n).take k).map (d.lineOutcome fallbackTS), k,
        base + ((lines.take (n + k)).flatten.length : Nat), k < max⟩ ∧
      (k < max.toNat → n + k = lines.length) := by
  intro lines cut
  have hpos := d.maxBytes_pos
  obtain ⟨⟨undelivered, hobject⟩, hwhole⟩ := hserves
  rcases readChunk_ok hcap h with ⟨hfew, hchunk, hcut⟩ | ⟨k, hk, hmax, hchunk, hends, hlast⟩
  · left
    have hseen : d.seen body = cut := by
      unfold seen cut
      rcases hcut with hbig | ⟨-, heof⟩
      · have hlen : (d.maxBytes + 1).toNat ≤ body.segments.flatten.length := by
          unfold seen at hbig
          rw [List.length_take] at hbig
          omega
        rw [← hobject, List.take_append_of_le_length hlen]
      · rw [hwhole heof]
    rw [hseen] at hfew hchunk
    exact ⟨hfew, hchunk⟩
  · right
    obtain ⟨more, hmore⟩ : ∃ more, object = d.seen body ++ more := by
      refine ⟨body.segments.flatten.drop (d.maxBytes + 1).toNat ++ undelivered, ?_⟩
      unfold seen
      rw [← List.append_assoc, List.take_append_drop, hobject]
    have htake : lines.take (n + k) = (rawLines newline (d.seen body)).take (n + k) := by
      unfold lines
      rw [hmore]
      refine Lib.take_rawLines_append (hends.imp_right fun hall => ?_) hk
      have hsame : d.seen body = object := by rw [hall.1, hwhole hall.2]
      rw [hsame] at hmore
      simpa using hmore
    have hdrop : (lines.drop n).take k = ((rawLines newline (d.seen body)).drop n).take k := by
      have := congrArg (List.drop n) htake
      rwa [List.drop_take, List.drop_take, Nat.add_sub_cancel_left] at this
    have hlen : n + k ≤ lines.length := by
      have := congrArg List.length htake
      rw [List.length_take, List.length_take] at this
      omega
    refine ⟨k, hlen, hmax, ?_, fun hlt => ?_⟩
    · rw [htake, hdrop]
      exact hchunk
    · obtain ⟨hall, hsame, heof⟩ := hlast hlt
      rw [hall, hsame, hwhole heof]

end Downloader

end GenaiBridge
