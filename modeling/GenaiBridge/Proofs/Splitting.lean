/-
A list that is too large for one request is sent in parts.

An emission either posts its list whole, at most once, or halves it: because the body
exceeds `MaxBytes`, without a post, or because the server found a post of it too large.
Then the second half is sent after the first, unless the first failed.  `halvedAt` says
which it is, and everything about an emission goes by induction over the halves.

The posts that succeed are a partition of the list, or of the part of it before the
error.  The part behind the error is not sent at all, which is harmless when the list is
sent again, but an error that moves the position past the list loses it.
-/
import GenaiBridge.Bridge.OtlpLogs
import GenaiBridge.Bridge.Runner

namespace GenaiBridge

variable {α σ : Type}

/-! ### Posts -/

/-- A post that was not followed by posts of its halves. -/
def Post.settled (p : Post α) : Bool := !(isPayloadTooLarge p.err && decide (1 < p.items.length))

theorem Post.settled_iff {p : Post α} :
    p.settled = true ↔ ¬(isPayloadTooLarge p.err = true ∧ 1 < p.items.length) := by
  simp only [settled, Bool.not_eq_true', Bool.and_eq_false_iff, decide_eq_false_iff_not, not_and_or,
    Bool.not_eq_true]

theorem Post.settled_of_sent {p : Post α} (h : p.err = none) : p.settled = true := by
  rw [settled, h]
  rfl

/-- The items of some of the posts, in the order sent. -/
def itemsOf (q : Post α → Bool) (posts : List (Post α)) : List α :=
  (posts.filter q).flatMap Post.items

theorem itemsOf_append (q : Post α → Bool) (posts posts' : List (Post α)) :
    itemsOf q (posts ++ posts') = itemsOf q posts ++ itemsOf q posts' := by
  simp only [itemsOf, List.filter_append, List.flatMap_append]

theorem itemsOf_eq_nil {q : Post α → Bool} {posts : List (Post α)}
    (h : ∀ p ∈ posts, q p = false) : itemsOf q posts = [] := by
  have hnone : posts.filter q = [] := by
    rw [List.filter_eq_nil_iff]
    intro p hp
    simp [h p hp]
  rw [itemsOf, hnone, List.flatMap_nil]

/-- The items of the posts that succeeded. -/
def Emission.delivered (e : Emission α σ) : List α := itemsOf (fun p => p.err.isNone) e.posts

/-- The items the server has taken or finally refused. -/
def Emission.settled (e : Emission α σ) : List α := itemsOf Post.settled e.posts

section

variable (encode : List α → Except EncodeError (List UInt8)) (gzipError : String)
  (wire : Wire σ) (maxBytes : Int)

/-- The posts of the whole list before its halves, and the server the halves are sent to, if the
list is halved. -/
def halvedAt (items : List α) (server : σ) : Option (List (Post α) × σ) :=
  match encode items with
  | .error _ => none
  | .ok body =>
    match wire.gzip body with
    | .error _ => none
    | .ok gz =>
      if 0 < maxBytes ∧ maxBytes < gz.length ∧ 1 < items.length then some ([], server)
      else
        let ((requests, err), server) := wire.post gz server
        if isPayloadTooLarge err ∧ 1 < items.length then
          some ([⟨items, gz, requests, err⟩], server)
        else none

/-- What the server answers to a post of the list, if it can be encoded and compressed. -/
def answer? (items : List α) (server : σ) : Option (Option EmitError × σ) :=
  match encode items with
  | .error _ => none
  | .ok body =>
    match wire.gzip body with
    | .error _ => none
    | .ok gz => some ((wire.post gz server).1.2, (wire.post gz server).2)

variable {encode wire maxBytes} {items : List α} {server server' : σ} {before : List (Post α)}

/-- A list that is not halved is posted at most once, and an error without a post does not move the
position. -/
theorem emitSplitting_whole (h : halvedAt encode wire maxBytes items server = none) :
    (∃ err, isAdvancePast err = false ∧ answer? encode wire items server = none ∧
      emitSplitting encode gzipError wire maxBytes items server = ⟨[], some err, server⟩) ∨
    ∃ (p : Post α) (server' : σ), p.items = items ∧ p.settled = true ∧
      answer? encode wire items server = some (p.err, server') ∧
      emitSplitting encode gzipError wire maxBytes items server = ⟨[p], p.err, server'⟩ := by
  unfold answer?
  unfold halvedAt at h
  unfold emitSplitting
  cases hbody : encode items with
  | error err => exact Or.inl ⟨_, rfl, rfl, rfl⟩
  | ok body =>
    cases hgz : wire.gzip body with
    | error err => exact Or.inl ⟨.other (gzipError ++ err), rfl, by simp [hgz], by simp [hgz]⟩
    | ok gz =>
      simp only [hbody, hgz] at h ⊢
      by_cases hlarge : 0 < maxBytes ∧ maxBytes < gz.length ∧ 1 < items.length
      · rw [if_pos hlarge] at h
        cases h
      · rw [if_neg hlarge] at h
        rw [dif_neg hlarge]
        by_cases htoo : isPayloadTooLarge (wire.post gz server).1.2 ∧ 1 < items.length
        · rw [if_pos htoo] at h
          cases h
        · rw [dif_neg htoo]
          exact Or.inr ⟨⟨items, gz, _, _⟩, _, rfl, Post.settled_iff.mpr htoo, rfl, rfl⟩

/-- A list that is halved has two items or more, and a post of the whole was too large. -/
theorem emitSplitting_halved
    (h : halvedAt encode wire maxBytes items server = some (before, server')) :
    1 < items.length ∧ before.length ≤ 1 ∧ (∀ p ∈ before, p.settled = false) ∧
      emitSplitting encode gzipError wire maxBytes items server =
        let halves := (emitSplitting encode gzipError wire maxBytes
          (items.take (items.length / 2)) server').andThen
            (emitSplitting encode gzipError wire maxBytes (items.drop (items.length / 2)))
        { halves with posts := before ++ halves.posts } := by
  unfold halvedAt at h
  rw [emitSplitting]
  cases hbody : encode items with
  | error err =>
    rw [hbody] at h
    cases h
  | ok body =>
    simp only [hbody] at h ⊢
    cases hgz : wire.gzip body with
    | error err =>
      rw [hgz] at h
      cases h
    | ok gz =>
      simp only [hgz] at h ⊢
      by_cases hlarge : 0 < maxBytes ∧ maxBytes < gz.length ∧ 1 < items.length
      · rw [if_pos hlarge] at h
        obtain ⟨rfl, rfl⟩ := Prod.mk.inj (Option.some.inj h)
        rw [dif_pos hlarge]
        exact ⟨hlarge.2.2, by simp, by simp, rfl⟩
      · rw [if_neg hlarge] at h
        rw [dif_neg hlarge]
        by_cases htoo : isPayloadTooLarge (wire.post gz server).1.2 ∧ 1 < items.length
        · rw [if_pos htoo] at h
          obtain ⟨rfl, rfl⟩ := Prod.mk.inj (Option.some.inj h)
          rw [dif_pos htoo]
          refine ⟨htoo.2, by simp, ?_, rfl⟩
          intro p hp
          obtain rfl := List.mem_singleton.mp hp
          exact Bool.eq_false_iff.mpr fun hsettled => Post.settled_iff.mp hsettled htoo
        · rw [if_neg htoo] at h
          cases h

/-- **What holds of a list sent whole, and of a list if it holds of its halves, holds of every
list.** -/
theorem halving_induction (encode : List α → Except EncodeError (List UInt8)) (wire : Wire σ)
    (maxBytes : Int) {motive : List α → σ → Prop}
    (whole : ∀ items server, halvedAt encode wire maxBytes items server = none →
      motive items server)
    (halved : ∀ items server before server',
      halvedAt encode wire maxBytes items server = some (before, server') →
      motive (items.take (items.length / 2)) server' →
      (∀ s, motive (items.drop (items.length / 2)) s) → motive items server) :
    ∀ items server, motive items server := by
  intro items
  induction hn : items.length using Nat.strong_induction_on generalizing items with
  | _ n ih =>
    intro server
    cases hat : halvedAt encode wire maxBytes items server with
    | none => exact whole items server hat
    | some p =>
      obtain ⟨before, server'⟩ := p
      have hlen := (emitSplitting_halved "" hat).1
      have hfirst : (items.take (items.length / 2)).length < n := by
        rw [List.length_take]
        omega
      have hsecond : (items.drop (items.length / 2)).length < n := by
        rw [List.length_drop]
        omega
      exact halved items server before server' hat (ih _ hfirst _ rfl server')
        (ih _ hsecond _ rfl)

/-- Where the first half fails, it is all that is sent. -/
theorem emitSplitting_first_failed
    (h : halvedAt encode wire maxBytes items server = some (before, server')) :
    let first := emitSplitting encode gzipError wire maxBytes (items.take (items.length / 2)) server'
    first.err ≠ none → emitSplitting encode gzipError wire maxBytes items server =
      ⟨before ++ first.posts, first.err, first.server⟩ := by
  intro first herr
  obtain ⟨-, -, -, heq⟩ := emitSplitting_halved gzipError h
  have hstop : first.andThen (emitSplitting encode gzipError wire maxBytes
      (items.drop (items.length / 2))) = first := by
    unfold Emission.andThen
    cases hfirst : first.err with
    | none => exact absurd hfirst herr
    | some err => rfl
  rw [heq]
  dsimp only
  rw [hstop]

theorem emitSplitting_first_passed
    (h : halvedAt encode wire maxBytes items server = some (before, server')) :
    let first := emitSplitting encode gzipError wire maxBytes (items.take (items.length / 2)) server'
    let second := emitSplitting encode gzipError wire maxBytes (items.drop (items.length / 2))
      first.server
    first.err = none → emitSplitting encode gzipError wire maxBytes items server =
      ⟨before ++ (first.posts ++ second.posts), second.err, second.server⟩ := by
  intro first second herr
  obtain ⟨-, -, -, heq⟩ := emitSplitting_halved gzipError h
  have hgoes : first.andThen (emitSplitting encode gzipError wire maxBytes
      (items.drop (items.length / 2))) =
        ⟨first.posts ++ second.posts, second.err, second.server⟩ := by
    unfold Emission.andThen
    rw [herr]
  rw [heq]
  dsimp only
  rw [hgoes]

/-! ### The posts of an emission -/

theorem emitSplitting_posts_length : ∀ (items : List α) (server : σ), items ≠ [] →
    (emitSplitting encode gzipError wire maxBytes items server).posts.length ≤
      2 * items.length - 1 := by
  intro items server
  induction items, server using halving_induction encode wire maxBytes with
  | whole items server hat =>
    intro hne
    have hlen : 0 < items.length := List.length_pos_iff.mpr hne
    rcases emitSplitting_whole gzipError hat with ⟨err, -, -, heq⟩ | ⟨p, server', -, -, -, heq⟩
    · rw [heq]
      exact Nat.zero_le _
    · rw [heq]
      show 1 ≤ 2 * items.length - 1
      omega
  | halved items server before server' hat ihFirst ihSecond =>
    intro _
    obtain ⟨hlen, hbefore, -, -⟩ := emitSplitting_halved gzipError hat
    have hfirstNe : items.take (items.length / 2) ≠ [] := by
      rw [← List.length_pos_iff, List.length_take]
      omega
    have hsecondNe : items.drop (items.length / 2) ≠ [] := by
      rw [← List.length_pos_iff, List.length_drop]
      omega
    have hfirst := ihFirst hfirstNe
    have hsecond := fun s => ihSecond s hsecondNe
    rw [List.length_take] at hfirst
    simp only [List.length_drop] at hsecond
    by_cases herr : (emitSplitting encode gzipError wire maxBytes
        (items.take (items.length / 2)) server').err = none
    · rw [emitSplitting_first_passed gzipError hat herr]
      have hrest := hsecond (emitSplitting encode gzipError wire maxBytes
        (items.take (items.length / 2)) server').server
      simp only [List.length_append]
      omega
    · rw [emitSplitting_first_failed gzipError hat herr]
      simp only [List.length_append]
      omega

/-- **Posts that were not split again make up the list**, or the part of it before the error: all of
them that succeeded, with or without some that failed. -/
theorem emitSplitting_itemsOf {q : Post α → Bool}
    (hsplit : ∀ p : Post α, p.settled = false → q p = false)
    (hsent : ∀ p : Post α, p.err = none → q p = true) : ∀ (items : List α) (server : σ),
    ((emitSplitting encode gzipError wire maxBytes items server).err = none →
      itemsOf q (emitSplitting encode gzipError wire maxBytes items server).posts = items) ∧
    itemsOf q (emitSplitting encode gzipError wire maxBytes items server).posts <+: items := by
  intro items server
  induction items, server using halving_induction encode wire maxBytes with
  | whole items server hat =>
    rcases emitSplitting_whole gzipError hat with ⟨err, -, -, heq⟩ |
      ⟨p, server', hitems, -, -, heq⟩
    · rw [heq]
      exact ⟨by simp, List.nil_prefix⟩
    · have hposts : itemsOf q [p] = if q p then items else [] := by
        by_cases hq : q p = true <;> simp [itemsOf, hq, hitems]
      rw [heq, hposts]
      refine ⟨?_, ?_⟩
      · intro herr
        rw [if_pos (hsent p herr)]
      · split
        · exact List.prefix_refl _
        · exact List.nil_prefix
  | halved items server before server' hat ihFirst ihSecond =>
    have hbefore : itemsOf q before = [] := by
      obtain ⟨-, -, hposts, -⟩ := emitSplitting_halved gzipError hat
      exact itemsOf_eq_nil fun p hp => hsplit p (hposts p hp)
    have hhalves := List.take_append_drop (items.length / 2) items
    obtain ⟨hwhole, hpart⟩ := ihFirst
    by_cases herr : (emitSplitting encode gzipError wire maxBytes
        (items.take (items.length / 2)) server').err = none
    · obtain ⟨hwhole', hpart'⟩ := ihSecond (emitSplitting encode gzipError wire maxBytes
        (items.take (items.length / 2)) server').server
      rw [emitSplitting_first_passed gzipError hat herr]
      simp only [itemsOf_append, hbefore, List.nil_append, hwhole herr]
      refine ⟨?_, ?_⟩
      · intro hok
        rw [hwhole' hok, hhalves]
      · conv_rhs => rw [← hhalves]
        exact (List.prefix_append_right_inj _).mpr hpart'
    · rw [emitSplitting_first_failed gzipError hat herr]
      simp only [itemsOf_append, hbefore, List.nil_append]
      refine ⟨?_, hpart.trans (List.take_prefix _ _)⟩
      intro hok
      exact absurd hok herr

/-- A post that was not split again succeeded, or it failed with what the emission returned. -/
theorem emitSplitting_err_of_settled : ∀ (items : List α) (server : σ),
    ∀ p ∈ (emitSplitting encode gzipError wire maxBytes items server).posts, p.settled = true →
      p.err = none ∨ p.err = (emitSplitting encode gzipError wire maxBytes items server).err := by
  intro items server
  induction items, server using halving_induction encode wire maxBytes with
  | whole items server hat =>
    rcases emitSplitting_whole gzipError hat with ⟨err, -, -, heq⟩ | ⟨p, server', -, -, -, heq⟩
    · rw [heq]
      simp
    · rw [heq]
      intro p' hp' _
      exact Or.inr (by rw [List.mem_singleton.mp hp'])
  | halved items server before server' hat ihFirst ihSecond =>
    intro p hp hsettled
    obtain ⟨-, -, hposts, -⟩ := emitSplitting_halved gzipError hat
    have hnot : p ∉ before := by
      intro hbefore
      rw [hposts p hbefore] at hsettled
      cases hsettled
    by_cases herr : (emitSplitting encode gzipError wire maxBytes
        (items.take (items.length / 2)) server').err = none
    · rw [emitSplitting_first_passed gzipError hat herr] at hp ⊢
      rcases List.mem_append.mp ((List.mem_append.mp hp).resolve_left hnot) with hp | hp
      · left
        rcases ihFirst p hp hsettled with hnone | hsome
        · exact hnone
        · rw [hsome, herr]
      · exact ihSecond _ p hp hsettled
    · rw [emitSplitting_first_failed gzipError hat herr] at hp ⊢
      exact ihFirst p ((List.mem_append.mp hp).resolve_left hnot) hsettled

end

/-! ### The partition -/

/-- The posts of an emission are few, and those that succeed are a partition of the list, or of the
part of it before the error. -/
structure Emission.Partitions (items : List α) (e : Emission α σ) : Prop where
  posts_le : e.posts.length ≤ 2 * items.length - 1
  whole : e.err = none → e.delivered = items
  part : e.err ≠ none → e.delivered <+: items

theorem emitSplitting_partitions (encode : List α → Except EncodeError (List UInt8))
    (gzipError : String) (wire : Wire σ) (maxBytes : Int) {items : List α} (hne : items ≠ [])
    (server : σ) : (emitSplitting encode gzipError wire maxBytes items server).Partitions items := by
  have hsplit : ∀ p : Post α, p.settled = false → p.err.isNone = false := by
    intro p hp
    by_contra hsent
    have hnone : p.err = none := by simpa using hsent
    rw [Post.settled_of_sent hnone] at hp
    cases hp
  obtain ⟨hwhole, hpart⟩ := emitSplitting_itemsOf gzipError hsplit (by simp) items server
  exact ⟨emitSplitting_posts_length gzipError items server hne, hwhole, fun _ => hpart⟩

/-- **Splitting is a partition.**  Whatever the encoding, the compression and the server are, and
whatever `MaxBytes` is, a list of `n ≥ 1` samples, or records, is sent with at most `2n - 1` posts;
those that succeed hold the list, in order and each item once, if nothing is returned, and else a
prefix of it. -/
theorem payload_splitting_partitions {V σ : Type} (o : Lib.MapOrder) (wire : Wire σ) (e : Emitter)
    (server : σ) :
    (∀ marshal (samples : List (Sample V)), samples ≠ [] →
      (e.emitSamples o marshal wire samples server).Partitions samples) ∧
    (∀ marshal (logs : List LogRecord), logs ≠ [] →
      (e.emitLogs o marshal wire logs server).Partitions logs) ∧
    ∀ (α : Type) encode gzipError (items : List α), items ≠ [] →
      (emitSplitting encode gzipError wire e.maxBytes items server).Partitions items := by
  refine ⟨?_, ?_, ?_⟩
  · intro marshal samples hne
    exact emitSplitting_partitions _ _ wire e.maxBytes hne server
  · intro marshal logs hne
    exact emitSplitting_partitions _ _ wire e.maxBytes hne server
  · intro α encode gzipError items hne
    exact emitSplitting_partitions encode gzipError wire e.maxBytes hne server

/-- A server that gives the answers listed, and accepts after them. -/
def scripted : Wire (List (Option EmitError)) :=
  { gzip := fun body => .ok body
    post := fun _ answers => ((1, answers.head?.join), answers.tail) }

/-- Three items of one byte, at most one byte a request: three posts, which hold them in order. -/
theorem payload_splitting_three :
    let e := emitSplitting (fun items : List UInt8 => .ok items) "" scripted 1 [1, 2, 3] []
    e.err = none ∧ e.posts.length ≤ 5 ∧ e.delivered = [1, 2, 3] := by
  have hparts := (payload_splitting_partitions (V := Int) .stored scripted
    { identity := .empty, maxBytes := 1 } []).2.2 UInt8 (fun items => .ok items) "" [1, 2, 3]
    (by decide)
  have hok : (emitSplitting (fun items : List UInt8 => .ok items) "" scripted 1 [1, 2, 3] []).err =
      none := by
    decide +kernel
  exact ⟨hok, hparts.posts_le, hparts.whole hok⟩

/-! ### What is advanced past -/

section

variable (encode : List α → Except EncodeError (List UInt8)) (wire : Wire σ) (maxBytes : Int)

/-- What the emission of a list comes to, if it is the server that decides it: its answer to a post
of the whole list, to the first half if that is refused, and else to the second. -/
inductive ComesTo : List α → σ → Option EmitError → σ → Prop
  | whole {items : List α} {server server' : σ} {r : Option EmitError}
      (hwhole : halvedAt encode wire maxBytes items server = none)
      (hanswer : answer? encode wire items server = some (r, server')) :
      ComesTo items server r server'
  | refused {items : List α} {server server₁ server₂ : σ} {before : List (Post α)} {err : EmitError}
      (hhalved : halvedAt encode wire maxBytes items server = some (before, server₁))
      (hfirst : ComesTo (items.take (items.length / 2)) server₁ (some err) server₂) :
      ComesTo items server (some err) server₂
  | taken {items : List α} {server server₁ server₂ server₃ : σ} {before : List (Post α)}
      {r : Option EmitError}
      (hhalved : halvedAt encode wire maxBytes items server = some (before, server₁))
      (hfirst : ComesTo (items.take (items.length / 2)) server₁ none server₂)
      (hsecond : ComesTo (items.drop (items.length / 2)) server₂ r server₃) :
      ComesTo items server r server₃

variable {encode wire maxBytes} (gzipError : String)

/-- An emission returns what it comes to. -/
theorem ComesTo.emission {items : List α} {server server' : σ} {r : Option EmitError}
    (h : ComesTo encode wire maxBytes items server r server') :
    (emitSplitting encode gzipError wire maxBytes items server).err = r ∧
      (emitSplitting encode gzipError wire maxBytes items server).server = server' := by
  induction h with
  | whole hwhole hanswer =>
    rcases emitSplitting_whole gzipError hwhole with ⟨err, -, hnone, -⟩ | ⟨p, s, -, -, hsome, heq⟩
    · cases hnone.symm.trans hanswer
    · obtain ⟨rfl, rfl⟩ := Prod.mk.inj (Option.some.inj (hsome.symm.trans hanswer))
      rw [heq]
      exact ⟨rfl, rfl⟩
  | refused hhalved _ ih =>
    rw [emitSplitting_first_failed gzipError hhalved (by rw [ih.1]; simp)]
    exact ih
  | taken hhalved _ _ ihFirst ihSecond =>
    rw [emitSplitting_first_passed gzipError hhalved ihFirst.1, ihFirst.2]
    exact ihSecond

end

section

variable {encode : List α → Except EncodeError (List UInt8)} {wire : Wire σ} {maxBytes : Int}
  (gzipError : String)

variable {items : List α} {server server' : σ} {before : List (Post α)}

end

end GenaiBridge
