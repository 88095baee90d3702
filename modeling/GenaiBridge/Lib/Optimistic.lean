/-
Optimistic concurrency: read, check, write on condition that nothing changed.

A store is a family of cells.  A client call reads its cell, prepares a write request
from what it read, sends it, and on a conflict starts over.  The store performs a
request atomically, and only if the condition in it holds of the cell at that moment.

Nothing is assumed about messages.  A request that was sent may take effect at any
later time, more than once, before or after its caller gave up on it; a caller may be
told of a conflict or an error whatever happened.  Only a success has to be true.

The condition compares a *stamp* of the cell with that of the snapshot the request was
prepared from.  Where the stamps of the values a cell has held are distinct, an equal
stamp means an equal value, and a write that takes effect does so on the very value it
was prepared from (`Step.effect`).  Every property of the store then follows from what
one read-check-write does to one value.
-/
import Mathlib.Data.List.Nodup
import Mathlib.Logic.Function.Basic
import Mathlib.Logic.Relation

namespace Lib.Optimistic

/-- The value of a cell, and the values it had before, newest first. -/
structure Cell (σ : Type) where
  current : σ
  earlier : List σ := []

namespace Cell

variable {σ : Type}

/-- All values a cell has had, newest first. -/
def values (c : Cell σ) : List σ := c.current :: c.earlier

/-- Replace the value. -/
def write (c : Cell σ) (v : σ) : Cell σ := ⟨v, c.values⟩

@[simp] theorem write_current (c : Cell σ) (v : σ) : (c.write v).current = v := rfl

@[simp] theorem write_values (c : Cell σ) (v : σ) : (c.write v).values = v :: c.values := rfl

theorem current_mem (c : Cell σ) : c.current ∈ c.values := List.mem_cons_self

end Cell

/-- A read-check-write client. -/
structure Client (Arg Loc σ Req Err : Type) where
  /-- The cell a call works on. -/
  loc : Arg → Loc
  /-- The refusal of an argument before the store is touched. -/
  refuses : Arg → Option Err
  /-- The request to send, from what was read. -/
  prepare : Arg → σ → Except Err Req
  /-- How often a conflict is retried. -/
  retries : Nat
  readFailed : Arg → String → Err
  writeFailed : Arg → String → Err
  exhausted : Arg → Err

/-- How far a call is. -/
inductive Call (Arg Err : Type)
  | idle
  | reading (arg : Arg) (attempt : Nat)
  | writing (arg : Arg) (attempt : Nat)
  | done (arg : Arg) (result : Except Err Unit)

/-- A request that was sent: by which attempt of which call, and from which snapshot. -/
structure Sent (Arg σ Req : Type) where
  call : Nat
  attempt : Nat
  arg : Arg
  snapshot : σ
  req : Req

/-- A request that took effect. -/
structure Commit (Arg : Type) where
  call : Nat
  attempt : Nat
  arg : Arg

/-- The store, its clients, and every request between them. -/
structure System (Arg Loc σ Req Err : Type) where
  cells : Loc → Cell σ
  calls : Nat → Call Arg Err
  sent : List (Sent Arg σ Req)
  /-- What took effect, newest first. -/
  log : List (Commit Arg)

variable {Arg Loc σ Req Err : Type} [DecidableEq Loc]

/-- A system nobody has used: any contents, no call begun. -/
def System.fresh (contents : Loc → σ) : System Arg Loc σ Req Err where
  cells l := ⟨contents l, []⟩
  calls _ := .idle
  sent := []
  log := []

section Steps

variable (P : Client Arg Loc σ Req Err) (applies : Req → σ → σ → Prop)

/-- One step of one party. -/
inductive Step : System Arg Loc σ Req Err → System Arg Loc σ Req Err → Prop
  | start {s} (c : Nat) (arg : Arg) (hidle : s.calls c = .idle) (hok : P.refuses arg = none) :
      Step s { s with calls := Function.update s.calls c (.reading arg 0) }
  | refuse {s} (c : Nat) (arg : Arg) (e : Err) (hidle : s.calls c = .idle)
      (he : P.refuses arg = some e) :
      Step s { s with calls := Function.update s.calls c (.done arg (.error e)) }
  | send {s} (c : Nat) (arg : Arg) (n : Nat) (req : Req) (hcall : s.calls c = .reading arg n)
      (hreq : P.prepare arg (s.cells (P.loc arg)).current = .ok req) :
      Step s { s with
        calls := Function.update s.calls c (.writing arg n)
        sent := ⟨c, n, arg, (s.cells (P.loc arg)).current, req⟩ :: s.sent }
  | reject {s} (c : Nat) (arg : Arg) (n : Nat) (e : Err) (hcall : s.calls c = .reading arg n)
      (he : P.prepare arg (s.cells (P.loc arg)).current = .error e) :
      Step s { s with calls := Function.update s.calls c (.done arg (.error e)) }
  | readFails {s} (c : Nat) (arg : Arg) (n : Nat) (cause : String)
      (hcall : s.calls c = .reading arg n) :
      Step s { s with calls := Function.update s.calls c (.done arg (.error (P.readFailed arg cause))) }
  | land {s} (r : Sent Arg σ Req) (v : σ) (hsent : r ∈ s.sent)
      (happlies : applies r.req (s.cells (P.loc r.arg)).current v) :
      Step s { s with
        cells := Function.update s.cells (P.loc r.arg) ((s.cells (P.loc r.arg)).write v)
        log := ⟨r.call, r.attempt, r.arg⟩ :: s.log }
  | ack {s} (c : Nat) (arg : Arg) (n : Nat) (hcall : s.calls c = .writing arg n)
      (hlanded : (⟨c, n, arg⟩ : Commit Arg) ∈ s.log) :
      Step s { s with calls := Function.update s.calls c (.done arg (.ok ())) }
  | retry {s} (c : Nat) (arg : Arg) (n : Nat) (hcall : s.calls c = .writing arg n)
      (hleft : n < P.retries) :
      Step s { s with calls := Function.update s.calls c (.reading arg (n + 1)) }
  | giveUp {s} (c : Nat) (arg : Arg) (n : Nat) (hcall : s.calls c = .writing arg n)
      (hspent : P.retries ≤ n) :
      Step s { s with calls := Function.update s.calls c (.done arg (.error (P.exhausted arg))) }
  | writeFails {s} (c : Nat) (arg : Arg) (n : Nat) (cause : String)
      (hcall : s.calls c = .writing arg n) :
      Step s { s with calls := Function.update s.calls c (.done arg (.error (P.writeFailed arg cause))) }

/-- Any number of steps of any parties. -/
def Run : System Arg Loc σ Req Err → System Arg Loc σ Req Err → Prop :=
  Relation.ReflTransGen (Step P applies)

end Steps

variable {P : Client Arg Loc σ Req Err} {applies : Req → σ → σ → Prop}
  {s t : System Arg Loc σ Req Err}

/-! ### What a step does to the store -/

/-- A step leaves the store and the log alone, or it is one request taking effect. -/
theorem Step.store (h : Step P applies s t) :
    (t.cells = s.cells ∧ t.log = s.log) ∨
    ∃ r ∈ s.sent, ∃ v, applies r.req (s.cells (P.loc r.arg)).current v ∧
      t.cells = Function.update s.cells (P.loc r.arg) ((s.cells (P.loc r.arg)).write v) ∧
      t.log = ⟨r.call, r.attempt, r.arg⟩ :: s.log := by
  cases h with
  | land r v hsent happlies => exact Or.inr ⟨r, hsent, v, happlies, rfl, rfl⟩
  | _ => exact Or.inl ⟨rfl, rfl⟩

/-- A step adds at most one value to a cell. -/
theorem Step.values (h : Step P applies s t) (l : Loc) :
    (t.cells l).values = (s.cells l).values ∨
      ∃ v, (t.cells l).values = v :: (s.cells l).values := by
  rcases h.store with ⟨hcells, -⟩ | ⟨r, -, v, -, hcells, -⟩
  · rw [hcells]
    exact Or.inl rfl
  · rw [hcells]
    by_cases hl : l = P.loc r.arg
    · subst hl
      rw [Function.update_self]
      exact Or.inr ⟨v, rfl⟩
    · rw [Function.update_of_ne hl]
      exact Or.inl rfl

theorem Step.values_suffix (h : Step P applies s t) (l : Loc) :
    (s.cells l).values <:+ (t.cells l).values := by
  rcases h.values l with heq | ⟨v, heq⟩
  · exact heq ▸ List.suffix_refl _
  · exact heq ▸ List.suffix_cons v _

theorem Run.values_suffix (h : Run P applies s t) (l : Loc) :
    (s.cells l).values <:+ (t.cells l).values := by
  induction h with
  | refl => exact List.suffix_refl _
  | tail _ hstep ih => exact ih.trans (hstep.values_suffix l)

/-! ### The invariant -/

/-- What a call's state promises, given what took effect so far. -/
def CallSound (P : Client Arg Loc σ Req Err) (log : List (Commit Arg)) (c : Nat) :
    Call Arg Err → Prop
  | .idle => True
  | .reading arg _ => P.refuses arg = none
  | .writing arg _ => P.refuses arg = none
  | .done arg (.ok ()) => ∃ n, (⟨c, n, arg⟩ : Commit Arg) ∈ log
  | .done _ (.error _) => True

/-- What holds of every reachable system. -/
structure Sound (P : Client Arg Loc σ Req Err) (s : System Arg Loc σ Req Err) : Prop where
  /-- A request's argument was not refused. -/
  accepted : ∀ r ∈ s.sent, P.refuses r.arg = none
  /-- A request was prepared from its snapshot. -/
  prepared : ∀ r ∈ s.sent, P.prepare r.arg r.snapshot = .ok r.req
  /-- A snapshot is a value its cell has had. -/
  seen : ∀ r ∈ s.sent, r.snapshot ∈ (s.cells (P.loc r.arg)).values
  /-- In particular a call that reports success had a request of its own take effect. -/
  calls : ∀ c, CallSound P s.log c (s.calls c)

omit [DecidableEq Loc] in
theorem Sound.fresh (contents : Loc → σ) : Sound P (System.fresh contents) where
  accepted := by intro r hr; cases hr
  prepared := by intro r hr; cases hr
  seen := by intro r hr; cases hr
  calls := fun _ => trivial

omit [DecidableEq Loc] in
/-- Setting the state of one call keeps the promises of all if it keeps its own. -/
private theorem calls_update (h : Sound P s) {c : Nat} {st : Call Arg Err}
    (hst : CallSound P s.log c st) : ∀ c', CallSound P s.log c' (Function.update s.calls c st c') := by
  intro c'
  by_cases hc : c' = c
  · subst hc
    rw [Function.update_self]
    exact hst
  · rw [Function.update_of_ne hc]
    exact h.calls c'

omit [DecidableEq Loc] in
private theorem CallSound.cons {log : List (Commit Arg)} {c : Nat} {st : Call Arg Err}
    (h : CallSound P log c st) (e : Commit Arg) : CallSound P (e :: log) c st := by
  cases st with
  | done arg result =>
    cases result with
    | ok u =>
      obtain ⟨n, hn⟩ := h
      exact ⟨n, List.mem_cons_of_mem _ hn⟩
    | error e => trivial
  | _ => exact h

omit [DecidableEq Loc] in
private theorem Sound.refuses (h : Sound P s) {c : Nat} {arg : Arg} {n : Nat}
    (hcall : s.calls c = .reading arg n ∨ s.calls c = .writing arg n) : P.refuses arg = none := by
  have := h.calls c
  rcases hcall with hc | hc <;> rw [hc] at this <;> exact this

theorem Sound.step (h : Sound P s) (hstep : Step P applies s t) : Sound P t := by
  have hseen : ∀ r ∈ s.sent, r.snapshot ∈ (t.cells (P.loc r.arg)).values := fun r hr =>
    (hstep.values_suffix (P.loc r.arg)).subset (h.seen r hr)
  cases hstep with
  | send c arg n req hcall hreq =>
    have harg := h.refuses (Or.inl hcall)
    refine ⟨?_, ?_, ?_, calls_update h harg⟩
    · intro r hr
      rcases List.mem_cons.mp hr with rfl | hr
      · exact harg
      · exact h.accepted r hr
    · intro r hr
      rcases List.mem_cons.mp hr with rfl | hr
      · exact hreq
      · exact h.prepared r hr
    · intro r hr
      rcases List.mem_cons.mp hr with rfl | hr
      · exact Cell.current_mem _
      · exact h.seen r hr
  | land r v hsent happlies =>
    exact ⟨h.accepted, h.prepared, hseen, fun c => (h.calls c).cons _⟩
  | ack c arg n hcall hlanded =>
    exact ⟨h.accepted, h.prepared, hseen, calls_update h ⟨n, hlanded⟩⟩
  | start c arg _ hok => exact ⟨h.accepted, h.prepared, hseen, calls_update h hok⟩
  | retry c arg n hcall _ =>
    exact ⟨h.accepted, h.prepared, hseen, calls_update h (h.refuses (Or.inr hcall))⟩
  | _ => exact ⟨h.accepted, h.prepared, hseen, calls_update h trivial⟩

theorem Sound.run (h : Sound P s) (hrun : Run P applies s t) : Sound P t := by
  induction hrun with
  | refl => exact h
  | tail _ hstep ih => exact ih.step hstep

/-! ### The arguments in use -/

/-- The argument of a call. -/
def Call.arg? : Call Arg Err → Option Arg
  | .idle => none
  | .reading arg _ => some arg
  | .writing arg _ => some arg
  | .done arg _ => some arg

/-- Every call, request and commit is for an argument in `A`. -/
structure Within (A : Arg → Prop) (s : System Arg Loc σ Req Err) : Prop where
  calls : ∀ c arg, (s.calls c).arg? = some arg → A arg
  sent : ∀ r ∈ s.sent, A r.arg
  log : ∀ e ∈ s.log, A e.arg

omit [DecidableEq Loc] in
theorem Within.fresh (A : Arg → Prop) (contents : Loc → σ) :
    Within A (.fresh contents : System Arg Loc σ Req Err) where
  calls := by intro c arg h; cases h
  sent := by intro r hr; cases hr
  log := by intro e he; cases he

omit [DecidableEq Loc] in
private theorem Within.setCall {A : Arg → Prop} (h : Within A s) {c : Nat} {st : Call Arg Err}
    (hst : ∀ arg, st.arg? = some arg → A arg) :
    ∀ c' arg, (Function.update s.calls c st c').arg? = some arg → A arg := by
  intro c' arg harg
  by_cases hc : c' = c
  · rw [hc, Function.update_self] at harg
    exact hst arg harg
  · rw [Function.update_of_ne hc] at harg
    exact h.calls c' arg harg

/-- If calls only begin with arguments in `A`, nothing else is ever in use. -/
theorem Within.step {A : Arg → Prop} (h : Within A s) (hstep : Step P applies s t)
    (hbegin : ∀ c arg, s.calls c = .idle → (t.calls c).arg? = some arg → A arg) : Within A t := by
  -- a call that goes on keeps its argument
  have hkeep : ∀ c arg st, s.calls c = st → st.arg? = some arg → A arg := by
    rintro c arg st rfl harg
    exact h.calls c arg harg
  cases hstep with
  | start c arg hidle hok =>
    refine ⟨h.setCall fun _ harg => hbegin c _ hidle ?_, h.sent, h.log⟩
    exact (congrArg Call.arg? (Function.update_self c _ s.calls)).trans harg
  | refuse c arg e hidle he =>
    refine ⟨h.setCall fun _ harg => hbegin c _ hidle ?_, h.sent, h.log⟩
    exact (congrArg Call.arg? (Function.update_self c _ s.calls)).trans harg
  | send c arg n req hcall hreq =>
    refine ⟨h.setCall fun _ harg => hkeep c _ _ hcall harg, ?_, h.log⟩
    intro r hr
    rcases List.mem_cons.mp hr with rfl | hr
    · exact hkeep c _ _ hcall rfl
    · exact h.sent r hr
  | reject c arg n e hcall he =>
    exact ⟨h.setCall fun _ harg => hkeep c _ _ hcall harg, h.sent, h.log⟩
  | readFails c arg n cause hcall =>
    exact ⟨h.setCall fun _ harg => hkeep c _ _ hcall harg, h.sent, h.log⟩
  | land r v hsent happlies =>
    refine ⟨h.calls, h.sent, ?_⟩
    intro e he
    rcases List.mem_cons.mp he with rfl | he
    · exact h.sent r hsent
    · exact h.log e he
  | ack c arg n hcall hlanded =>
    exact ⟨h.setCall fun _ harg => hkeep c _ _ hcall harg, h.sent, h.log⟩
  | retry c arg n hcall hleft =>
    exact ⟨h.setCall fun _ harg => hkeep c _ _ hcall harg, h.sent, h.log⟩
  | giveUp c arg n hcall hspent =>
    exact ⟨h.setCall fun _ harg => hkeep c _ _ hcall harg, h.sent, h.log⟩
  | writeFails c arg n cause hcall =>
    exact ⟨h.setCall fun _ harg => hkeep c _ _ hcall harg, h.sent, h.log⟩

/-! ### Distinct stamps make a conditional write a compare-and-swap -/

section Stamps

variable {τ : Type} (stamp : σ → τ)

/-- No two values a cell has had bear the same stamp. -/
def Distinct (s : System Arg Loc σ Req Err) : Prop := ∀ l, ((s.cells l).values.map stamp).Nodup

/-- A request only takes effect on a value with the stamp of its snapshot. -/
def Conditional (P : Client Arg Loc σ Req Err) (applies : Req → σ → σ → Prop) : Prop :=
  ∀ arg snapshot req cur v, P.prepare arg snapshot = .ok req → applies req cur v →
    stamp cur = stamp snapshot

variable {stamp}

/-- A request that takes effect on the value it was prepared from. -/
structure Effect (P : Client Arg Loc σ Req Err) (applies : Req → σ → σ → Prop) (arg : Arg)
    (cur v : σ) : Prop where
  accepted : P.refuses arg = none
  applied : ∃ req, P.prepare arg cur = .ok req ∧ applies req cur v

/-- **A write that takes effect does so on the value it was prepared from.** -/
theorem Step.effect (hsound : Sound P s) (hcond : Conditional stamp P applies)
    (hdist : Distinct stamp s) (h : Step P applies s t) :
    (t.cells = s.cells ∧ t.log = s.log) ∨
    ∃ e v, Effect P applies e.arg (s.cells (P.loc e.arg)).current v ∧
      t.cells = Function.update s.cells (P.loc e.arg) ((s.cells (P.loc e.arg)).write v) ∧
      t.log = e :: s.log := by
  rcases h.store with hsame | ⟨r, hr, v, happlies, hcells, hlog⟩
  · exact Or.inl hsame
  · have hprep := hsound.prepared r hr
    have heq : (s.cells (P.loc r.arg)).current = r.snapshot :=
      List.inj_on_of_nodup_map (hdist (P.loc r.arg)) (Cell.current_mem _) (hsound.seen r hr)
        (hcond r.arg r.snapshot r.req _ v hprep happlies)
    refine Or.inr ⟨⟨r.call, r.attempt, r.arg⟩, v, ⟨hsound.accepted r hr, r.req, ?_, happlies⟩,
      hcells, hlog⟩
    rw [heq]
    exact hprep

/-- Stamps that each write derives from the stamp before it are distinct, as long as a chain of
such stamps is: `Short` bounds the chains for which it is. -/
theorem distinct_of_chain (R : σ → σ → Prop) (Short : List σ → Prop) {contents : Loc → σ}
    (hsuffix : ∀ l l' : List σ, l <:+ l' → Short l' → Short l)
    (hR : ∀ arg cur v, Effect P applies arg cur v → R v cur)
    (hnodup : ∀ l : List σ, l.IsChain R → Short l → (l.map stamp).Nodup)
    (hcond : Conditional stamp P applies)
    (hrun : Run P applies (System.fresh contents) t)
    (hshort : ∀ l, Short (t.cells l).values) : Distinct stamp t := by
  suffices hchain : ∀ l, (t.cells l).values.IsChain R from
    fun l => hnodup _ (hchain l) (hshort l)
  induction hrun with
  | refl => exact fun l => List.IsChain.singleton _
  | tail hfront hstep ih =>
    have hshort' : ∀ l, Short _ := fun l => hsuffix _ _ (hstep.values_suffix l) (hshort l)
    have hchain := ih hshort'
    rcases hstep.effect ((Sound.fresh contents).run hfront) hcond
        (fun l => hnodup _ (hchain l) (hshort' l)) with ⟨hcells, -⟩ | ⟨e, v, heffect, hcells, -⟩
    · rw [hcells]
      exact hchain
    · intro l
      rw [hcells]
      by_cases hl : l = P.loc e.arg
      · subst hl
        rw [Function.update_self, Cell.write_values]
        exact List.IsChain.cons_cons (hR _ _ _ heffect) (hchain _)
      · rw [Function.update_of_ne hl]
        exact hchain l

end Stamps

end Lib.Optimistic
