/-
No two processes lead at one time.

The fence keeps the stored positions right whatever clocks do; that two schedulers do
not run at once is a matter of time.  The argument has two halves that meet in the
lock item.  The lock half: a request that committed keeps the item its sender's until
`lease` after its reading of the clock, less what clocks and a late request of the same
sender can take off (`Timed.kept`).  The process half: a live term has a committed
request whose reading is not older than `renewDeadline` and what the network and the
runtime can add (`Term.Timely`).  A deployment is safe when the second is not longer
than the first.
-/
import GenaiBridge.Proofs.Coordinator

namespace GenaiBridge

/-- `t.UnixMilli()` does not wrap. -/
def Time.InUnixMilliRange (t : Int) : Prop :=
  -2 ^ 63 ≤ (t - Time.unixEpoch) / 1000000 ∧ (t - Time.unixEpoch) / 1000000 < 2 ^ 63

/-- Milliseconds that are later are those of a later time. -/
theorem Time.lt_of_unixMilli_lt {a b : Int} (ha : Time.InUnixMilliRange a)
    (hb : Time.InUnixMilliRange b) (h : (Time.unixMilli a).toInt < (Time.unixMilli b).toInt) :
    a < b := by
  unfold Time.unixMilli at h
  rw [Int64.toInt_ofInt_of_le ha.1 ha.2, Int64.toInt_ofInt_of_le hb.1 hb.2] at h
  omega

namespace Lease

open DynamoDB (nstr sstr)

/-! ### A term and its watchdog -/

/-- The times a live term goes by: `P` holds of the times a success was reported at. -/
structure Term.Timely (P : Int → Prop) (renewDeadline slack now : Int) (t : Term) : Prop where
  watched : t.watchdog ≠ .returned
  starting : ∀ since, t.watchdog = .starting since → P since
  armed : ∀ deadline, t.watchdog = .armed deadline →
    ∃ a, P a ∧ deadline ≤ a + slack + renewDeadline
  signalled : ∀ sent, t.renewOK = some sent → P sent
  prompt : t.Prompt slack now

section Timely

variable {P Q : Int → Prop} {renewDeadline slack now : Int} {ctx : Bool} {t t' : Term}

theorem Term.Timely.mono (h : t.Timely P renewDeadline slack now) (hPQ : ∀ a, P a → Q a) :
    t.Timely Q renewDeadline slack now where
  watched := h.watched
  starting := fun since hs => hPQ _ (h.starting since hs)
  armed := by
    intro deadline hd
    obtain ⟨a, ha, hle⟩ := h.armed deadline hd
    exact ⟨a, hPQ a ha, hle⟩
  signalled := fun sent hs => hPQ _ (h.signalled sent hs)
  prompt := h.prompt

theorem Term.Timely.lead (hslack : 0 ≤ slack) (hP : P now) (n : Nat) (fence : Int64) :
    (Term.lead n fence now).Timely P renewDeadline slack now where
  watched := by intro h; cases h
  starting := by
    intro since hs
    obtain rfl : now = since := Watchdog.starting.inj hs
    exact hP
  armed := by intro deadline hd; cases hd
  signalled := by intro sent hs; cases hs
  prompt := by
    refine ⟨?_, ?_, ?_⟩
    · intro since hs
      obtain rfl : now = since := Watchdog.starting.inj hs
      omega
    · intro deadline hd; cases hd
    · intro sent hs; cases hs

theorem Term.Timely.signal (h : t.Timely P renewDeadline slack now) (hslack : 0 ≤ slack)
    (hP : P now) : (t.signal now).Timely P renewDeadline slack now := by
  unfold Term.signal
  cases hok : t.renewOK with
  | some sent => exact h
  | none =>
    refine ⟨h.watched, h.starting, h.armed, ?_, h.prompt.starts, h.prompt.fires, ?_⟩
    · intro sent hs
      obtain rfl : now = sent := Option.some.inj hs
      exact hP
    · intro sent hs
      obtain rfl : now = sent := Option.some.inj hs
      omega

/-- A timer made or reset now, on account of something that came to pass at most `slack` ago. -/
private theorem timely_armed (hdur : 0 ≤ renewDeadline) (hslack : 0 ≤ slack) {a : Int} (ha : P a)
    (hle : now ≤ a + slack) {ok : Option Int} (hok : ∀ sent, ok = some sent → P sent)
    (hears : ∀ sent, ok = some sent → now ≤ sent + slack) :
    ({ t with watchdog := .armed (now + renewDeadline), renewOK := ok } : Term).Timely P
      renewDeadline slack now where
  watched := by intro h; cases h
  starting := by intro since hs; cases hs
  armed := by
    intro deadline hd
    obtain rfl : now + renewDeadline = deadline := Watchdog.armed.inj hd
    exact ⟨a, ha, by omega⟩
  signalled := hok
  prompt := by
    refine ⟨?_, ?_, hears⟩
    · intro since hs; cases hs
    · intro deadline hd
      obtain rfl : now + renewDeadline = deadline := Watchdog.armed.inj hd
      omega

/-- A goroutine of a term takes a step that leaves `leaderCtx` as it is. -/
theorem Term.Timely.step (hdur : 0 ≤ renewDeadline) (hslack : 0 ≤ slack)
    (h : t.Timely P renewDeadline slack now) (hstep : t.Step renewDeadline now ctx t')
    (hlive : (ctx || t'.cancelled) = false) : t'.Timely P renewDeadline slack now := by
  cases hstep with
  | arm since hw =>
    exact timely_armed hdur hslack (h.starting since hw) (h.prompt.starts since hw)
      h.signalled h.prompt.hears
  | reset deadline sent hw hok =>
    exact timely_armed hdur hslack (h.signalled sent hok) (h.prompt.hears sent hok)
      (by intro _ hs; cases hs) (by intro _ hs; cases hs)
  | expire deadline hw hdue => rw [Bool.or_true] at hlive; cases hlive
  | leave deadline hw hdone => rw [hdone] at hlive; cases hlive
  | finish =>
    exact ⟨h.watched, h.starting, h.armed, h.signalled, h.prompt.starts, h.prompt.fires,
      h.prompt.hears⟩

/-- While a term is live, some reported success is recent. -/
theorem Term.Timely.recent (hdur : 0 ≤ renewDeadline) (hslack : 0 ≤ slack)
    (h : t.Timely P renewDeadline slack now) :
    ∃ a, P a ∧ now ≤ a + 2 * slack + renewDeadline := by
  cases hw : t.watchdog with
  | starting since =>
    have := h.prompt.starts since hw
    exact ⟨since, h.starting since hw, by omega⟩
  | armed deadline =>
    have := h.prompt.fires deadline hw
    obtain ⟨a, ha, hle⟩ := h.armed deadline hw
    exact ⟨a, ha, by omega⟩
  | returned => exact absurd hw h.watched

end Timely

/-- Every live term of a process is timely. -/
def Replica.Timely (P : Int → Prop) (renewDeadline slack now : Int) (p : Replica) : Prop :=
  ∀ t ∈ p.terms, p.live t = true → t.Timely P renewDeadline slack now

section Replica

variable {P Q : Int → Prop} {renewDeadline slack now : Int} {p p' : Replica} {t : Term}

private theorem live_iff : p.live t = true ↔ (p.cancelled || t.cancelled) = false := by
  unfold Replica.live
  cases p.cancelled <;> cases t.cancelled <;> decide

private theorem not_live_cancel : p.live t.cancel = false := by
  unfold Replica.live Term.cancel
  exact Bool.and_false _

theorem Replica.Timely.mono (h : p.Timely P renewDeadline slack now) (hPQ : ∀ a, P a → Q a) :
    p.Timely Q renewDeadline slack now := fun t ht hlive => (h t ht hlive).mono hPQ

theorem Replica.Timely.cancelHead (h : p.Timely P renewDeadline slack now) {rest : List Term}
    (hterms : p.terms = t :: rest) (main : Main) :
    ({ p with main := main, terms := t.cancel :: rest } : Replica).Timely P renewDeadline slack
      now := by
  intro t₀ ht₀ hlive
  rcases List.mem_cons.mp ht₀ with rfl | ht₀
  · exact absurd (hlive.symm.trans (not_live_cancel (p := p))) (by decide)
  · exact h t₀ (by rw [hterms]; exact List.mem_cons_of_mem _ ht₀) hlive

theorem Replica.Timely.step (hdur : 0 ≤ renewDeadline) (hslack : 0 ≤ slack)
    (h : p.Timely P renewDeadline slack now) (hstep : p.Step renewDeadline now p') :
    p'.Timely P renewDeadline slack now := by
  cases hstep with
  | cancel => intro t ht hlive; exact absurd hlive (by simp [Replica.live])
  | giveUp => exact h
  | retry => exact h
  | stopWaiting => exact h
  | stop t rest hmain hterms hcase => exact h.cancelHead hterms _
  | steppedDown => exact h
  | drained t rest hmain hterms hwatchdog hdone => exact h.cancelHead hterms _
  | goroutine newer t t' older hterms hterm =>
    intro t₀ ht₀ hlive
    have hold : ∀ t₁ ∈ newer ++ t :: older, p.live t₁ = true →
        t₁.Timely P renewDeadline slack now := by
      rw [← hterms]
      exact h
    simp only [List.mem_append, List.mem_cons] at ht₀ hold
    rcases ht₀ with ht₀ | rfl | ht₀
    · exact hold t₀ (Or.inl ht₀) hlive
    · have hout := live_iff.mp hlive
      -- a step never takes a cancellation back, so the term was live before it
      have hbefore : p.live t = true := by
        refine live_iff.mpr ?_
        cases hterm with
        | expire => rw [Bool.or_true] at hout; cases hout
        | arm => exact hout
        | reset => exact hout
        | leave => exact hout
        | finish => exact hout
      exact (hold t (Or.inr (Or.inl rfl)) hbefore).step hdur hslack hterm hout
    · exact hold t₀ (Or.inr (Or.inr ht₀)) hlive

end Replica

/-! ### What is asked of a deployment -/

/-- Replicas with names and leases that suit the timings; every reading a clock may give between
the start and the horizon is in the range of `UnixMilli`. -/
structure Suits (T : Timing) (M : Nat → Member) (origin horizon : Int) : Prop where
  identities : ∀ r r', (M r).coordinator.identity = (M r').coordinator.identity → r = r'
  clocks : ∀ r a reading, origin ≤ a → a ≤ horizon → T.Reads a reading →
    Time.InUnixMilliRange reading ∧ Time.InUnixMilliRange (reading + (M r).coordinator.lease)
  slack : 0 ≤ T.slack
  renewDeadline : ∀ r, 0 ≤ (M r).renewDeadline
  /-- The lease outlasts the deadline by what clocks, network and runtime can take. -/
  margin : ∀ r,
    (M r).renewDeadline + 2 * T.slack + 2 * T.delay + 2 * T.skew ≤ (M r).coordinator.lease

section Cluster

variable {T : Timing} {M : Nat → Member} {origin horizon : Int} {s u : Cluster}

/-- The request of a coordinator on a reading of the clock. -/
def Coordinator.Asks (c : Coordinator) (reading : Int) (req : Request) : Prop :=
  req = c.acquire reading ∨ ∃ fence, req = c.renew fence reading

/-- The item is held by the process a call is of. -/
def Cluster.HeldFor (M : Nat → Member) (s : Cluster) (n : Nat) (i : LockItem) : Prop :=
  i.holder = some (sstr (M (s.owner n)).coordinator.identity)

/-- The expiry a coordinator writes on a reading of the clock. -/
def Coordinator.expiry (c : Coordinator) (reading : Int) : DynamoDB.AttributeValue :=
  nstr (Time.unixMilli (reading + c.lease))

/-- A time at most `delay` after the reading of some request of the process that committed. -/
def Cluster.Granted (T : Timing) (s : Cluster) (r : Nat) (a : Int) : Prop :=
  ∃ e ∈ s.lock.log, s.owner e.call = r ∧ a ≤ s.readAt e.call + T.delay

/-- What holds of the times of a cluster in every reachable state. -/
structure Cluster.Timed (T : Timing) (M : Nat → Member) (origin : Int) (s : Cluster) : Prop where
  started : origin ≤ s.now
  asked : ∀ n req, (n, req) ∈ s.lock.sent → origin ≤ s.readAt n ∧ s.readAt n ≤ s.now ∧
    ∃ reading, T.Reads (s.readAt n) reading ∧ (M (s.owner n)).coordinator.Asks reading req
  /-- An item held by a process has an expiry of its own, at most `delay` before the newest
  reading of its that committed. -/
  expiry : ∀ e ∈ s.lock.log, ∀ i, s.lock.item = some i → s.HeldFor M e.call i →
    ∃ a reading, origin ≤ a ∧ a ≤ s.now ∧ T.Reads a reading ∧
      i.expiresAtMs = some ((M (s.owner e.call)).coordinator.expiry reading) ∧
      s.readAt e.call ≤ a + T.delay
  /-- A committed request keeps the item for its sender. -/
  kept : ∀ e ∈ s.lock.log,
    s.now ≤ s.readAt e.call + (M (s.owner e.call)).coordinator.lease - T.delay - 2 * T.skew →
    ∃ i, s.lock.item = some i ∧ s.HeldFor M e.call i
  timely : ∀ r, (s.replicas r).Timely (s.Granted T r) (M r).renewDeadline T.slack s.now

theorem Cluster.Timed.fresh (now : Int) (item : Option LockItem) :
    Cluster.Timed T M now (.fresh now item) where
  started := le_refl now
  asked := by intro n req h; cases h
  expiry := by intro e h; cases h
  kept := by intro e h; cases h
  timely := by intro r t h; cases h

/-! ### A request carried out -/

/-- The item it leaves is the sender's, with the sender's expiry; the item it found, if any, was
the sender's, too, or had expired by the sender's clock. -/
theorem Coordinator.Asks.applied {c : Coordinator} {reading : Int} {n : Nat} {req : Request}
    {cur : Option LockItem} {item : LockItem} {e : Event} (hasks : c.Asks reading req)
    (happly : apply n req cur = some (item, e)) :
    item.holder = some (sstr c.identity) ∧ item.expiresAtMs = some (c.expiry reading) ∧
      ∀ i, cur = some i → i.holder = some (sstr c.identity) ∨ i.expiresAtMs = none ∨
        numLess i.expiresAtMs (Time.unixMilli reading) = true := by
  rcases hasks with rfl | ⟨fence, rfl⟩
  · simp only [Coordinator.acquire, apply] at happly
    split at happly
    · rename_i hok
      obtain ⟨q, -, heq⟩ := Option.map_eq_some_iff.mp happly
      obtain ⟨rfl, -⟩ := Prod.mk.inj heq
      refine ⟨rfl, rfl, ?_⟩
      rintro i rfl
      simp only [acquirable, Bool.or_eq_true, Option.isNone_iff_eq_none, beq_iff_eq] at hok
      rcases hok with (hnone | hless) | hmine
      · exact Or.inr (Or.inl hnone)
      · exact Or.inr (Or.inr hless)
      · exact Or.inl hmine
    · cases happly
  · cases cur with
    | none => cases happly
    | some i =>
      simp only [Coordinator.renew, apply] at happly
      split at happly
      · rename_i hok
        obtain ⟨rfl, -⟩ := Prod.mk.inj (Option.some.inj happly)
        simp only [renewable, Bool.and_eq_true, beq_iff_eq] at hok
        refine ⟨hok.1, rfl, ?_⟩
        rintro i' ⟨⟩
        exact Or.inl hok.1
      · cases happly

/-- An item held for two calls is held for calls of one process. -/
theorem Suits.owner_eq (h : Suits T M origin horizon) {n m : Nat} {i : LockItem}
    (hn : s.HeldFor M n i) (hm : s.HeldFor M m i) : s.owner n = s.owner m := by
  refine h.identities _ _ ?_
  have heq := Option.some.inj (hn.symm.trans hm)
  exact DynamoDB.AttributeValue.s.inj heq

/-- An item that has expired by a clock was written longer than the lease ago, but for what the
two clocks are off. -/
theorem Suits.expired (h : Suits T M origin horizon) {r : Nat} {a b x y : Int}
    (ha : origin ≤ a) (ha' : a ≤ horizon) (hx : T.Reads a x)
    (hb : origin ≤ b) (hb' : b ≤ horizon) (hy : T.Reads b y)
    (hless : numLess (some ((M r).coordinator.expiry x)) (Time.unixMilli y) = true) :
    a + (M r).coordinator.lease - 2 * T.skew < b := by
  have hlt : (Time.unixMilli (x + (M r).coordinator.lease)).toInt < (Time.unixMilli y).toInt := by
    simp only [Coordinator.expiry, nstr, numLess, decide_eq_true_eq, Int.cast_lt] at hless
    exact hless
  have hlater := Time.lt_of_unixMilli_lt (h.clocks r a x ha ha' hx).2 (h.clocks r b y hb hb' hy).1 hlt
  have hslow : a - T.skew ≤ x := hx.1
  have hfast : y ≤ b + T.skew := hy.2
  omega

/-- While a committed request keeps the item, only its sender's requests are carried out. -/
theorem Cluster.Timed.sender (h : s.Timed T M origin) (hsuits : Suits T M origin horizon)
    (hnow : s.now ≤ horizon) {n : Nat} {req : Request} {item : LockItem} {e' : Event}
    (hsent : (n, req) ∈ s.lock.sent) (happly : apply n req s.lock.item = some (item, e'))
    {e : Event} (he : e ∈ s.lock.log)
    (hkept : s.now ≤ s.readAt e.call + (M (s.owner e.call)).coordinator.lease - T.delay - 2 * T.skew) :
    s.owner n = s.owner e.call := by
  obtain ⟨hle, hread, y, hy, hasks⟩ := h.asked n req hsent
  obtain ⟨i, hitem, hheld⟩ := h.kept e he hkept
  obtain ⟨a, x, ha, ha', hx, hexp, hrecent⟩ := h.expiry e he i hitem hheld
  rcases (hasks.applied happly).2.2 i hitem with hmine | hnone | hless
  · exact hsuits.owner_eq hmine hheld
  · rw [hexp] at hnone
    cases hnone
  · rw [hexp] at hless
    have := hsuits.expired ha (ha'.trans hnow) hx hle (hread.trans hnow) hy hless
    omega

theorem Cluster.Timed.land (h : s.Timed T M origin) (hbegun : Begun s.lock)
    (hsuits : Suits T M origin horizon) (hnow : s.now ≤ horizon) {n : Nat} {req : Request}
    {item : LockItem} {e : Event}
    (hsent : (n, req) ∈ s.lock.sent) (happly : apply n req s.lock.item = some (item, e))
    (hdelay : s.now ≤ s.readAt n + T.delay) :
    Cluster.Timed T M origin
      { s with lock := { s.lock with item := some item, log := e :: s.lock.log } } := by
  obtain ⟨hle, hread, x, hx, hasks⟩ := h.asked n req hsent
  obtain ⟨hheld, hexp, -⟩ := hasks.applied happly
  have hcall := apply_call happly
  refine ⟨h.started, h.asked, ?_, ?_, ?_⟩
  · intro e₀ he₀ i hi hheld₀
    obtain rfl : item = i := Option.some.inj hi
    have howner : s.owner e₀.call = s.owner n := hsuits.owner_eq hheld₀ hheld
    refine ⟨s.readAt n, x, hle, hread, hx, ?_, ?_⟩
    · change item.expiresAtMs = some ((M (s.owner e₀.call)).coordinator.expiry x)
      rw [howner]
      exact hexp
    · change s.readAt e₀.call ≤ s.readAt n + T.delay
      rcases List.mem_cons.mp he₀ with rfl | he₀
      · rw [hcall]
        omega
      · -- an earlier request was read before now, and this one is at most `delay` old
        obtain ⟨req₀, hsent₀⟩ := hbegun.heard e₀ he₀
        have := (h.asked _ _ hsent₀).2.1
        omega
  · intro e₀ he₀ hkept
    refine ⟨item, rfl, ?_⟩
    rcases List.mem_cons.mp he₀ with rfl | he₀
    · change s.HeldFor M e₀.call item
      rw [hcall]
      exact hheld
    · have howner := h.sender hsuits hnow hsent happly he₀ hkept
      change item.holder = some (sstr (M (s.owner e₀.call)).coordinator.identity)
      rw [← howner]
      exact hheld
  · intro r
    refine (h.timely r).mono ?_
    rintro a ⟨e₀, he₀, howner, hle⟩
    exact ⟨e₀, List.mem_cons_of_mem _ he₀, howner, hle⟩

/-! ### The other steps -/

/-- What a new call leaves as it was: whose the calls that have begun are, and their readings. -/
theorem Cluster.send_begun {r n m : Nat} {call : Call} {req : Request} {main : Main}
    (hidle : s.lock.calls n = .idle) (hm : s.lock.calls m ≠ .idle) :
    (s.send r n call req main).owner m = s.owner m ∧
      (s.send r n call req main).readAt m = s.readAt m := by
  have hne : m ≠ n := by rintro rfl; exact hm hidle
  exact ⟨Function.update_of_ne hne _ _, Function.update_of_ne hne _ _⟩

theorem Cluster.Timed.send (h : s.Timed T M origin) (hbegun : Begun s.lock) {r n : Nat}
    (hidle : s.lock.calls n = .idle) {call : Call} {req : Request} {main : Main}
    {reading : Int} (hclock : T.Reads s.now reading)
    (hreq : (M r).coordinator.Asks reading req) :
    (s.send r n call req main).Timed T M origin := by
  have hlog : ∀ e ∈ s.lock.log, (s.send r n call req main).owner e.call = s.owner e.call ∧
      (s.send r n call req main).readAt e.call = s.readAt e.call := by
    intro e he
    obtain ⟨req', hsent⟩ := hbegun.heard e he
    exact Cluster.send_begun hidle (hbegun.sent _ _ hsent)
  refine ⟨h.started, ?_, ?_, ?_, ?_⟩
  · intro m req' hm
    rcases List.mem_cons.mp hm with heq | hm
    · obtain ⟨rfl, rfl⟩ := Prod.mk.inj heq
      have howner : (s.send r m call req' main).owner m = r := Function.update_self ..
      have hread : (s.send r m call req' main).readAt m = s.now := Function.update_self ..
      rw [howner, hread]
      exact ⟨h.started, le_refl _, reading, hclock, hreq⟩
    · have hkept : (s.send r n call req main).owner m = s.owner m ∧
          (s.send r n call req main).readAt m = s.readAt m :=
        Cluster.send_begun hidle (hbegun.sent _ _ hm)
      obtain ⟨howner, hread⟩ := hkept
      rw [howner, hread]
      exact h.asked m req' hm
  · intro e he i hi hheld
    obtain ⟨howner, hread⟩ := hlog e he
    rw [Cluster.HeldFor, howner] at hheld
    rw [howner, hread]
    exact h.expiry e he i hi hheld
  · intro e he hkept
    obtain ⟨howner, hread⟩ := hlog e he
    rw [howner, hread] at hkept
    rw [show (s.send r n call req main).HeldFor M e.call = s.HeldFor M e.call by
      unfold Cluster.HeldFor; rw [howner]]
    exact h.kept e he hkept
  · have hgranted : ∀ r' a, s.Granted T r' a → (s.send r n call req main).Granted T r' a := by
      rintro r' a ⟨e, he, howner, hle⟩
      obtain ⟨howner', hread⟩ := hlog e he
      exact ⟨e, he, howner'.trans howner, by rw [hread]; exact hle⟩
    refine (Function.forall_update_iff s.replicas fun r' p => p.Timely
      ((s.send r n call req main).Granted T r') (M r').renewDeadline T.slack s.now).mpr ⟨?_, ?_⟩
    · exact (h.timely r).mono (hgranted r)
    · exact fun r' _ => (h.timely r').mono (hgranted r')

/-- A process moves, and the lock has at most answered. -/
theorem Cluster.Timed.setReplica (h : s.Timed T M origin) (r : Nat) {p : Replica}
    (hp : p.Timely (s.Granted T r) (M r).renewDeadline T.slack s.now) (calls : Nat → Call) :
    Cluster.Timed T M origin { s with
      lock := { s.lock with calls := calls }
      replicas := Function.update s.replicas r p } where
  started := h.started
  asked := h.asked
  expiry := h.expiry
  kept := h.kept
  timely := (Function.forall_update_iff s.replicas fun r' p => p.Timely (s.Granted T r')
    (M r').renewDeadline T.slack s.now).mpr ⟨hp, fun r' _ => h.timely r'⟩

theorem Cluster.Timed.elapse (h : s.Timed T M origin) {now : Int} (hle : s.now ≤ now)
    (hprompt : ∀ r, ∀ t ∈ (s.replicas r).terms, (s.replicas r).live t = true →
      t.Prompt T.slack now) : Cluster.Timed T M origin { s with now := now } where
  started := h.started.trans hle
  asked := by
    intro n req hsent
    obtain ⟨hstart, hread, hasks⟩ := h.asked n req hsent
    exact ⟨hstart, hread.trans hle, hasks⟩
  expiry := by
    intro e he i hi hheld
    obtain ⟨a, reading, ha, ha', hreads, hexp, hrecent⟩ := h.expiry e he i hi hheld
    exact ⟨a, reading, ha, ha'.trans hle, hreads, hexp, hrecent⟩
  kept := fun e he hkept => h.kept e he (hle.trans hkept)
  timely := by
    intro r t ht hlive
    have htimely := h.timely r t ht hlive
    exact ⟨htimely.watched, htimely.starting, htimely.armed, htimely.signalled,
      hprompt r t ht hlive⟩

/-- A success that is reported in time is a grant now. -/
private theorem granted_now {e : Event} (he : e ∈ s.lock.log) {r : Nat}
    (howner : s.owner e.call = r) (hdelay : s.now ≤ s.readAt e.call + T.delay) :
    s.Granted T r s.now := ⟨e, he, howner, hdelay⟩

theorem Cluster.Timed.step (h : s.Timed T M origin) (hord : s.Ordered M)
    (hsuits : Suits T M origin horizon) (hnow : s.now ≤ horizon)
    (hstep : Cluster.Step T M s u) : u.Timed T M origin := by
  cases hstep with
  | elapse now hle hprompt => exact h.elapse hle hprompt
  | land n req item e hsent happly hdelay => exact h.land hord.begun hsuits hnow hsent happly hdelay
  | process r p hp =>
    exact h.setReplica r ((h.timely r).step (hsuits.renewDeadline r) hsuits.slack hp) _
  | acquire r n reading hmain hctx hidle hclock =>
    exact h.send hord.begun hidle hclock (Or.inl rfl)
  | renew r n reading t rest hmain hterms hidle hclock =>
    exact h.send hord.begun hidle hclock (Or.inr ⟨t.fence, rfl⟩)
  | elected r n q fence hmain hlanded hfence hdelay =>
    refine h.setReplica r ?_ _
    intro t ht hlive
    rcases List.mem_cons.mp ht with rfl | ht
    · exact Term.Timely.lead hsuits.slack
        (granted_now hlanded ((hord.wired r).acquiring n hmain).1 hdelay) n fence
    · exact h.timely r t ht hlive
  | acquireFails r n hmain =>
    refine h.setReplica r ?_ _
    exact h.timely r
  | renewed r n t rest hmain hterms hlanded hdelay =>
    refine h.setReplica r ?_ _
    intro t' ht' hlive
    have htimely := h.timely r
    rw [Replica.Timely, hterms] at htimely
    rcases List.mem_cons.mp ht' with rfl | ht'
    · have hbefore : (s.replicas r).live t = true := by
        rw [← hlive]
        unfold Replica.live Term.signal
        cases t.renewOK with
        | none => rfl
        | some _ => rfl
      exact (htimely t List.mem_cons_self hbefore).signal hsuits.slack
        (granted_now hlanded ((hord.wired r).renewing n hmain).1 hdelay)
    · exact htimely t' (List.mem_cons_of_mem _ ht') hlive
  | renewLost r n t rest hmain hterms =>
    exact h.setReplica r ((h.timely r).cancelHead hterms _) _
  | renewFails r n hmain =>
    refine h.setReplica r ?_ _
    exact h.timely r

theorem Cluster.Step.now_le (hstep : Cluster.Step T M s u) : s.now ≤ u.now := by
  cases hstep with
  | elapse now hle hprompt => exact hle
  | _ => exact le_refl _

theorem Cluster.Timed.run (h : s.Timed T M origin) (hord : s.Ordered M)
    (hsuits : Suits T M origin horizon) (hrun : Cluster.Run T M s u) (hnow : u.now ≤ horizon) :
    u.Timed T M origin := by
  induction hrun with
  | refl => exact h
  | tail hrun' hstep ih =>
    have hbefore := hstep.now_le.trans hnow
    exact (ih hbefore).step (hord.run hrun') hsuits hbefore hstep

/-- While a process leads, the item is its own. -/
theorem Cluster.Timed.held_of_leads (h : s.Timed T M origin)
    (hsuits : Suits T M origin horizon) {r : Nat} (hleads : s.Leads r) :
    ∃ i, s.lock.item = some i ∧ i.holder = some (sstr (M r).coordinator.identity) := by
  obtain ⟨t, ht, hlive⟩ := hleads
  obtain ⟨a, ⟨e, he, rfl, hle⟩, hrecent⟩ :=
    (h.timely r t ht hlive).recent (hsuits.renewDeadline r) hsuits.slack
  have hmargin := hsuits.margin (s.owner e.call)
  exact h.kept e he (by omega)

/-- **No two processes lead at one time.**  In every state a deployment reaches whose replicas
have names of their own and whose clocks read within `skew` of the time, however they drift or step
inside that, and whose `lease` is longer than `renewDeadline` by twice what the runtime, the network
and the clocks may each take, at most one process has a leader context that is not done. -/
theorem one_leader_at_a_time (hsuits : Suits T M origin horizon) (item : Option LockItem)
    (hrun : Cluster.Run T M (.fresh origin item) s) (hnow : s.now ≤ horizon) :
    ∀ r r', s.Leads r → s.Leads r' → r = r' := by
  intro r r' hr hr'
  have htimed : s.Timed T M origin :=
    (Cluster.Timed.fresh origin item).run (.fresh origin item) hsuits hrun hnow
  obtain ⟨i, hi, hheld⟩ := htimed.held_of_leads hsuits hr
  obtain ⟨i', hi', hheld'⟩ := htimed.held_of_leads hsuits hr'
  obtain rfl : i = i' := Option.some.inj (hi.symm.trans hi')
  have heq := Option.some.inj (hheld.symm.trans hheld')
  exact hsuits.identities r r' (DynamoDB.AttributeValue.s.inj heq)

/-! ### A takeover -/

/-- The only process that has a term moves on its own, and time passes. -/
theorem Cluster.movesUntil (r : Nat) (now : Int) (p' : Replica) {p : Replica}
    (hreplicas : s.replicas = Function.update (fun _ => .fresh) r p)
    (hmoves : Relation.ReflTransGen (Replica.Step (M r).renewDeadline s.now) p p')
    (hle : s.now ≤ now) (hprompt : ∀ t ∈ p'.terms, p'.live t = true → t.Prompt T.slack now) :
    Cluster.Run T M s
      { s with now := now, replicas := Function.update (fun _ => .fresh) r p' } := by
  have hmoved : Cluster.Run T M s { s with replicas := Function.update s.replicas r p' } :=
    Cluster.moves r (by rw [hreplicas, Function.update_self]; exact hmoves)
  rw [hreplicas, Function.update_idem] at hmoved
  refine hmoved.tail (.elapse now hle ?_)
  refine (Function.forall_update_iff _ fun (_ : Nat) (p : Replica) =>
    ∀ t ∈ p.terms, p.live t = true → t.Prompt T.slack now).mpr ⟨hprompt, ?_⟩
  intro r' _ t ht
  cases ht

/-- Requests of at most a second, goroutines half a second late and clocks half a second off. -/
def defaultTiming : Timing := ⟨1000000000, 500000000, 500000000⟩

/-- Replicas with the default timings, 15 s and 10 s. -/
def defaultReplicas (r : Nat) : Member :=
  ⟨⟨String.ofList (List.replicate r 'r'), 15000000000⟩, 10000000000⟩

theorem defaultReplicas_suits : Suits defaultTiming defaultReplicas 0 3600000000000 where
  identities := by
    intro r r' h
    have hlist := congrArg List.length (String.ofList_injective h)
    rwa [List.length_replicate, List.length_replicate] at hlist
  clocks := by
    intro r a reading ha ha' hreads
    simp only [defaultReplicas, defaultTiming, Timing.Reads, Time.InUnixMilliRange,
      Time.unixEpoch] at hreads ⊢
    omega
  slack := by decide
  renewDeadline := by intro r; simp only [defaultReplicas]; decide
  margin := by intro r; simp only [defaultReplicas, defaultTiming]; decide

/-- A leader whose watchdog is due at a time. -/
private def leadingUntil (deadline : Int) : Replica :=
  ⟨.leading, false, [⟨0, 1, false, false, .armed deadline, none⟩]⟩

private theorem prompt_leadingUntil {deadline slack now : Int} (h : now ≤ deadline + slack) :
    ∀ t ∈ (leadingUntil deadline).terms, (leadingUntil deadline).live t = true →
      t.Prompt slack now := by
  intro t ht _
  obtain rfl := List.mem_singleton.mp ht
  refine ⟨?_, ?_, ?_⟩
  · intro since hs; cases hs
  · intro deadline' hd
    obtain rfl : deadline = deadline' := Watchdog.armed.inj hd
    exact h
  · intro sent hs; cases hs

/-- The first replica is elected by a clock 0.3 s fast and leads until its watchdog is due. -/
private theorem first_leads : ∃ s, Cluster.Run defaultTiming defaultReplicas (.fresh 0 none) s ∧
    s.now = 10000000000 ∧ s.lock.calls 1 = .idle ∧
    s.lock.item = some ⟨some (sstr ""),
      some ((defaultReplicas 0).coordinator.expiry 300000000), some (.n 1)⟩ ∧
    s.replicas = Function.update (fun _ => .fresh) 0 (leadingUntil 10000000000) := by
  obtain ⟨u, hrun, hnow, hcalls, hitem, hreplicas⟩ := Cluster.elects (T := defaultTiming)
    (M := defaultReplicas) (s := .fresh 0 none) 0 0 300000000
    (by unfold Timing.Reads; decide) rfl rfl rfl rfl rfl
    (show DynamoDB.numAttr (some (.n 1)) = some 1 by decide) (by decide)
  have hnow : u.now = 0 := hnow
  have harm := Cluster.movesUntil (T := defaultTiming) (M := defaultReplicas) 0 10000000000
    (leadingUntil 10000000000) hreplicas
    (by rw [hnow]; exact .single (.goroutine [] _ _ [] rfl (.arm 0 rfl)))
    (by rw [hnow]; decide) (prompt_leadingUntil (by decide))
  refine ⟨_, hrun.trans harm, rfl, ?_, hitem, rfl⟩
  change u.lock.calls 1 = .idle
  rw [hcalls]
  rfl

/-- The watchdog of the first replica fires, and once its lease has run out by the clock of the
second, 0.4 s slow, the second is elected. -/
private theorem second_leads (hnow : s.now = 10000000000) (hidle : s.lock.calls 1 = .idle)
    (hitem : s.lock.item = some ⟨some (sstr ""),
      some ((defaultReplicas 0).coordinator.expiry 300000000), some (.n 1)⟩)
    (hreplicas : s.replicas = Function.update (fun _ => .fresh) 0 (leadingUntil 10000000000)) :
    ∃ u, Cluster.Run defaultTiming defaultReplicas s u ∧ u.now = 15800000000 ∧ u.Leads 1 := by
  have hexpire := Cluster.movesUntil (T := defaultTiming) (M := defaultReplicas) 0 15800000000
    ⟨.leading, false, [⟨0, 1, true, false, .returned, none⟩]⟩ hreplicas
    (.single (.goroutine [] _ _ [] rfl (.expire 10000000000 rfl (by rw [hnow]))))
    (by rw [hnow]; decide) (by
      intro t ht hlive
      obtain rfl := List.mem_singleton.mp ht
      cases hlive)
  obtain ⟨u, hrun, hnow', -, -, hreplicas'⟩ := Cluster.elects (T := defaultTiming)
    (M := defaultReplicas) (s := { s with
      now := 15800000000
      replicas := Function.update (fun _ => .fresh) 0
        ⟨.leading, false, [⟨0, 1, true, false, .returned, none⟩]⟩ })
    1 1 15400000000 (show Timing.Reads defaultTiming 15800000000 15400000000 by
      unfold Timing.Reads; decide) rfl rfl hidle
    (by rw [hitem]; decide +kernel) (show addOne (s.lock.item.bind LockItem.fence) = some 2 by
      rw [hitem]; decide +kernel)
    (show DynamoDB.numAttr (some (.n 2)) = some 2 by decide) (by decide)
  refine ⟨u, hexpire.trans hrun, hnow', .lead 1 2 15800000000, ?_, ?_⟩
  · rw [hreplicas', Function.update_self]
    exact List.mem_cons_self
  · rw [hreplicas', Function.update_self]
    rfl

/-- Two replicas with the default timings, and clocks that are off by different amounts: the first
leads for 10 s, while the second does not; then the second takes over, and the first no longer
leads. -/
theorem one_leader_at_a_time_takeover :
    ∃ s₁ s₂, Cluster.Run defaultTiming defaultReplicas (.fresh 0 none) s₁ ∧ s₁.Leads 0 ∧
      ¬ s₁.Leads 1 ∧ Cluster.Run defaultTiming defaultReplicas s₁ s₂ ∧ s₂.Leads 1 ∧
      ¬ s₂.Leads 0 := by
  obtain ⟨s₁, hrun, hnow, hidle, hitem, hreplicas⟩ := first_leads
  obtain ⟨s₂, hrun', hnow', hsecond⟩ := second_leads hnow hidle hitem hreplicas
  have hfirst : s₁.Leads 0 := by
    refine ⟨⟨0, 1, false, false, .armed 10000000000, none⟩, ?_, ?_⟩
    · rw [hreplicas]
      exact List.mem_cons_self
    · rw [hreplicas]
      rfl
  have hone := one_leader_at_a_time defaultReplicas_suits none hrun (by rw [hnow]; decide)
  have htwo := one_leader_at_a_time defaultReplicas_suits none (hrun.trans hrun')
    (by rw [hnow']; decide)
  refine ⟨s₁, s₂, hrun, hfirst, ?_, hrun', hsecond, ?_⟩
  · intro hother
    exact absurd (hone 0 1 hfirst hother) (by decide)
  · intro hother
    exact absurd (htwo 0 1 hother hsecond) (by decide)

end Cluster

end Lease

end GenaiBridge
