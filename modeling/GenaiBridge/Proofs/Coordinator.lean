/-
The terms of one process follow one another.

`Orderly` is what the barrier of `lead` maintains: a goroutine of a term that is not
the newest has ended, and outside `lead` so has every goroutine of every term.  It
needs no clock.

That the epochs of the terms rise is a fact about the lock: what a cluster does to the
lock are steps of it (`Cluster.Step.lock`), where every acquire commits with a larger
fence than all before, and an acquire is only sent when the term before it is over.
-/
import GenaiBridge.Bridge.Coordinator
import GenaiBridge.Proofs.Lease

namespace GenaiBridge

namespace Lease

/-! ### Goroutines of a term -/

/-- Nothing of the term runs any more. -/
structure Term.Over (t : Term) : Prop where
  cancelled : t.cancelled = true
  finished : t.finished = true
  watchdog : t.watchdog = .returned

/-- What identifies a term. -/
def Term.label (t : Term) : Nat × Int64 := (t.call, t.fence)

theorem Term.label_signal (t : Term) (now : Int) : (t.signal now).label = t.label := by
  unfold Term.signal
  cases t.renewOK with
  | none => rfl
  | some _ => rfl

variable {renewDeadline now : Int} {ctx : Bool} {t t' : Term}

theorem Term.Step.label_eq (h : t.Step renewDeadline now ctx t') : t'.label = t.label := by
  cases h <;> rfl

/-- A term that is over stays over: no goroutine of it can do more than end. -/
theorem Term.Step.over (h : t.Step renewDeadline now ctx t') (ho : t.Over) : t'.Over := by
  have hwatchdog := ho.watchdog
  cases h with
  | arm since hw => rw [hw] at hwatchdog; cases hwatchdog
  | reset deadline sent hw => rw [hw] at hwatchdog; cases hwatchdog
  | expire deadline hw => rw [hw] at hwatchdog; cases hwatchdog
  | leave deadline hw => rw [hw] at hwatchdog; cases hwatchdog
  | finish => exact ⟨ho.cancelled, rfl, ho.watchdog⟩

/-! ### The barrier -/

/-- What identifies the terms of a process, newest first. -/
def Replica.labels (p : Replica) : List (Nat × Int64) := p.terms.map Term.label

/-- The terms of a process do not overlap. -/
structure Replica.Orderly (p : Replica) : Prop where
  /-- Only the newest term may have something running. -/
  older : ∀ t ∈ p.terms.tail, t.Over
  /-- Outside `lead` nothing runs. -/
  drained : p.main.inLead = false → ∀ t ∈ p.terms, t.Over
  /-- `Run` returns only when its context is done. -/
  returned : p.main = .returned → p.cancelled = true

theorem Replica.Orderly.fresh : Replica.fresh.Orderly where
  older := by intro t ht; cases ht
  drained := by intro _ t ht; cases ht
  returned := by intro h; cases h

variable {p p' : Replica}

/-- The goroutine of `Run` goes from one place in `lead` to another, the newest term with it. -/
theorem Replica.Orderly.setHead (h : p.Orderly) {rest : List Term} (hterms : p.terms = t :: rest)
    {main : Main} (hmain : main.inLead = true) :
    ({ p with main := main, terms := t' :: rest } : Replica).Orderly where
  older := by
    intro t₀ ht₀
    have holder := h.older
    rw [hterms] at holder
    exact holder t₀ ht₀
  drained := by
    intro hout
    exact absurd (hmain.symm.trans hout) (by decide)
  returned := by
    intro hret
    change main = .returned at hret
    rw [hret] at hmain
    cases hmain

theorem Replica.Orderly.setMain (h : p.Orderly) {main : Main}
    (hmain : main.inLead = true ∨ p.main.inLead = false)
    (hret : main = .returned → p.cancelled = true) :
    ({ p with main := main } : Replica).Orderly where
  older := h.older
  drained := by
    intro hout
    rcases hmain with hmain | hmain
    · exact absurd (hmain.symm.trans hout) (by decide)
    · exact h.drained hmain
  returned := hret

/-- `lead` begins a new term when all others are over. -/
theorem Replica.Orderly.elect (h : p.Orderly) (hmain : p.main.inLead = false) :
    ({ p with main := .leading, terms := t :: p.terms } : Replica).Orderly where
  older := h.drained hmain
  drained := by intro hout; cases hout
  returned := by intro hret; cases hret

/-- `lead` returns once it has seen both goroutines of its term end. -/
theorem Replica.Orderly.leave (h : p.Orderly) {rest : List Term} (hterms : p.terms = t :: rest)
    (hwatchdog : t.watchdog = .returned) (hdone : t.finished = true) :
    ({ p with main := .top, terms := t.cancel :: rest } : Replica).Orderly := by
  have holder : ∀ t₀ ∈ rest, t₀.Over := by
    have := h.older
    rw [hterms] at this
    exact this
  refine ⟨holder, ?_, by intro hret; cases hret⟩
  intro _ t₀ ht₀
  rcases List.mem_cons.mp ht₀ with rfl | ht₀
  · exact ⟨rfl, hdone, hwatchdog⟩
  · exact holder t₀ ht₀

theorem Replica.Orderly.goroutine (h : p.Orderly) {newer older : List Term}
    (hterms : p.terms = newer ++ t :: older) (hstep : t.Step renewDeadline now p.cancelled t') :
    ({ p with terms := newer ++ t' :: older } : Replica).Orderly := by
  refine ⟨?_, ?_, h.returned⟩
  · intro t₀ ht₀
    have holder := h.older
    rw [hterms] at holder
    cases newer with
    | nil => exact holder t₀ ht₀
    | cons t₁ newer =>
      -- the term that moved is not the newest, so it was over
      simp only [List.cons_append, List.tail_cons, List.mem_append, List.mem_cons] at holder ht₀
      rcases ht₀ with ht₀ | rfl | ht₀
      · exact holder t₀ (Or.inl ht₀)
      · exact hstep.over (holder t (Or.inr (Or.inl rfl)))
      · exact holder t₀ (Or.inr (Or.inr ht₀))
  · intro hout t₀ ht₀
    have hdrained := h.drained hout
    rw [hterms] at hdrained
    simp only [List.mem_append, List.mem_cons] at hdrained ht₀
    rcases ht₀ with ht₀ | rfl | ht₀
    · exact hdrained t₀ (Or.inl ht₀)
    · exact hstep.over (hdrained t (Or.inr (Or.inl rfl)))
    · exact hdrained t₀ (Or.inr (Or.inr ht₀))

theorem Replica.Orderly.step (h : p.Orderly) (hstep : p.Step renewDeadline now p') :
    p'.Orderly := by
  cases hstep with
  | cancel => exact ⟨h.older, h.drained, fun _ => rfl⟩
  | giveUp hmain hctx => exact h.setMain (Or.inr (by rw [hmain]; rfl)) (fun _ => hctx)
  | retry hmain => exact h.setMain (Or.inr (by rw [hmain]; rfl)) (by intro hret; cases hret)
  | stopWaiting hmain hctx => exact h.setMain (Or.inr (by rw [hmain]; rfl)) (fun _ => hctx)
  | stop t rest hmain hterms hcase => exact h.setHead hterms rfl
  | steppedDown t rest hmain hterms hcase =>
    exact h.setMain (Or.inl rfl) (by intro hret; cases hret)
  | drained t rest hmain hterms hwatchdog hdone => exact h.leave hterms hwatchdog hdone
  | goroutine newer t t' older hterms hterm => exact h.goroutine hterms hterm

theorem Replica.Step.labels_eq (hstep : p.Step renewDeadline now p') : p'.labels = p.labels := by
  cases hstep with
  | cancel => rfl
  | giveUp => rfl
  | retry => rfl
  | stopWaiting => rfl
  | stop t rest hmain hterms hcase => simp only [Replica.labels, hterms]; rfl
  | steppedDown => rfl
  | drained t rest hmain hterms hwatchdog hdone => simp only [Replica.labels, hterms]; rfl
  | goroutine newer t t' older hterms hterm =>
    simp only [Replica.labels, hterms, List.map_append, List.map_cons, hterm.label_eq]

theorem Replica.Step.call_eq (hstep : p.Step renewDeadline now p') {n : Nat}
    (hcall : p'.main.call? = some n) : p'.main = p.main := by
  cases hstep with
  | cancel => rfl
  | goroutine => rfl
  | _ => cases hcall

/-! ### The lock under a cluster -/

/-- The call an event is of. -/
def Event.call : Event → Nat
  | .acquired n _ => n
  | .renewed n _ => n

theorem apply_call {n : Nat} {req : Request} {cur : Option LockItem} {item : LockItem} {e : Event}
    (h : apply n req cur = some (item, e)) : e.call = n := by
  rcases apply_cases h with ⟨q, -, -, rfl⟩ | ⟨me, f, exp, -, -, -, rfl⟩
  · rfl
  · rfl

/-- Requests and events are of calls that have begun. -/
structure Begun (s : System) : Prop where
  sent : ∀ n req, (n, req) ∈ s.sent → s.calls n ≠ .idle
  heard : ∀ e ∈ s.log, ∃ req, (e.call, req) ∈ s.sent

theorem Begun.fresh (item : Option LockItem) : Begun (.fresh item) where
  sent := by intro n req h; cases h
  heard := by intro e h; cases h

private theorem update_ne_idle {calls : Nat → Call} {n m : Nat} {call : Call}
    (hcall : call ≠ .idle) (h : calls m ≠ .idle) : Function.update calls n call m ≠ .idle := by
  by_cases hm : m = n
  · rw [hm, Function.update_self]
    exact hcall
  · rw [Function.update_of_ne hm]
    exact h

theorem Begun.setCall {s : System} (h : Begun s) {n : Nat} {call : Call} (hcall : call ≠ .idle) :
    Begun { s with calls := Function.update s.calls n call } where
  sent := fun m req hm => update_ne_idle hcall (h.sent m req hm)
  heard := h.heard

theorem Begun.send {s : System} (h : Begun s) {n : Nat} {call : Call} {req : Request}
    (hcall : call ≠ .idle) :
    Begun { s with calls := Function.update s.calls n call, sent := (n, req) :: s.sent } where
  sent := by
    intro m req' hm
    rcases List.mem_cons.mp hm with heq | hm
    · obtain ⟨rfl, -⟩ := Prod.mk.inj heq
      change Function.update s.calls m call m ≠ .idle
      rw [Function.update_self]
      exact hcall
    · exact update_ne_idle hcall (h.sent m req' hm)
  heard := by
    intro e he
    obtain ⟨req', hreq'⟩ := h.heard e he
    exact ⟨req', List.mem_cons_of_mem _ hreq'⟩

theorem Begun.step {s t : System} (h : Begun s) (hstep : Step s t) : Begun t := by
  cases hstep with
  | acquire n c now _ => exact h.send (by intro hc; cases hc)
  | renew n m c fence now _ _ => exact h.send (by intro hc; cases hc)
  | land n req item e hsent happly =>
    refine ⟨h.sent, ?_⟩
    intro e' he'
    rcases List.mem_cons.mp he' with rfl | he'
    · rw [apply_call happly]
      exact ⟨req, hsent⟩
    · exact h.heard e' he'
  | elected => exact h.setCall (by intro hc; cases hc)
  | extended => exact h.setCall (by intro hc; cases hc)
  | fails => exact h.setCall (by intro hc; cases hc)

/-- The calls a process is in, and the terms it has led, are its own calls of the lock. -/
structure Replica.WiredTo (c : Coordinator) (owner : Nat → Nat) (calls : Nat → Call) (r : Nat)
    (p : Replica) : Prop where
  acquiring : ∀ n, p.main = .acquiring n → owner n = r ∧ calls n = .acquiring c
  renewing : ∀ n, p.main = .renewing n →
    owner n = r ∧ ∃ l rest, p.labels = l :: rest ∧ calls n = .renewing c l.2
  led : ∀ l ∈ p.labels, owner l.1 = r ∧ calls l.1 = .acquired c l.2

section Wired

variable {c : Coordinator} {owner owner' : Nat → Nat} {calls calls' : Nat → Call} {r n : Nat}

theorem Replica.WiredTo.frame (h : p.WiredTo c owner calls r)
    (hsame : ∀ m, owner m = r → calls m ≠ .idle → owner' m = owner m ∧ calls' m = calls m) :
    p.WiredTo c owner' calls' r where
  acquiring := by
    intro n hn
    obtain ⟨howner, hcall⟩ := h.acquiring n hn
    obtain ⟨ho, hc⟩ := hsame n howner (by rw [hcall]; intro hc; cases hc)
    exact ⟨ho.trans howner, hc.trans hcall⟩
  renewing := by
    intro n hn
    obtain ⟨howner, l, rest, hl, hcall⟩ := h.renewing n hn
    obtain ⟨ho, hc⟩ := hsame n howner (by rw [hcall]; intro hc; cases hc)
    exact ⟨ho.trans howner, l, rest, hl, hc.trans hcall⟩
  led := by
    intro l hl
    obtain ⟨howner, hcall⟩ := h.led l hl
    obtain ⟨ho, hc⟩ := hsame l.1 howner (by rw [hcall]; intro hc; cases hc)
    exact ⟨ho.trans howner, hc.trans hcall⟩

theorem Replica.WiredTo.step (h : p.WiredTo c owner calls r)
    (hstep : p.Step renewDeadline now p') : p'.WiredTo c owner calls r where
  acquiring := by
    intro n hn
    exact h.acquiring n ((hstep.call_eq (by rw [hn]; rfl)) ▸ hn)
  renewing := by
    intro n hn
    rw [hstep.labels_eq]
    exact h.renewing n ((hstep.call_eq (by rw [hn]; rfl)) ▸ hn)
  led := by
    rw [hstep.labels_eq]
    exact h.led

/-- The call of the main goroutine is the process's own, and it is not of a term led before. -/
theorem Replica.WiredTo.call (h : p.WiredTo c owner calls r) (hn : p.main.call? = some n) :
    owner n = r ∧ (calls n = .acquiring c ∨ ∃ fence, calls n = .renewing c fence) := by
  cases hmain : p.main with
  | acquiring m =>
    rw [hmain] at hn
    obtain rfl : m = n := Option.some.inj hn
    obtain ⟨howner, hcall⟩ := h.acquiring m hmain
    exact ⟨howner, Or.inl hcall⟩
  | renewing m =>
    rw [hmain] at hn
    obtain rfl : m = n := Option.some.inj hn
    obtain ⟨howner, l, -, -, hcall⟩ := h.renewing m hmain
    exact ⟨howner, Or.inr ⟨l.2, hcall⟩⟩
  | _ => rw [hmain] at hn; cases hn

/-- Its call returns: the terms led before keep their calls. -/
theorem Replica.WiredTo.led_answer (h : p.WiredTo c owner calls r) (hn : p.main.call? = some n)
    (call : Call) : ∀ l ∈ p.labels,
      owner l.1 = r ∧ Function.update calls n call l.1 = .acquired c l.2 := by
  intro l hl
  obtain ⟨howner, hcall⟩ := h.led l hl
  have hne : l.1 ≠ n := by
    rintro rfl
    rcases (h.call hn).2 with hn' | ⟨fence, hn'⟩
    · rw [hcall] at hn'; cases hn'
    · rw [hcall] at hn'; cases hn'
  rw [Function.update_of_ne hne]
  exact ⟨howner, hcall⟩

end Wired

variable {T : Timing} {M : Nat → Member}

/-- Every process of the cluster is wired to the lock. -/
def Cluster.Wired (M : Nat → Member) (s : Cluster) : Prop :=
  ∀ r, (s.replicas r).WiredTo (M r).coordinator s.owner s.lock.calls r

theorem Cluster.Wired.fresh (now : Int) (item : Option LockItem) :
    Cluster.Wired M (.fresh now item) := by
  intro r
  refine ⟨?_, ?_, ?_⟩
  · intro n hn; cases hn
  · intro n hn; cases hn
  · intro l hl; cases hl

variable {s u : Cluster}

theorem Cluster.Wired.send (h : s.Wired M) {r n : Nat} (hidle : s.lock.calls n = .idle)
    {call : Call} {req : Request} {main : Main}
    (hmain : (main = .acquiring n ∧ call = .acquiring (M r).coordinator) ∨
      (main = .renewing n ∧ ∃ l rest, (s.replicas r).labels = l :: rest ∧
        call = .renewing (M r).coordinator l.2)) :
    (s.send r n call req main).Wired M := by
  -- an idle call is nobody's, so nothing changes for the calls that are somebody's
  have hframe : ∀ r', (s.replicas r').WiredTo (M r').coordinator (Function.update s.owner n r)
      (Function.update s.lock.calls n call) r' := by
    intro r'
    refine (h r').frame ?_
    intro m _ hm
    have hne : m ≠ n := by rintro rfl; exact hm hidle
    exact ⟨Function.update_of_ne hne _ _, Function.update_of_ne hne _ _⟩
  refine (Function.forall_update_iff s.replicas fun r' p => p.WiredTo (M r').coordinator
    (Function.update s.owner n r) (Function.update s.lock.calls n call) r').mpr
    ⟨⟨?_, ?_, (hframe r).led⟩, fun r' _ => hframe r'⟩
  · intro m hm
    rcases hmain with ⟨rfl, rfl⟩ | ⟨rfl, -⟩
    · obtain rfl : n = m := Main.acquiring.inj hm
      exact ⟨Function.update_self .., Function.update_self ..⟩
    · cases hm
  · intro m hm
    rcases hmain with ⟨rfl, -⟩ | ⟨rfl, l, rest, hl, rfl⟩
    · cases hm
    · obtain rfl : n = m := Main.renewing.inj hm
      exact ⟨Function.update_self .., l, rest, hl, Function.update_self ..⟩

theorem Cluster.Wired.answer (h : s.Wired M) {r n : Nat}
    (hn : (s.replicas r).main.call? = some n) {call : Call} {p : Replica}
    (hp : p.main.call? = none)
    (hlabels : p.labels = (s.replicas r).labels ∨ ∃ fence, p.labels = (n, fence) ::
      (s.replicas r).labels ∧ call = .acquired (M r).coordinator fence) :
    (s.answer r n call p).Wired M := by
  have howner := ((h r).call hn).1
  refine (Function.forall_update_iff s.replicas fun r' p => p.WiredTo (M r').coordinator
    s.owner (Function.update s.lock.calls n call) r').mpr ⟨⟨?_, ?_, ?_⟩, ?_⟩
  · intro m hm; rw [hm] at hp; cases hp
  · intro m hm; rw [hm] at hp; cases hp
  · intro l hl
    rcases hlabels with hlabels | ⟨fence, hlabels, rfl⟩
    · rw [hlabels] at hl
      exact (h r).led_answer hn call l hl
    · rw [hlabels] at hl
      rcases List.mem_cons.mp hl with rfl | hl
      · exact ⟨howner, Function.update_self ..⟩
      · exact (h r).led_answer hn _ l hl
  · intro r' hr'
    refine (h r').frame ?_
    intro m hm _
    have hne : m ≠ n := by rintro rfl; exact hr' (hm.symm.trans howner)
    exact ⟨rfl, Function.update_of_ne hne _ _⟩

theorem Cluster.Wired.step (h : s.Wired M) (hstep : Cluster.Step T M s u) : u.Wired M := by
  cases hstep with
  | elapse now hle hprompt => exact h
  | land => exact h
  | process r p hp =>
    exact (Function.forall_update_iff s.replicas fun r' p => p.WiredTo (M r').coordinator
      s.owner s.lock.calls r').mpr ⟨(h r).step hp, fun r' _ => h r'⟩
  | acquire r n reading hmain hctx hidle hclock => exact h.send hidle (Or.inl ⟨rfl, rfl⟩)
  | renew r n reading t rest hmain hterms hidle hclock =>
    exact h.send hidle (Or.inr ⟨rfl, t.label, rest.map Term.label,
      by rw [Replica.labels, hterms]; rfl, rfl⟩)
  | elected r n q fence hmain hlanded hfence hdelay =>
    exact h.answer (by rw [hmain]; rfl) rfl (Or.inr ⟨fence, rfl, rfl⟩)
  | acquireFails r n hmain => exact h.answer (by rw [hmain]; rfl) rfl (Or.inl rfl)
  | renewed r n t rest hmain hterms hlanded hdelay =>
    refine h.answer (by rw [hmain]; rfl) rfl (Or.inl ?_)
    simp only [Replica.labels, hterms, List.map_cons, Term.label_signal]
  | renewLost r n t rest hmain hterms =>
    refine h.answer (by rw [hmain]; rfl) rfl (Or.inl ?_)
    simp only [Replica.labels, hterms]
    rfl
  | renewFails r n hmain => exact h.answer (by rw [hmain]; rfl) rfl (Or.inl rfl)

/-- What a step of a cluster does to the lock is nothing, or a step of the lock. -/
theorem Cluster.Step.lock (h : s.Wired M) (hstep : Cluster.Step T M s u) :
    u.lock = s.lock ∨ Lease.Step s.lock u.lock := by
  cases hstep with
  | elapse => exact Or.inl rfl
  | process => exact Or.inl rfl
  | acquire r n reading hmain hctx hidle hclock => exact Or.inr (Lease.Step.acquire n _ _ hidle)
  | renew r n reading t rest hmain hterms hidle hclock =>
    have hled := ((h r).led t.label (by rw [Replica.labels, hterms]; exact List.mem_cons_self)).2
    exact Or.inr (Lease.Step.renew n t.call _ t.fence _ hidle hled)
  | land n req item e hsent happly hdelay => exact Or.inr (Lease.Step.land n req item e hsent happly)
  | elected r n q fence hmain hlanded hfence hdelay =>
    exact Or.inr (Lease.Step.elected n _ q fence ((h r).acquiring n hmain).2 hlanded hfence)
  | acquireFails r n hmain =>
    exact Or.inr (Lease.Step.fails n (Or.inl ⟨_, ((h r).acquiring n hmain).2⟩))
  | renewed r n t rest hmain hterms hlanded hdelay =>
    obtain ⟨-, l, rest', hl, hcall⟩ := (h r).renewing n hmain
    rw [Replica.labels, hterms] at hl
    obtain ⟨rfl, -⟩ := List.cons.inj hl
    exact Or.inr (Lease.Step.extended n _ t.fence hcall hlanded)
  | renewLost r n t rest hmain hterms =>
    obtain ⟨-, l, -, -, hcall⟩ := (h r).renewing n hmain
    exact Or.inr (Lease.Step.fails n (Or.inr ⟨_, _, hcall⟩))
  | renewFails r n hmain =>
    obtain ⟨-, l, -, -, hcall⟩ := (h r).renewing n hmain
    exact Or.inr (Lease.Step.fails n (Or.inr ⟨_, _, hcall⟩))

/-! ### Every run -/

/-- The epochs of a process's terms rise, and an acquire it has under way commits above all of
them. -/
structure Replica.Rising (log : List Event) (p : Replica) : Prop where
  rising : p.labels.Pairwise fun a b => b.2 < a.2
  ahead : ∀ n q, p.main = .acquiring n → .acquired n q ∈ log →
    ∀ l ∈ p.labels, (l.2.toInt : ℚ) < q

variable {log : List Event}

theorem Replica.Rising.step (h : p.Rising log) (hstep : p.Step renewDeadline now p') :
    p'.Rising log where
  rising := by
    rw [hstep.labels_eq]
    exact h.rising
  ahead := by
    intro n q hn
    rw [hstep.labels_eq]
    exact h.ahead n q ((hstep.call_eq (by rw [hn]; rfl)) ▸ hn)

/-- A process that is in no acquire and has led the same terms. -/
theorem Replica.Rising.quiet (h : p.Rising log) (hlabels : p'.labels = p.labels)
    (hmain : ∀ n, p'.main ≠ .acquiring n) : p'.Rising log where
  rising := by rw [hlabels]; exact h.rising
  ahead := fun n q hn => absurd hn (hmain n)

/-- The new term has the fence of the acquire that was under way. -/
theorem Replica.Rising.elect (h : p.Rising log) {n : Nat} {q : ℚ} {fence : Int64} {now : Int}
    (hmain : p.main = .acquiring n) (hlanded : .acquired n q ∈ log)
    (hfence : DynamoDB.numAttr (some (.n q)) = some fence) :
    ({ p with main := .leading, terms := .lead n fence now :: p.terms } : Replica).Rising log where
  rising := by
    refine List.pairwise_cons.mpr ⟨?_, h.rising⟩
    intro l hl
    have hlt := h.ahead n q hmain hlanded l hl
    rw [eq_of_numAttr hfence] at hlt
    exact Int64.lt_iff_toInt_lt.mpr (Int.cast_lt.mp hlt)
  ahead := by intro m q' hm; cases hm

/-- What holds of the terms of a cluster in every reachable state. -/
structure Cluster.Ordered (M : Nat → Member) (s : Cluster) : Prop where
  wired : s.Wired M
  sound : Sound s.lock
  begun : Begun s.lock
  orderly : ∀ r, (s.replicas r).Orderly
  rising : ∀ r, (s.replicas r).Rising s.lock.log

theorem Cluster.Ordered.fresh (now : Int) (item : Option LockItem) :
    Cluster.Ordered M (.fresh now item) where
  wired := .fresh now item
  sound := .fresh item
  begun := .fresh item
  orderly := fun _ => .fresh
  rising := fun _ => ⟨List.Pairwise.nil, by intro n q h; cases h⟩

/-- The fences of a process's terms are fences of committed acquires. -/
theorem Cluster.Ordered.mem_acquires (h : s.Ordered M) {r : Nat} :
    ∀ l ∈ (s.replicas r).labels, (l.2.toInt : ℚ) ∈ acquires s.lock.log := by
  intro l hl
  exact h.sound.elected _ _ _ ((h.wired r).led l hl).2

/-- A request that is carried out commits above every term there is. -/
theorem Cluster.Ordered.rising_land (h : s.Ordered M) {n : Nat} {req : Request} {item : LockItem}
    {e : Event} (happly : apply n req s.lock.item = some (item, e)) :
    ∀ r, (s.replicas r).Rising (e :: s.lock.log) := by
  intro r
  refine ⟨(h.rising r).rising, ?_⟩
  intro m q hm hmem l hl
  rcases List.mem_cons.mp hmem with rfl | hmem
  · rcases apply_cases happly with ⟨q', hq', -, heq⟩ | ⟨me, f, exp, -, -, -, heq⟩
    · obtain ⟨-, rfl⟩ := Event.acquired.inj heq
      exact h.sound.lt_addOne hq' _ (h.mem_acquires l hl)
    · cases heq
  · exact (h.rising r).ahead m q hm hmem l hl

theorem Cluster.Ordered.replicas_step (h : s.Ordered M) (hstep : Cluster.Step T M s u) :
    ∀ r, (u.replicas r).Orderly ∧ (u.replicas r).Rising u.lock.log := by
  have hmove : ∀ (r : Nat) {p : Replica}, p.Orderly → p.Rising s.lock.log →
      ∀ r', (Function.update s.replicas r p r').Orderly ∧
        (Function.update s.replicas r p r').Rising s.lock.log := by
    intro r p horderly hrising
    exact (Function.forall_update_iff s.replicas fun _ p => p.Orderly ∧ p.Rising s.lock.log).mpr
      ⟨⟨horderly, hrising⟩, fun r' _ => ⟨h.orderly r', h.rising r'⟩⟩
  have hgoes : ∀ {main : Main}, main ≠ .returned → ∀ r, main = .returned →
      (s.replicas r).cancelled = true := fun hne _ heq => absurd heq hne
  cases hstep with
  | elapse => exact fun r => ⟨h.orderly r, h.rising r⟩
  | land n req item e hsent happly hdelay =>
    exact fun r => ⟨h.orderly r, h.rising_land happly r⟩
  | process r p hp => exact hmove r ((h.orderly r).step hp) ((h.rising r).step hp)
  | acquire r n reading hmain hctx hidle hclock =>
    refine hmove r ((h.orderly r).setMain (Or.inr (by rw [hmain]; rfl)) (hgoes (by simp) r))
      ⟨(h.rising r).rising, ?_⟩
    intro m q hm hmem
    obtain rfl : n = m := Main.acquiring.inj hm
    -- the call has only begun, so nothing of it has committed
    obtain ⟨req, hsent⟩ := h.begun.heard _ hmem
    exact absurd hidle (h.begun.sent _ _ hsent)
  | renew r n reading t rest hmain hterms hidle hclock =>
    exact hmove r ((h.orderly r).setMain (Or.inl rfl) (hgoes (by simp) r))
      ((h.rising r).quiet rfl (by intro m hm; cases hm))
  | elected r n q fence hmain hlanded hfence hdelay =>
    exact hmove r ((h.orderly r).elect (by rw [hmain]; rfl))
      ((h.rising r).elect hmain hlanded hfence)
  | acquireFails r n hmain =>
    exact hmove r ((h.orderly r).setMain (Or.inr (by rw [hmain]; rfl)) (hgoes (by simp) r))
      ((h.rising r).quiet rfl (by intro m hm; cases hm))
  | renewed r n t rest hmain hterms hlanded hdelay =>
    refine hmove r ((h.orderly r).setHead hterms rfl)
      ((h.rising r).quiet ?_ (by intro m hm; cases hm))
    simp only [Replica.labels, hterms, List.map_cons, Term.label_signal]
  | renewLost r n t rest hmain hterms =>
    refine hmove r ((h.orderly r).setHead hterms rfl)
      ((h.rising r).quiet ?_ (by intro m hm; cases hm))
    simp only [Replica.labels, hterms]
    rfl
  | renewFails r n hmain =>
    exact hmove r ((h.orderly r).setMain (Or.inl rfl) (hgoes (by simp) r))
      ((h.rising r).quiet rfl (by intro m hm; cases hm))

theorem Cluster.Ordered.step (h : s.Ordered M) (hstep : Cluster.Step T M s u) : u.Ordered M where
  wired := h.wired.step hstep
  sound := by
    rcases hstep.lock h.wired with heq | hlock
    · rw [heq]; exact h.sound
    · exact h.sound.step hlock
  begun := by
    rcases hstep.lock h.wired with heq | hlock
    · rw [heq]; exact h.begun
    · exact h.begun.step hlock
  orderly := fun r => (h.replicas_step hstep r).1
  rising := fun r => (h.replicas_step hstep r).2

theorem Cluster.Ordered.run (h : s.Ordered M) (hrun : Cluster.Run T M s u) : u.Ordered M := by
  induction hrun with
  | refl => exact h
  | tail _ hstep ih => exact ih.step hstep

/-! ### An election -/

/-- A process at the top of `Run` that finds the lock free for it may become the leader at
once. -/
theorem Cluster.elects (r n : Nat) (reading : Int) {q : ℚ} {fence : Int64}
    (hclock : T.Reads s.now reading) (hmain : (s.replicas r).main = .top)
    (hctx : (s.replicas r).cancelled = false) (hidle : s.lock.calls n = .idle)
    (hfree : acquirable (M r).coordinator.identity (Time.unixMilli reading) s.lock.item = true)
    (hadd : addOne (s.lock.item.bind LockItem.fence) = some q)
    (hfence : DynamoDB.numAttr (some (.n q)) = some fence) (hdelay : 0 ≤ T.delay) :
    ∃ u, Cluster.Run T M s u ∧ u.now = s.now ∧
      u.lock.calls = Function.update s.lock.calls n (.acquired (M r).coordinator fence) ∧
      u.lock.item = some ⟨some (DynamoDB.sstr (M r).coordinator.identity),
        some (DynamoDB.nstr (Time.unixMilli (reading + (M r).coordinator.lease))),
        some (.n q)⟩ ∧
      u.replicas = Function.update s.replicas r
        ⟨.leading, false, .lead n fence s.now :: (s.replicas r).terms⟩ := by
  let s₁ := s.send r n (.acquiring (M r).coordinator) ((M r).coordinator.acquire reading)
    (.acquiring n)
  let item : LockItem := ⟨some (DynamoDB.sstr (M r).coordinator.identity),
    some (DynamoDB.nstr (Time.unixMilli (reading + (M r).coordinator.lease))), some (.n q)⟩
  let s₂ : Cluster :=
    { s₁ with lock := { s₁.lock with item := some item, log := .acquired n q :: s₁.lock.log } }
  have hsend : Cluster.Step T M s s₁ := .acquire r n reading hmain hctx hidle hclock
  have happly : apply n ((M r).coordinator.acquire reading) s₁.lock.item =
      some (item, .acquired n q) := by
    simp [apply, Coordinator.acquire, s₁, item, Cluster.send, hfree, hadd]
  have hread : s.now ≤ Function.update s.readAt n s.now n + T.delay := by
    rw [Function.update_self]
    omega
  have hland : Cluster.Step T M s₁ s₂ := .land n _ _ _ List.mem_cons_self happly hread
  have hmain₂ : s₂.replicas r = { s.replicas r with main := .acquiring n } :=
    Function.update_self ..
  have helected := Cluster.Step.elected (T := T) (M := M) (s := s₂) r n q fence
    (by rw [hmain₂]) List.mem_cons_self hfence hread
  refine ⟨_, ((Relation.ReflTransGen.single hsend).tail hland).tail helected, rfl, ?_, rfl, ?_⟩
  · exact Function.update_idem ..
  · rw [hmain₂]
    simp only [Cluster.answer, s₂, s₁, Cluster.send, Function.update_idem, hctx]

theorem Cluster.moves (r : Nat)
    (h : Relation.ReflTransGen (Replica.Step (M r).renewDeadline s.now) (s.replicas r) p) :
    Cluster.Run T M s { s with replicas := Function.update s.replicas r p } := by
  induction h with
  | refl =>
    rw [Function.update_eq_self]
    exact Relation.ReflTransGen.refl
  | @tail p p' _ hstep ih =>
    let s₁ : Cluster := { s with replicas := Function.update s.replicas r p }
    have hmoved : s₁.replicas r = p := Function.update_self ..
    have hnext := Cluster.Step.process (T := T) (M := M) (s := s₁) r p' (by rw [hmoved]; exact hstep)
    rw [show Function.update s₁.replicas r p' = Function.update s.replicas r p' from
      Function.update_idem ..] at hnext
    exact ih.tail hnext

/-- **The terms of a process follow one another.**  Whatever the clocks, the network and the
other processes do: the fence of every term a process leads is larger than those of its terms
before; the scheduler and the watchdog of a term have ended before the next one begins; and
between terms, and once `Run` has returned (which it does only when its context is done), none
runs. -/
theorem terms_follow_one_another (now : Int) (item : Option LockItem)
    (hrun : Cluster.Run T M (.fresh now item) s) (r : Nat) :
    ((s.replicas r).terms.map Term.fence).Pairwise (· > ·) ∧
    (∀ t ∈ (s.replicas r).terms.tail, t.finished = true ∧ t.watchdog = .returned) ∧
    ((s.replicas r).main.inLead = false →
      ∀ t ∈ (s.replicas r).terms, t.finished = true ∧ t.watchdog = .returned) ∧
    ((s.replicas r).main = .returned → (s.replicas r).cancelled = true) := by
  have h : s.Ordered M := (Cluster.Ordered.fresh now item).run hrun
  refine ⟨?_, ?_, ?_, (h.orderly r).returned⟩
  · have hrising := (h.rising r).rising
    rw [Replica.labels, List.pairwise_map] at hrising
    rw [List.pairwise_map]
    exact hrising
  · intro t ht
    have hover := (h.orderly r).older t ht
    exact ⟨hover.finished, hover.watchdog⟩
  · intro hout t ht
    have hover := (h.orderly r).drained hout t ht
    exact ⟨hover.finished, hover.watchdog⟩

/-- The scheduler of the term ends on its own, and `lead` returns. -/
private theorem drains (n : Nat) (fence : Int64) (renewDeadline now : Int) :
    Relation.ReflTransGen (Replica.Step renewDeadline now)
      ⟨.leading, false, [.lead n fence now]⟩
      ⟨.top, false, [⟨n, fence, true, true, .returned, none⟩]⟩ := by
  refine .head (.goroutine [] _ _ [] rfl .finish) ?_
  refine .head (.stop ⟨n, fence, false, true, .starting now, none⟩ [] rfl rfl (Or.inr rfl)) ?_
  refine .head (.goroutine [] _ _ [] rfl (.arm now rfl)) ?_
  refine .head (.goroutine [] _ _ [] rfl (.leave (now + renewDeadline) rfl rfl)) ?_
  exact .single (.drained ⟨n, fence, true, true, .returned, none⟩ [] rfl rfl rfl rfl)

/-- A process that leads twice: epochs 1 and 2, and the first term is over. -/
theorem terms_follow_one_another_twice :
    ∃ s, Cluster.Run ⟨0, 0, 0⟩ (fun _ => ⟨⟨"replica", 0⟩, 0⟩) (.fresh 0 none) s ∧
      (s.replicas 0).terms.map Term.fence = [2, 1] ∧
      ∀ t ∈ (s.replicas 0).terms.tail, t.finished = true ∧ t.watchdog = .returned := by
  have hone : DynamoDB.numAttr (some (.n 1)) = some 1 := by decide
  have htwo : DynamoDB.numAttr (some (.n 2)) = some 2 := by decide
  have hclock : ∀ now, Timing.Reads ⟨0, 0, 0⟩ now now := fun now => by simp [Timing.Reads]
  obtain ⟨u, hrun, hnow, hcalls, hitem, hreplicas⟩ := Cluster.elects (T := ⟨0, 0, 0⟩)
    (M := fun _ => ⟨⟨"replica", 0⟩, 0⟩) (s := .fresh 0 none) 0 0 0 (hclock 0) rfl rfl rfl rfl rfl
    hone (le_refl 0)
  have hnow : u.now = 0 := hnow
  have hfirst : u.replicas 0 = ⟨.leading, false, [.lead 0 1 u.now]⟩ := by
    rw [hreplicas, hnow, Function.update_self]
    rfl
  let u' : Cluster := { u with
    replicas := Function.update u.replicas 0 ⟨.top, false, [⟨0, 1, true, true, .returned, none⟩]⟩ }
  have hdrained : Cluster.Run ⟨0, 0, 0⟩ (fun _ => ⟨⟨"replica", 0⟩, 0⟩) u u' :=
    Cluster.moves 0 (by rw [hfirst]; exact drains 0 1 0 u.now)
  have hbetween : u'.replicas 0 = ⟨.top, false, [⟨0, 1, true, true, .returned, none⟩]⟩ :=
    Function.update_self 0 _ u.replicas
  obtain ⟨w, hrun', -, -, -, hsecond⟩ := Cluster.elects (T := ⟨0, 0, 0⟩)
    (M := fun _ => ⟨⟨"replica", 0⟩, 0⟩) (s := u') 0 1 u.now (hclock u.now)
    (by rw [hbetween]) (by rw [hbetween])
    (show u.lock.calls 1 = .idle by rw [hcalls]; rfl)
    (show acquirable "replica" (Time.unixMilli u.now) u.lock.item = true by
      rw [hitem]; simp [acquirable])
    (show addOne (u.lock.item.bind LockItem.fence) = some 2 by rw [hitem]; decide +kernel) htwo
    (le_refl 0)
  have hall := (hrun.trans hdrained).trans hrun'
  refine ⟨w, hall, ?_, (terms_follow_one_another 0 none hall 0).2.1⟩
  rw [hsecond, hbetween, Function.update_self]
  rfl

end Lease

end GenaiBridge
