/-
Fencing of a whole deployment: the lock and the checkpoint store together.

The fences of the lock are what `Lease.Sound` says; that a stored epoch never goes
back is the safety of the store, whoever saves.  As there, it needs that no item is
written 2^64 times, and `epoch_goes_back` is a deployment with two leaders in
which it is not so.
-/
import GenaiBridge.Proofs.Lease
import GenaiBridge.Proofs.Stores

namespace GenaiBridge

open Lease (acquires)

namespace Fleet

variable {keyspace : String} {s t : Fleet}

theorem Run.lease (h : Run keyspace s t) : Lease.Run s.lease t.lease := by
  induction h with
  | refl => exact Relation.ReflTransGen.refl
  | tail _ hstep ih =>
    cases hstep with
    | lease u hu => exact ih.tail hu
    | store u _ => exact ih

theorem Run.store (h : Run keyspace s t) :
    Lib.Optimistic.Run (DynamoDB.client keyspace) DynamoDB.applies s.store t.store := by
  induction h with
  | refl => exact Relation.ReflTransGen.refl
  | tail _ hstep ih =>
    cases hstep with
    | lease u _ => exact ih
    | store u hu => exact ih.tail hu.1

/-- A run of the lock is a run of the fleet. -/
theorem run_lease {l : Lease.System} (h : Lease.Run s.lease l) :
    Run keyspace s { s with lease := l } := by
  induction h with
  | refl => exact Relation.ReflTransGen.refl
  | tail _ hstep ih => exact ih.tail (.lease _ hstep)

/-- A run of the store under fences that were acquired is a run of the fleet. -/
theorem run_store {E : Int64 → Prop} {c : DynamoDB.System} (hE : ∀ e, E e → s.lease.Elected e)
    (h : Relation.ReflTransGen (DynamoDB.StepWith keyspace E) s.store c) :
    Run keyspace s { s with store := c } := by
  induction h with
  | refl => exact Relation.ReflTransGen.refl
  | tail _ hstep ih =>
    exact ih.tail (.store _ ⟨hstep.1, fun n arg hidle hread => hE _ (hstep.2 n arg hidle hread)⟩)

/-- **Leadership is fenced.**  In every reachable state of a fleet the fences of the committed
acquires strictly increase in commit order; a renew committed only while its fence was the one of
the newest acquire, and reported success only if it committed; and from then on, as long as no
item is written 2^64 times, the epoch stored under a key never decreases. -/
theorem fencing (item : Option Lease.LockItem) (contents : String → Option DynamoDB.Item)
    (hrun : Run keyspace (.fresh item contents) s) :
    (acquires s.lease.log).Pairwise (· > ·) ∧
    (∀ after n f before, s.lease.log = after ++ .renewed n f :: before →
      ∃ older, acquires before = (f.toInt : ℚ) :: older) ∧
    (∀ n c f, s.lease.calls n = .renewed c f → .renewed n f ∈ s.lease.log) ∧
    (∀ t, Run keyspace s t → (∀ k, (t.store.cells k).earlier.length < 2 ^ 64) →
      ∀ key a, DynamoDB.load (s.store.cells (DynamoDB.pk keyspace key)).current = some a →
        ∃ b, DynamoDB.load (t.store.cells (DynamoDB.pk keyspace key)).current = some b ∧
          a.epoch ≤ b.epoch) := by
  have hlease : Lease.Sound s.lease := (Lease.Sound.fresh item).run hrun.lease
  refine ⟨hlease.decreasing, hlease.renewed, hlease.extended, ?_⟩
  intro t hrun' hfew key a ha
  obtain ⟨b, hb, hepoch, -⟩ := (DynamoDB.store_safe keyspace).run contents s.store t.store
    hrun.store hrun'.store hfew (DynamoDB.pk keyspace key) a ha
  exact ⟨b, hb, hepoch⟩

/-! ### Two leaders one after the other -/

/-- A call acquires the lock of an item with a fence the caller can read. -/
private theorem acquires_lock {l : Lease.System} (n : Nat) (c : Lease.Coordinator) (now : Int)
    {q : ℚ} {fence : Int64} (hidle : l.calls n = .idle)
    (hok : Lease.acquirable c.identity (Time.unixMilli now) l.item = true)
    (hadd : Lease.addOne (l.item.bind Lease.LockItem.fence) = some q)
    (hfence : DynamoDB.numAttr (some (.n q)) = some fence) :
    ∃ l', Lease.Run l l' ∧ l'.calls n = .acquired c fence ∧
      (∀ m, m ≠ n → l'.calls m = l.calls m) ∧
      l'.item = some ⟨some (DynamoDB.sstr c.identity),
        some (DynamoDB.nstr (Time.unixMilli (now + c.lease))), some (.n q)⟩ := by
  have happly : Lease.apply n (c.acquire now) l.item = some
      (⟨some (DynamoDB.sstr c.identity), some (DynamoDB.nstr (Time.unixMilli (now + c.lease))),
        some (.n q)⟩, .acquired n q) := by
    simp [Lease.apply, Lease.Coordinator.acquire, hok, hadd]
  have hsend := Lease.Step.acquire n c now hidle
  have hland := Lease.Step.land (s := { l with
      calls := Function.update l.calls n (.acquiring c)
      sent := (n, c.acquire now) :: l.sent }) n _ _ _ List.mem_cons_self happly
  have helected := Lease.Step.elected (s := { l with
      calls := Function.update l.calls n (.acquiring c)
      sent := (n, c.acquire now) :: l.sent
      item := some ⟨some (DynamoDB.sstr c.identity),
        some (DynamoDB.nstr (Time.unixMilli (now + c.lease))), some (.n q)⟩
      log := .acquired n q :: l.log }) n c q fence (by simp) List.mem_cons_self hfence
  refine ⟨_, ((Relation.ReflTransGen.single hsend).tail hland).tail helected, ?_, ?_, rfl⟩
  · simp
  · intro m hm
    simp [Function.update_of_ne hm]

private theorem two_elected :
    ∃ l, Lease.Run (.fresh none) l ∧ l.Elected 1 ∧ l.Elected 2 := by
  have hone : DynamoDB.numAttr (some (.n 1)) = some 1 := by decide
  have htwo : DynamoDB.numAttr (some (.n 2)) = some 2 := by decide
  obtain ⟨l, hrun, hfirst, hcalls, hitem⟩ := acquires_lock (l := .fresh none) 0 ⟨"replica", 0⟩ 0
    rfl rfl rfl hone
  obtain ⟨l', hrun', hsecond, hcalls', -⟩ := acquires_lock (l := l) 1 ⟨"replica", 0⟩ 0
    (by rw [hcalls 1 (by omega)]; rfl) (by rw [hitem]; decide +kernel)
    (by rw [hitem]; decide +kernel) htwo
  have hkept := (hcalls' 0 (by omega)).trans hfirst
  exact ⟨l', hrun.trans hrun', ⟨0, _, hkept⟩, ⟨1, _, hsecond⟩⟩

theorem fencing_two_leaders :
    ∃ s : Fleet, Run "" (.fresh none fun _ => none) s ∧ s.lease.Elected 1 ∧ s.lease.Elected 2 ∧
      (acquires s.lease.log).Pairwise (· > ·) := by
  obtain ⟨l, hrun, h1, h2⟩ := two_elected
  have hfleet : Run "" (.fresh none fun _ => none) ⟨l, .fresh fun _ => none⟩ :=
    run_lease (s := .fresh none fun _ => none) hrun
  exact ⟨_, hfleet, h1, h2, (fencing none (fun _ => none) hfleet).1⟩

/-- Leaders of fences 1 and 2, 2^64 saves of the second, and then a delayed one of the first:
the epoch stored under the key goes back. -/
theorem epoch_goes_back :
    ∃ item contents, ∃ s t : Fleet,
      Run "" (.fresh item contents) s ∧ Run "" s t ∧
      ∃ key a b, DynamoDB.load (s.store.cells (DynamoDB.pk "" key)).current = some a ∧
        DynamoDB.load (t.store.cells (DynamoDB.pk "" key)).current = some b ∧
        b.epoch < a.epoch := by
  obtain ⟨l, hlease, h1, h2⟩ := two_elected
  obtain ⟨contents, c, d, hrun, hrun', key, a, b, ha, hb, hlt⟩ := DynamoDB.version_comes_back
  have hE : ∀ e : Int64, e = 1 ∨ e = 2 → l.Elected e := by
    rintro e (rfl | rfl)
    · exact h1
    · exact h2
  have hfirst : Run "" (.fresh none contents) ⟨l, .fresh contents⟩ :=
    run_lease (s := .fresh none contents) hlease
  have hsecond : Run "" ⟨l, .fresh contents⟩ ⟨l, c⟩ := run_store (s := ⟨l, .fresh contents⟩) hE hrun
  have hthird : Run "" ⟨l, c⟩ ⟨l, d⟩ := run_store (s := ⟨l, c⟩) hE hrun'
  exact ⟨none, contents, _, _, hfirst.trans hsecond, hthird, key, a, b, ha, hb, hlt⟩

end Fleet

end GenaiBridge
