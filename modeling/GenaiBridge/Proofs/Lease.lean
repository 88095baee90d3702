/-
Fencing: what the lock guarantees, whatever clocks and messages do.

Neither the expiry nor the holder helps: clocks disagree and identities may be equal.
What carries the argument is that every committed acquire adds one to the fence
attribute, so the newest acquire's fence is the one in the item and is larger than
all before it.
-/
import GenaiBridge.Bridge.Lease
import GenaiBridge.Proofs.DynamoDB
import Mathlib.Algebra.Order.Ring.Rat

namespace GenaiBridge

namespace Lease

open DynamoDB (AttributeValue nstr numAttr)

/-- The fence of an event that is an acquire. -/
def Event.fence? : Event → Option ℚ
  | .acquired _ q => some q
  | .renewed _ _ => none

/-- The fences of the committed acquires, newest first. -/
def acquires (log : List Event) : List ℚ := log.filterMap Event.fence?

theorem mem_acquires {n : Nat} {q : ℚ} {log : List Event} (h : .acquired n q ∈ log) :
    q ∈ acquires log := List.mem_filterMap.mpr ⟨_, h, rfl⟩

/-- A fence the caller could parse is the number in the item. -/
theorem eq_of_numAttr {q : ℚ} {f : Int64} (h : numAttr (some (.n q)) = some f) : q = f.toInt := by
  have := DynamoDB.eq_nstr_of_numAttr h
  exact AttributeValue.n.inj this

/-- What holds of the lock in every reachable state. -/
structure Sound (s : System) : Prop where
  /-- The item has the fence of the newest acquire. -/
  newest : ∀ q rest, acquires s.log = q :: rest → s.item.bind LockItem.fence = some (.n q)
  decreasing : (acquires s.log).Pairwise (· > ·)
  /-- Only fences of committed acquires are returned. -/
  elected : ∀ n c f, s.calls n = .acquired c f → (f.toInt : ℚ) ∈ acquires s.log
  /-- Only such fences are renewed. -/
  renewing : ∀ n me f exp, (n, .renew me f exp) ∈ s.sent → (f.toInt : ℚ) ∈ acquires s.log
  /-- A renew committed while its fence was the newest. -/
  renewed : ∀ after n f before, s.log = after ++ .renewed n f :: before →
    ∃ older, acquires before = (f.toInt : ℚ) :: older
  extended : ∀ n c f, s.calls n = .renewed c f → .renewed n f ∈ s.log

theorem Sound.fresh (item : Option LockItem) : Sound (.fresh item) where
  newest := by intro q rest h; cases h
  decreasing := List.Pairwise.nil
  elected := by intro n c f h; cases h
  renewing := by intro n me f exp h; cases h
  renewed := by
    intro after n f before h
    exact absurd h (by simp [System.fresh])
  extended := by intro n c f h; cases h

/-! ### One request carried out -/

/-- What carrying out a request can do: an acquire adds one to the fence, a renew keeps it. -/
theorem apply_cases {n : Nat} {req : Request} {cur : Option LockItem} {item : LockItem} {e : Event}
    (h : apply n req cur = some (item, e)) :
    (∃ q, addOne (cur.bind LockItem.fence) = some q ∧ item.fence = some (.n q) ∧
      e = .acquired n q) ∨
    (∃ me f exp, req = .renew me f exp ∧ cur.bind LockItem.fence = some (nstr f) ∧
      item.fence = some (nstr f) ∧ e = .renewed n f) := by
  cases req with
  | acquire me now exp =>
    simp only [apply] at h
    split at h
    · obtain ⟨q, hq, heq⟩ := Option.map_eq_some_iff.mp h
      obtain ⟨rfl, rfl⟩ := Prod.mk.inj heq
      exact Or.inl ⟨q, hq, rfl, rfl⟩
    · cases h
  | renew me f exp =>
    cases cur with
    | none => cases h
    | some i =>
      simp only [apply] at h
      split at h
      · rename_i hok
        obtain ⟨rfl, rfl⟩ := Prod.mk.inj (Option.some.inj h)
        have hfence : i.fence = some (nstr f) := by
          simp only [renewable, Bool.and_eq_true, beq_iff_eq] at hok
          exact hok.2
        exact Or.inr ⟨me, f, exp, rfl, hfence, hfence, rfl⟩
      · cases h

/-- A new fence is larger than all fences before it. -/
theorem Sound.lt_addOne {s : System} (h : Sound s) {q : ℚ}
    (hq : addOne (s.item.bind LockItem.fence) = some q) : ∀ r ∈ acquires s.log, r < q := by
  intro r hr
  cases hlog : acquires s.log with
  | nil => rw [hlog] at hr; cases hr
  | cons q₀ rest =>
    rw [h.newest q₀ rest hlog] at hq
    obtain rfl : q₀ + 1 = q := Option.some.inj hq
    have hdec := h.decreasing
    rw [hlog] at hr hdec
    rcases List.mem_cons.mp hr with rfl | hr
    · exact lt_add_one r
    · exact lt_trans ((List.pairwise_cons.mp hdec).1 r hr) (lt_add_one q₀)

/-- The fence of the item, once it is a fence somebody acquired, is the newest. -/
theorem Sound.newest_of_mem {s : System} (h : Sound s) {f : Int64}
    (hfence : s.item.bind LockItem.fence = some (nstr f))
    (hmem : (f.toInt : ℚ) ∈ acquires s.log) :
    ∃ older, acquires s.log = (f.toInt : ℚ) :: older := by
  cases hlog : acquires s.log with
  | nil => rw [hlog] at hmem; cases hmem
  | cons q rest =>
    have hq := (h.newest q rest hlog).symm.trans hfence
    obtain rfl : q = f.toInt := AttributeValue.n.inj (Option.some.inj hq)
    exact ⟨rest, rfl⟩

/-! ### Every run -/

private theorem cons_eq_append {α : Type} {x y : α} {l after before : List α}
    (h : x :: l = after ++ y :: before) :
    (after = [] ∧ x = y ∧ l = before) ∨ ∃ after', after = x :: after' ∧ l = after' ++ y :: before := by
  cases after with
  | nil =>
    obtain ⟨rfl, rfl⟩ := List.cons.inj h
    exact Or.inl ⟨rfl, rfl, rfl⟩
  | cons z after =>
    obtain ⟨rfl, rfl⟩ := List.cons.inj h
    exact Or.inr ⟨after, rfl, rfl⟩

theorem Sound.land {s : System} (h : Sound s) {n : Nat} {req : Request} {item : LockItem}
    {e : Event} (hsent : (n, req) ∈ s.sent) (happly : apply n req s.item = some (item, e)) :
    Sound { s with item := some item, log := e :: s.log } := by
  rcases apply_cases happly with ⟨q, hq, hfence, rfl⟩ | ⟨me, f, exp, rfl, hcur, hfence, rfl⟩
  · have hlt := h.lt_addOne hq
    refine ⟨?_, ?_, ?_, ?_, ?_, ?_⟩
    · intro q' rest hlog
      obtain ⟨rfl, -⟩ := List.cons.inj hlog
      exact hfence
    · exact List.pairwise_cons.mpr ⟨hlt, h.decreasing⟩
    · intro m c f hcall
      exact List.mem_cons_of_mem _ (h.elected m c f hcall)
    · intro m me f exp hmem
      exact List.mem_cons_of_mem _ (h.renewing m me f exp hmem)
    · intro after m f before heq
      rcases cons_eq_append heq with ⟨-, hc, -⟩ | ⟨after', -, heq'⟩
      · cases hc
      · exact h.renewed after' m f before heq'
    · intro m c f hcall
      exact List.mem_cons_of_mem _ (h.extended m c f hcall)
  · obtain ⟨older, holder⟩ := h.newest_of_mem hcur (h.renewing n me f exp hsent)
    refine ⟨?_, h.decreasing, h.elected, h.renewing, ?_, ?_⟩
    · intro q rest hlog
      have := h.newest q rest hlog
      rw [hcur] at this
      exact hfence.trans this
    · intro after m f' before heq
      rcases cons_eq_append heq with ⟨-, hc, rfl⟩ | ⟨after', -, heq'⟩
      · obtain ⟨-, rfl⟩ := Event.renewed.inj hc
        exact ⟨older, holder⟩
      · exact h.renewed after' m f' before heq'
    · intro m c f' hcall
      exact List.mem_cons_of_mem _ (h.extended m c f' hcall)

private theorem calls_update {calls : Nat → Call} {n : Nat} {st : Call} {Q : Nat → Call → Prop}
    (h : ∀ m, Q m (calls m)) (hst : Q n st) : ∀ m, Q m (Function.update calls n st m) := by
  intro m
  by_cases hm : m = n
  · subst hm
    rw [Function.update_self]
    exact hst
  · rw [Function.update_of_ne hm]
    exact h m

theorem Sound.setCall {s : System} (h : Sound s) {n : Nat} {st : Call}
    (hacq : ∀ c f, st = .acquired c f → (f.toInt : ℚ) ∈ acquires s.log)
    (hren : ∀ c f, st = .renewed c f → .renewed n f ∈ s.log) :
    Sound { s with calls := Function.update s.calls n st } where
  newest := h.newest
  decreasing := h.decreasing
  renewing := h.renewing
  renewed := h.renewed
  elected := fun m c f => calls_update
    (Q := fun _ st => st = .acquired c f → (f.toInt : ℚ) ∈ acquires s.log)
    (fun m => h.elected m c f) (hacq c f) m
  extended := fun m c f => calls_update (Q := fun m st => st = .renewed c f → .renewed m f ∈ s.log)
    (fun m => h.extended m c f) (hren c f) m

theorem Sound.send {s : System} (h : Sound s) {n : Nat} {req : Request}
    (hreq : ∀ me f exp, req = .renew me f exp → (f.toInt : ℚ) ∈ acquires s.log) :
    Sound { s with sent := (n, req) :: s.sent } where
  newest := h.newest
  decreasing := h.decreasing
  elected := h.elected
  renewed := h.renewed
  extended := h.extended
  renewing := by
    intro m me f exp hmem
    rcases List.mem_cons.mp hmem with heq | hmem
    · exact hreq me f exp (Prod.mk.inj heq).2.symm
    · exact h.renewing m me f exp hmem

theorem Sound.step {s t : System} (h : Sound s) (hstep : Step s t) : Sound t := by
  cases hstep with
  | acquire n c now _ =>
    exact (h.send (by intro me f exp hc; cases hc)).setCall (by intro _ _ hc; cases hc)
      (by intro _ _ hc; cases hc)
  | renew n m c fence now _ hleader =>
    refine (h.send ?_).setCall (by intro _ _ hc; cases hc) (by intro _ _ hc; cases hc)
    intro me f exp hc
    obtain ⟨-, rfl, -⟩ := Request.renew.inj hc
    exact h.elected m c _ hleader
  | land n req item e hsent happly => exact h.land hsent happly
  | elected n c q fence hcall hlanded hfence =>
    refine h.setCall ?_ (by intro _ _ hc; cases hc)
    intro c' f hc
    obtain ⟨-, rfl⟩ := Call.acquired.inj hc
    rw [← eq_of_numAttr hfence]
    exact mem_acquires hlanded
  | extended n c fence hcall hlanded =>
    refine h.setCall (by intro _ _ hc; cases hc) ?_
    intro c' f hc
    obtain ⟨-, rfl⟩ := Call.renewed.inj hc
    exact hlanded
  | fails n _ => exact h.setCall (by intro _ _ hc; cases hc) (by intro _ _ hc; cases hc)

theorem Sound.run {s t : System} (h : Sound s) (hrun : Run s t) : Sound t := by
  induction hrun with
  | refl => exact h
  | tail _ hstep ih => exact ih.step hstep

end Lease

end GenaiBridge
