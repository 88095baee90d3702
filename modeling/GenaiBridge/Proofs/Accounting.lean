/-
Where the samples of a batch end up, read off the calls the runner makes.

A call *settles* samples when nothing more will be done for them: the coalescer or
the guard removed them, the emitter took them, or the emitter refused them for good.
A metric call *counts* samples.  Both are sums over the calls of a run, so the
account of a run is put together from the accounts of its parts: `Passed` for buckets
the loop went over, `Stopped` for the bucket it stopped at, `Quiet` for calls that
touch no sample.
-/
import GenaiBridge.Proofs.Buckets
import Mathlib.Algebra.Order.Group.Multiset
import Mathlib.Algebra.BigOperators.Group.List.Basic

namespace GenaiBridge

variable {V : Type}

/-! ### What a call settles, counts, emits and saves -/

/-- The samples a call disposes of. -/
def Call.settled [DecidableEq V] : Call V → Multiset (Sample V)
  | .coalesce samples kept => (samples : Multiset (Sample V)) - kept
  | .sanitize samples kept => (samples : Multiset (Sample V)) - kept
  | .emit b none => b.samples
  | .emit b (some err) => if isAdvancePast err then b.samples else 0
  | .sanitizeLogs _ _ | .save _ _ _ | .load _ _ | .metric _ _ => 0

/-- What a call adds to the counters of capped, guard-dropped, emitted and skipped samples. -/
def Call.counted : Call V → Nat
  | .metric _ (.samplesCapped n) => n
  | .metric _ (.guardDropped n) => n
  | .metric _ (.emittedSamples n) => n
  | .metric _ (.samplesSkipped _ n) => n
  | _ => 0

/-- The `Emit` of a call, if it is one. -/
def Call.emitted? : Call V → Option (Batch V × Option EmitError)
  | .emit b err => some (b, err)
  | _ => none

/-- The `Save` of a call, if it is one. -/
def Call.saved? : Call V → Option (CheckpointKey × Watermark)
  | .save key w _ => some (key, w)
  | _ => none

/-- The samples a run settles. -/
def settled [DecidableEq V] (calls : List (Call V)) : Multiset (Sample V) :=
  (calls.map Call.settled).sum

/-- The sum of the four counters over a run. -/
def counted (calls : List (Call V)) : Nat := (calls.map Call.counted).sum

/-- The `Emit`s of a run, in order, with what each returned. -/
def emits (calls : List (Call V)) : List (Batch V × Option EmitError) :=
  calls.filterMap Call.emitted?

/-- The watermarks a run hands to `Save`. -/
def saves (calls : List (Call V)) : List (CheckpointKey × Watermark) :=
  calls.filterMap Call.saved?

section Append

variable (xs ys : List (Call V))

@[simp] theorem settled_append [DecidableEq V] : settled (xs ++ ys) = settled xs + settled ys := by
  simp [settled]

@[simp] theorem counted_append : counted (xs ++ ys) = counted xs + counted ys := by
  simp [counted]

@[simp] theorem emits_append : emits (xs ++ ys) = emits xs ++ emits ys := by
  simp [emits]

@[simp] theorem saves_append : saves (xs ++ ys) = saves xs ++ saves ys := by
  simp [saves]

end Append

theorem mem_saves {calls : List (Call V)} {key : CheckpointKey} {w : Watermark} {o : SaveOutcome}
    (h : Call.save key w o ∈ calls) : (key, w) ∈ saves calls :=
  List.mem_filterMap.mpr ⟨_, h, rfl⟩

/-! ### Calls that remove samples -/

/-- The calls that tell of `n` removed samples: what removed them, and the count if there are any. -/
theorem counted_cons_removed (c : Call V) (hc : c.counted = 0) (loop : String)
    (m : Nat → Metric) (hm : ∀ n, (Call.metric loop (m n) : Call V).counted = n) (n : Nat) :
    counted (c :: if 0 < n then [Call.metric loop (m n)] else []) = n := by
  rcases Nat.eq_zero_or_pos n with rfl | hpos
  · simp [counted, hc]
  · simp [counted, hc, hpos, hm]

theorem sub_add_sublist [DecidableEq V] {l l' : List (Sample V)} (h : l.Sublist l') :
    (l' : Multiset (Sample V)) - l + l = l' :=
  Multiset.sub_add_cancel (Multiset.coe_le.mpr h.subperm)

/-! ### Calls that touch no sample -/

/-- Calls that are neither an `Emit` nor a `Save` and that no sample counter sees. -/
def Quiet (calls : List (Call V)) : Prop :=
  ∀ c ∈ calls, (∃ key stored, c = .load key stored) ∨
    ∃ loop m, c = .metric loop m ∧ (Call.metric loop m : Call V).counted = 0

namespace Quiet

variable {calls : List (Call V)}

theorem nil : Quiet ([] : List (Call V)) := by
  intro c hc
  simp at hc

theorem append {more : List (Call V)} (h : Quiet calls) (h' : Quiet more) :
    Quiet (calls ++ more) := by
  intro c hc
  rcases List.mem_append.mp hc with hc | hc
  · exact h c hc
  · exact h' c hc

theorem settled [DecidableEq V] (h : Quiet calls) : GenaiBridge.settled calls = 0 := by
  refine List.sum_eq_zero fun x hx => ?_
  obtain ⟨c, hc, rfl⟩ := List.mem_map.mp hx
  rcases h c hc with ⟨key, stored, rfl⟩ | ⟨loop, m, rfl, -⟩ <;> rfl

theorem counted (h : Quiet calls) : GenaiBridge.counted calls = 0 := by
  refine List.sum_eq_zero fun x hx => ?_
  obtain ⟨c, hc, rfl⟩ := List.mem_map.mp hx
  rcases h c hc with ⟨key, stored, rfl⟩ | ⟨loop, m, rfl, hm⟩
  · rfl
  · exact hm

theorem emits (h : Quiet calls) : GenaiBridge.emits calls = [] := by
  refine List.filterMap_eq_nil_iff.mpr fun c hc => ?_
  rcases h c hc with ⟨key, stored, rfl⟩ | ⟨loop, m, rfl, -⟩ <;> rfl

theorem saves (h : Quiet calls) : GenaiBridge.saves calls = [] := by
  refine List.filterMap_eq_nil_iff.mpr fun c hc => ?_
  rcases h c hc with ⟨key, stored, rfl⟩ | ⟨loop, m, rfl, -⟩ <;> rfl

end Quiet

/-! ### The accounts of a part of the loop -/

/-- An answer of `Emit` the loop goes on after. -/
def Accepted (err : Option EmitError) : Prop := ∀ e, err = some e → isAdvancePast e = true

section Accounts

variable [DecidableEq V]

/-- The account of calls that went over `buckets`: every sample settled and counted. -/
structure Passed (buckets : List (Batch V)) (calls : List (Call V)) : Prop where
  settled : settled calls = (buckets.flatMap Batch.samples : List (Sample V))
  counted : counted calls = (buckets.flatMap Batch.samples).length
  emits : ∀ p ∈ emits calls,
    Accepted p.2 ∧ ∃ c ∈ buckets, p.1.key = c.key ∧ p.1.samples.Sublist c.samples
  saves : saves calls = []

/-- The account of calls that stopped at a bucket: one `Emit`, of samples of that bucket. -/
structure Stopped (bucket : Batch V) (calls : List (Call V)) : Prop where
  settled : settled calls ≤ (bucket.samples : Multiset (Sample V))
  emits : ∃ sub err, emits calls = [(sub, some err)] ∧ isAdvancePast err = false ∧
    sub.key = bucket.key ∧ sub.samples.Sublist bucket.samples ∧ sub.samples ≠ []
  saves : saves calls = []

theorem Passed.nil : Passed ([] : List (Batch V)) [] :=
  ⟨rfl, rfl, by simp [GenaiBridge.emits], rfl⟩

theorem Passed.append {buckets buckets' : List (Batch V)} {calls calls' : List (Call V)}
    (h : Passed buckets calls) (h' : Passed buckets' calls') :
    Passed (buckets ++ buckets') (calls ++ calls') where
  settled := by
    rw [settled_append, h.settled, h'.settled, List.flatMap_append, Multiset.coe_add]
  counted := by
    rw [counted_append, h.counted, h'.counted, List.flatMap_append, List.length_append]
  emits := by
    intro p hp
    rw [emits_append] at hp
    rcases List.mem_append.mp hp with hp | hp
    · obtain ⟨hok, c, hc, hsub⟩ := h.emits p hp
      exact ⟨hok, c, List.mem_append_left _ hc, hsub⟩
    · obtain ⟨hok, c, hc, hsub⟩ := h'.emits p hp
      exact ⟨hok, c, List.mem_append_right _ hc, hsub⟩
  saves := by rw [saves_append, h.saves, h'.saves, List.append_nil]

end Accounts

end GenaiBridge
