/-
Both checkpoint stores, and the limit of the DynamoDB store.

`checkpoint_stores_safe` is the result about the two stores.  The bound it puts on the
DynamoDB store is needed: `version_comes_back` is a run that writes one item 2^64 times
while a request prepared before all of them is still on its way, and in which that
request then takes effect and puts the epoch back.
-/
import GenaiBridge.Bridge.Lease
import GenaiBridge.Proofs.ConfigMap
import GenaiBridge.Proofs.DynamoDB

namespace GenaiBridge

open Lib.Optimistic

/-- **The checkpoint stores are safe under concurrent writers**: for the ConfigMap store over
every interleaving, for the DynamoDB store over those that write no item 2^64 times. -/
theorem checkpoint_stores_safe :
    (∀ sha256, StoreSafe (ConfigMap.store sha256) fun _ => True) ∧
    ∀ keyspace, StoreSafe (DynamoDB.store keyspace) DynamoDB.FewWrites :=
  ⟨ConfigMap.store_safe, DynamoDB.store_safe⟩

namespace DynamoDB

theorem run_of_stepWith {keyspace : String} {E : Int64 → Prop} {s t : System}
    (h : Relation.ReflTransGen (StepWith keyspace E) s t) : Run (client keyspace) applies s t :=
  Relation.ReflTransGen.mono (r := StepWith keyspace E) (fun _ _ hstep => hstep.1) _ _ h

/-! ### A version that comes back -/

/-- The key everybody writes. -/
private def busyKey : CheckpointKey := ⟨"portkey", "analytics", "otlp"⟩

/-- What is stored first. -/
private def firstWatermark : Watermark := { cursor := "a" }

/-- The watermark of the leader of epoch 1, whose request is delayed. -/
private def delayed : Watermark := { cursor := "z", epoch := 1 }

/-- The watermarks of the leader of epoch 2: its cursor moves back and forth. -/
private def busy (n : Nat) : Watermark := { cursor := if n % 2 = 0 then "b" else "c", epoch := 2 }

/-- What is stored after `n` writes of the leader of epoch 2. -/
private def busyBefore : Nat → Watermark
  | 0 => firstWatermark
  | n + 1 => busy n

private theorem refuses_zero_time {w : Watermark} (h : w.time = 0) : refusesSave w = none := by
  unfold refusesSave checkEncodable
  rw [h]
  decide

private theorem prepare_encode {w stored : Watermark} (version : Int64) (hzero : stored.time = 0)
    (hcheck : checkMonotonic stored w = .ok ()) :
    prepare (busyKey, w) (some (encode stored version))
      = .ok { item := encode w (version + 1), condition := .versionIs (nstr version) } := by
  have hread : readItem busyKey (some (encode stored version))
      = .ok (stored, version, .versionIs (nstr version)) := by
    rw [readItem, decode_encode version (refuses_zero_time hzero)]
    rfl
  simp only [prepare, hread, hcheck]

private theorem busyBefore_time (n : Nat) : (busyBefore n).time = 0 := by
  cases n <;> rfl

private theorem check_busy (n : Nat) : checkMonotonic (busyBefore n) (busy n) = .ok () := by
  cases n with
  | zero => decide
  | succ n =>
    have hcursor : (busy (n + 1)).cursor ≠ (busy n).cursor := by
      unfold busy
      rcases Nat.mod_two_eq_zero_or_one n with h | h
      · simp [h, show (n + 1) % 2 = 1 by omega]
      · simp [h, show (n + 1) % 2 = 0 by omega]
    show checkMonotonic (busy n) (busy (n + 1)) = .ok ()
    unfold checkMonotonic
    rw [if_neg (by simp [busy]), if_neg (by simp [busy]), if_neg (fun h => hcursor h.2)]

/-- The request a save sends after reading `stored` under `version`. -/
private def requestOf (c : Nat) (w stored : Watermark) (version : Int64) :
    Sent (CheckpointKey × Watermark) (Option Item) PutItem where
  call := c
  attempt := 0
  arg := (busyKey, w)
  snapshot := some (encode stored version)
  req := { item := encode w (version + 1), condition := .versionIs (nstr version) }

/-- The epochs of the two leaders. -/
private def OneOrTwo (epoch : Int64) : Prop := epoch = 1 ∨ epoch = 2

/-- A new call reads and sends its request. -/
private theorem sends {s : System} {c : Nat} {w stored : Watermark} {version : Int64}
    (hidle : s.calls c = .idle)
    (hcur : (s.cells (pk "" busyKey)).current = some (encode stored version))
    (hw : w.time = 0) (hepoch : OneOrTwo w.epoch) (hstored : stored.time = 0)
    (hcheck : checkMonotonic stored w = .ok ()) :
    ∃ t, Relation.ReflTransGen (StepWith "" OneOrTwo) s t ∧ t.cells = s.cells ∧
      t.sent = requestOf c w stored version :: s.sent ∧
      ∀ c', c' ≠ c → t.calls c' = s.calls c' := by
  have hstart : StepWith "" OneOrTwo s
      { s with calls := Function.update s.calls c (.reading (busyKey, w) 0) } := by
    refine ⟨Step.start c (busyKey, w) hidle (by rw [client_refuses]; exact refuses_zero_time hw), ?_⟩
    intro c' arg hidle' hreading
    dsimp only at hreading
    by_cases hc : c' = c
    · subst hc
      rw [Function.update_self] at hreading
      obtain ⟨rfl, -⟩ := Call.reading.inj hreading
      exact hepoch
    · rw [Function.update_of_ne hc, hidle'] at hreading
      cases hreading
  have hprep : (client "").prepare (busyKey, w) (s.cells ((client "").loc (busyKey, w))).current
      = .ok (requestOf c w stored version).req := by
    rw [client_prepare, client_loc, hcur]
    exact prepare_encode version hstored hcheck
  have hsend : Step (client "") applies
      { s with calls := Function.update s.calls c (.reading (busyKey, w) 0) } _ :=
    Step.send c (busyKey, w) 0 _ (by simp) hprep
  refine ⟨_, (Relation.ReflTransGen.single hstart).tail ⟨hsend, ?_⟩, rfl, ?_, ?_⟩
  · intro c' arg hidle' hreading
    dsimp only at hidle' hreading
    by_cases hc : c' = c
    · subst hc
      rw [Function.update_self] at hreading
      cases hreading
    · rw [Function.update_of_ne hc, hidle'] at hreading
      cases hreading
  · simp only [client_loc, hcur]
    rfl
  · intro c' hc'
    simp [Function.update_of_ne hc']

/-- A request that was sent takes effect where the version it read stands. -/
private theorem lands {s : System} {c : Nat} {w stored cur : Watermark} {version : Int64}
    (hsent : requestOf c w stored version ∈ s.sent)
    (hcur : (s.cells (pk "" busyKey)).current = some (encode cur version)) :
    ∃ t, Relation.ReflTransGen (StepWith "" OneOrTwo) s t ∧
      (t.cells (pk "" busyKey)).current = some (encode w (version + 1)) ∧
      t.sent = s.sent ∧ t.calls = s.calls := by
  have hholds : applies (requestOf c w stored version).req
      (s.cells ((client "").loc (requestOf c w stored version).arg)).current
      (some (encode w (version + 1))) := by
    refine ⟨?_, rfl⟩
    rw [client_loc]
    show Condition.holds (.versionIs (nstr version)) (s.cells (pk "" busyKey)).current = true
    rw [hcur]
    simp [Condition.holds, versionOf, encode]
  refine ⟨_, Relation.ReflTransGen.single ⟨Step.land _ _ hsent hholds, ?_⟩, ?_, rfl, rfl⟩
  · intro c' arg hidle hreading
    exact absurd (hidle.symm.trans hreading) (by simp)
  · rw [client_loc]
    simp only [requestOf, Function.update_self, Cell.write_current]

/-- The system after `n` writes of the leader of epoch 2: the delayed request is still there. -/
private def AfterWrites (n : Nat) (s : System) : Prop :=
  requestOf 0 delayed firstWatermark 0 ∈ s.sent ∧
    (s.cells (pk "" busyKey)).current = some (encode (busyBefore n) (Int64.ofNat n)) ∧
    ∀ c, n < c → s.calls c = .idle

private theorem afterWrites (n : Nat) :
    ∃ s, Relation.ReflTransGen (StepWith "" OneOrTwo)
      (.fresh fun _ => some (encode firstWatermark 0)) s ∧ AfterWrites n s := by
  induction n with
  | zero =>
    obtain ⟨s, hrun, hcells, hsent, hcalls⟩ := sends (c := 0) (w := delayed)
      (s := .fresh fun _ => some (encode firstWatermark 0)) rfl rfl rfl (Or.inl rfl) rfl (by decide)
    refine ⟨s, hrun, by rw [hsent]; exact List.mem_cons_self, by rw [hcells]; rfl, ?_⟩
    intro c hc
    rw [hcalls c (by omega)]
    rfl
  | succ n ih =>
    obtain ⟨s, hrun, hdelayed, hcur, hidle⟩ := ih
    obtain ⟨t, hrun', hcells, hsent, hcalls⟩ := sends (w := busy n) (hidle (n + 1) (by omega)) hcur
      rfl (Or.inr rfl) (busyBefore_time n) (check_busy n)
    rw [← hcells] at hcur
    obtain ⟨u, hrun'', hcur', hsent', hcalls'⟩ := lands
      (by rw [hsent]; exact List.mem_cons_self) hcur
    refine ⟨u, (hrun.trans hrun').trans hrun'', ?_, ?_, ?_⟩
    · rw [hsent', hsent]
      exact List.mem_cons_of_mem _ hdelayed
    · rw [hcur', busyBefore, Int64.ofNat_add]
      rfl
    · intro c hc
      rw [hcalls', hcalls c (by omega), hidle c (by omega)]

/-- After 2^64 writes of one item under epoch 2, a request prepared under epoch 1 before the
first of them takes effect: the epoch stored under the key goes back. -/
theorem version_comes_back :
    ∃ contents, ∃ s t : System,
      Relation.ReflTransGen (StepWith "" fun e => e = 1 ∨ e = 2) (.fresh contents) s ∧
      Relation.ReflTransGen (StepWith "" fun e => e = 1 ∨ e = 2) s t ∧
      ∃ key a b, load (s.cells (pk "" key)).current = some a ∧
        load (t.cells (pk "" key)).current = some b ∧ b.epoch < a.epoch := by
  obtain ⟨s, hrun, hsent, hcur, -⟩ := afterWrites (2 ^ 64)
  rw [show Int64.ofNat (2 ^ 64) = 0 by decide] at hcur
  obtain ⟨t, hrun', hcur', -⟩ := lands hsent hcur
  refine ⟨_, s, t, hrun, hrun', busyKey, busyBefore (2 ^ 64), delayed, ?_, ?_, ?_⟩
  · rw [hcur, load, loadEntry, decode_encode _ (refuses_zero_time (busyBefore_time _))]
    rfl
  · rw [hcur', load, loadEntry, decode_encode _ (refuses_zero_time (w := delayed) rfl)]
    rfl
  · show (1 : Int64) < 2
    decide

/-- Without the bound on the writes the DynamoDB store is not safe. -/
theorem store_unsafe_without_bound : ¬ StoreSafe (store "") fun _ => True := by
  intro h
  obtain ⟨contents, s, t, hrun, hrun', key, a, b, ha, hb, hlt⟩ := version_comes_back
  obtain ⟨b', hb', hepoch, -⟩ := h.run contents s t (run_of_stepWith hrun) (run_of_stepWith hrun')
    trivial (pk "" key) a ha
  obtain rfl : b = b' := Option.some.inj (hb.symm.trans hb')
  exact absurd hepoch (Int64.not_le.mpr hlt)

end DynamoDB

end GenaiBridge
