/-
The DynamoDB store under concurrent writers.

Every watermark has an item of its own, written under a condition on its `version`
attribute.  Versions count up by one in 64 bits, so they are distinct for as long as
an item is written fewer than 2^64 times; after that many writes a version comes back
and with it a request prepared from the old item.
-/
import GenaiBridge.Proofs.Checkpoint
import Mathlib.Data.List.Chain

namespace GenaiBridge

open Lib.Optimistic

namespace DynamoDB

theorem parseInt_toInt (n : Int64) : parseInt (n.toInt : ℚ) = some n := by
  have hlo : minInt64 ≤ n.toInt := Int64.le_toInt n
  have hhi : n.toInt ≤ maxInt64 := Int64.toInt_le n
  simp [parseInt, hlo, hhi]

theorem numAttr_nstr (n : Int64) : numAttr (some (nstr n)) = some n := parseInt_toInt n

theorem nstr_inj {m n : Int64} (h : nstr m = nstr n) : m = n := by
  have := congrArg (fun a => numAttr (some a)) h
  simpa [numAttr_nstr] using this

theorem eq_nstr_of_numAttr {a : AttributeValue} {n : Int64} (h : numAttr (some a) = some n) :
    a = nstr n := by
  cases a with
  | s v => cases h
  | other => cases h
  | n q =>
    simp only [numAttr, parseInt] at h
    split at h
    · rename_i hq
      obtain rfl := Option.some.inj h
      rw [nstr, Int64.toInt_ofInt_of_le hq.2.1 (by have := hq.2.2; unfold maxInt64 at this; omega)]
      rw [← Rat.num_div_den q, hq.1]
      simp
    · cases h

theorem decode_encode {w : Watermark} (version : Int64) (h : refusesSave w = none) :
    decode (encode w version) = some (w, version) := by
  have hyear : 0 ≤ Lib.Rfc3339.year w.time ∧ Lib.Rfc3339.year w.time ≤ 9999 := by
    unfold refusesSave checkEncodable at h
    dsimp only at h
    split at h
    · cases h
    · rename_i hok
      split at hok
      · cases hok
      · omega
  have hparse := Lib.Rfc3339.parse_formatNano hyear.1 hyear.2
  simp [decode, encode, sstr, strAttr, versionAttr, String.toList_ofList, hparse, numAttr_nstr]

/-- What a save reads off an item: its watermark, and a condition that names its version. -/
theorem readItem_ok {key : CheckpointKey} {cur : Option Item} {stored : Watermark}
    {version : Int64} {condition : Condition}
    (h : readItem key cur = .ok (stored, version, condition)) :
    load cur = some stored ∧
    (versionOf cur = some (nstr version) ∨ versionOf cur = none ∧ version = 0) ∧
    ∀ cur', condition.holds cur' = true → versionOf cur' = versionOf cur := by
  cases cur with
  | none =>
    simp only [readItem, Except.ok.injEq, Prod.mk.injEq] at h
    obtain ⟨rfl, rfl, rfl⟩ := h
    refine ⟨rfl, Or.inr ⟨rfl, rfl⟩, ?_⟩
    intro cur' hholds
    cases cur' with
    | none => rfl
    | some i => cases hholds
  | some item =>
    simp only [readItem] at h
    cases hdec : decode item with
    | none => rw [hdec] at h; cases h
    | some p =>
      obtain ⟨st, ver⟩ := p
      rw [hdec] at h
      simp only [Except.ok.injEq, Prod.mk.injEq] at h
      obtain ⟨rfl, rfl, rfl⟩ := h
      have hversion : item.version = some (nstr ver) ∨ item.version = none ∧ ver = 0 := by
        simp only [decode, Option.bind_eq_bind, Option.bind_eq_some_iff] at hdec
        obtain ⟨ts, -, tm, -, ep, -, v, hv, hret⟩ := hdec
        obtain rfl : v = ver := (Prod.mk.inj (Option.some.inj hret)).2
        cases hitem : item.version with
        | none =>
          rw [hitem] at hv
          exact Or.inr ⟨rfl, (Option.some.inj hv).symm⟩
        | some raw =>
          rw [hitem] at hv
          exact Or.inl (congrArg some (eq_nstr_of_numAttr hv))
      refine ⟨by simp [load, loadEntry, hdec], hversion, ?_⟩
      intro cur' hholds
      rcases hversion with hv | ⟨hv, -⟩
      · simpa [hv, Condition.holds, versionOf] using hholds
      · simpa [hv, Condition.holds, versionOf] using hholds

/-- What `prepare` checked and built, when it lets a save through. -/
theorem prepare_ok {key : CheckpointKey} {w : Watermark} {cur : Option Item} {put : PutItem}
    (h : prepare (key, w) cur = .ok put) :
    ∃ stored version condition, readItem key cur = .ok (stored, version, condition) ∧
      checkMonotonic stored w = .ok () ∧
      put = { item := encode w (version + 1), condition := condition } := by
  unfold prepare at h
  dsimp only at h
  split at h
  · cases h
  · rename_i stored version condition hread
    split at h
    · cases h
    · rename_i hcheck
      exact ⟨stored, version, condition, hread, hcheck, (Except.ok.inj h).symm⟩

/-- Each of the three conditions compares version attributes. -/
theorem conditional (keyspace : String) :
    Conditional versionOf (client keyspace) applies := by
  rintro ⟨key, w⟩ snapshot put cur v hprep ⟨hholds, -⟩
  obtain ⟨stored, version, condition, hread, -, rfl⟩ := prepare_ok hprep
  exact (readItem_ok hread).2.2 cur hholds

/-! ### Versions count up -/

/-- A save gives the item the next version: 1 if it had none. -/
def NextVersion (new old : Option AttributeValue) : Prop :=
  ∃ v : Int64, new = some (nstr (v + 1)) ∧ (old = some (nstr v) ∨ old = none ∧ v = 0)

theorem nextVersion_of_effect {keyspace : String} {arg : CheckpointKey × Watermark}
    {cur v : Option Item} (h : Effect (client keyspace) applies arg cur v) :
    NextVersion (versionOf v) (versionOf cur) := by
  obtain ⟨put, hprep, -, rfl⟩ := h.applied
  obtain ⟨stored, version, condition, hread, -, rfl⟩ := prepare_ok hprep
  exact ⟨version, rfl, (readItem_ok hread).2.1⟩

/-- The versions below the newest one, as long as they go back. -/
theorem mem_of_chain {l : List (Option AttributeValue)} :
    ∀ {v : Int64}, (some (nstr v) :: l).IsChain NextVersion →
      ∀ b ∈ l, b = none ∨ ∃ k, 0 < k ∧ k ≤ l.length ∧ b = some (nstr (v - Int64.ofNat k)) := by
  induction l with
  | nil => intro v _ b hb; cases hb
  | cons c l ih =>
    intro v hchain b hb
    obtain ⟨⟨u, hu, hc⟩, hrest⟩ := List.isChain_cons_cons.mp hchain
    have huv : u = v - 1 := by
      have := nstr_inj (Option.some.inj hu)
      rw [this, Int64.add_sub_cancel]
    rcases hc with rfl | ⟨rfl, -⟩
    · rcases List.mem_cons.mp hb with rfl | hb
      · exact Or.inr ⟨1, by omega, by simp, by rw [huv]; rfl⟩
      · rcases ih hrest b hb with hnone | ⟨k, hk, hle, hbk⟩
        · exact Or.inl hnone
        · refine Or.inr ⟨k + 1, by omega, by simp; omega, ?_⟩
          rw [hbk, huv]
          congr 2
          rw [Int64.ofNat_add, Int64.sub_sub, Int64.add_comm]
          rfl
    · -- an item without a version is the first of the chain
      cases l with
      | nil => exact Or.inl (by simpa using hb)
      | cons d l =>
        obtain ⟨⟨v', hv', -⟩, -⟩ := List.isChain_cons_cons.mp hrest
        cases hv'

theorem sub_ofNat_ne {v : Int64} {k : Nat} (h0 : 0 < k) (h : k < 2 ^ 64) :
    v ≠ v - Int64.ofNat k := by
  intro h
  have hbv : v.toBitVec = v.toBitVec - BitVec.ofNat 64 k := by
    simpa using congrArg Int64.toBitVec h
  bv_omega

theorem nodup_of_chain {l : List (Option AttributeValue)} (h : l.IsChain NextVersion)
    (hlen : l.length ≤ 2 ^ 64) : l.Nodup := by
  induction l with
  | nil => exact List.nodup_nil
  | cons a l ih =>
    rw [List.length_cons] at hlen
    cases l with
    | nil => simp
    | cons b l =>
      obtain ⟨⟨v, rfl, -⟩, hrest⟩ := List.isChain_cons_cons.mp h
      refine List.nodup_cons.mpr ⟨?_, ih hrest (by omega)⟩
      intro hmem
      rcases mem_of_chain h _ hmem with hnone | ⟨k, hk, hle, heq⟩
      · cases hnone
      · exact sub_ofNat_ne hk (by omega) (nstr_inj (Option.some.inj heq))

/-! ### The store -/

theorem safeWrite {keyspace : String} {key : CheckpointKey} {w : Watermark}
    {items items' : String → Option Item}
    (h : Effect (client keyspace) applies (key, w) (items (pk keyspace key))
      (items' (pk keyspace key)))
    (hothers : ∀ k, k ≠ pk keyspace key → items' k = items k) :
    SafeWrite (fun i => (decode i).map Prod.fst) items items' (pk keyspace key) w := by
  obtain ⟨put, hprep, -, hnew⟩ := h.applied
  obtain ⟨stored, version, condition, hread, hcheck, rfl⟩ := prepare_ok hprep
  refine ⟨⟨stored, (readItem_ok hread).1, hcheck⟩, ?_, hothers⟩
  rw [hnew, loadEntry, decode_encode _ h.accepted]
  rfl

/-- The DynamoDB store: an item for each partition key. -/
def store (keyspace : String) : Store String (Option Item) PutItem Item where
  client := client keyspace
  applies := applies
  entries cells k := (cells k).current
  decode i := (decode i).map Prod.fst
  storeKey := pk keyspace

/-- No item has been written 2^64 times or more. -/
def FewWrites {keyspace : String} (s : (store keyspace).System) : Prop :=
  ∀ k, (s.cells k).earlier.length < 2 ^ 64

theorem store_safe (keyspace : String) : StoreSafe (store keyspace) FewWrites := by
  refine storeSafe versionOf (conditional keyspace) ?_ ?_ ?_
  · intro s t hrun hfew k
    have hle := (hrun.values_suffix k).length_le
    have := hfew k
    simp only [Cell.values, List.length_cons] at hle
    omega
  · intro contents s hrun hfew
    refine distinct_of_chain (fun new old => NextVersion (versionOf new) (versionOf old))
      (fun l => l.length ≤ 2 ^ 64) (fun l l' h hle => h.length_le.trans hle)
      (fun arg cur v h => nextVersion_of_effect h) ?_ (conditional keyspace) hrun ?_
    · intro l hl hlen
      exact nodup_of_chain ((List.isChain_map versionOf).mpr hl) (by simpa using hlen)
    · intro k
      have := hfew k
      simp only [Cell.values, List.length_cons]
      omega
  · rintro cells ⟨key, w⟩ v heffect
    refine safeWrite ?_ ?_
    · simpa [store, client] using heffect
    · intro k hk
      simp [store, client, Function.update_of_ne hk]

end DynamoDB

end GenaiBridge
