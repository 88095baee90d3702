/-
The log encoding is canonical, and what is lost in it.

`EncodeLogs` groups the records by the key of their indexed attributes and sorts the
groups by that key and the records of a group by all else they have, so the order of the
input does not matter.  Each group is one message, with the identity under the indexed
attributes for its resource and the records of the group in it.

A receiver that knows the identity can take it off the resource again, and so has every
record with its indexed attributes, unless a record has an indexed attribute that the
identity has with the same value.
-/
import GenaiBridge.Bridge.OtlpLogs
import GenaiBridge.Proofs.Budget
import GenaiBridge.Proofs.Readback

namespace GenaiBridge

/-! ### What is read -/

/-- What a receiver reads of a log record. -/
structure LogReading where
  time : Int
  severity : String
  attributes : Labels
  traceID : List UInt8
deriving DecidableEq

/-- The reading of a message. -/
def OtlpLogRecord.reading (lr : OtlpLogRecord) : LogReading :=
  ⟨readUnixNano lr.timeUnixNano, lr.severityText, readLabels lr.attributes, lr.traceId⟩

/-- A record as a receiver should read it. -/
def LogRecord.reading (r : LogRecord) : LogReading :=
  ⟨r.timestamp - Time.unixEpoch, r.severity, r.recordAttributes, r.traceID⟩

/-- The records the encoding is for: no body, a time that fits, and a trace id of 16 bytes or
none. -/
structure LogRecord.Encodable (r : LogRecord) : Prop where
  body : r.body = ""
  time : Time.InUnixNanoRange r.timestamp
  traceID : r.traceID = [] ∨ r.traceID.length = 16

theorem reading_logRecordOf {r : LogRecord} (o : Lib.MapOrder) (h : r.Encodable) :
    (logRecordOf o r).reading = r.reading := by
  have htrace : (if r.traceID.length = 16 then r.traceID else []) = r.traceID := by
    rcases h.traceID with hnone | hlen
    · simp [hnone]
    · rw [if_pos hlen]
  simp only [logRecordOf, OtlpLogRecord.reading, LogRecord.reading, readLabels_sortedKVs,
    readUnixNano_unixNano h.time, htrace]

/-- Take the attributes off that the identity has. -/
def withoutIdentity (identity resource : Labels) : Labels :=
  resource.filter fun e => identity.get? e.1 ≠ some e.2

/-- The records of the messages, each with its indexed attributes. -/
def logReadings (identity : Labels) (messages : List ResourceLogs) : List (Labels × LogReading) :=
  messages.flatMap fun rl =>
    rl.logRecords.map fun lr => (withoutIdentity identity (readLabels rl.attributes), lr.reading)

/-! ### The resource -/

/-- The identity, overridden by the indexed attributes. -/
theorem get?_mergeAttrs (o : Lib.MapOrder) (a b : Labels) (k : String) :
    (mergeAttrs o a b).get? k = (b.get? k).or (a.get? k) := by
  unfold mergeAttrs
  rw [Lib.SortedMap.get?_copy (o.perm _), Lib.SortedMap.get?_copy (o.perm _),
    Lib.SortedMap.get?_empty, Option.or_none]

theorem mem_keys_mergeAttrs {o : Lib.MapOrder} {a b : Labels} {k : String} :
    k ∈ (mergeAttrs o a b).keys ↔ k ∈ a.keys ∨ k ∈ b.keys := by
  simp only [Lib.SortedMap.mem_keys, get?_mergeAttrs, ← Option.isSome_iff_exists, Option.isSome_or,
    Bool.or_eq_true]
  exact or_comm

theorem mergeAttrs_order (o o' : Lib.MapOrder) (a b : Labels) :
    mergeAttrs o a b = mergeAttrs o' a b :=
  Lib.SortedMap.ext_get? fun k => by rw [get?_mergeAttrs, get?_mergeAttrs]

/-- No indexed attribute is one of the identity. -/
def Labels.Apart (identity indexed : Labels) : Prop :=
  ∀ k v, indexed.get? k = some v → identity.get? k ≠ some v

theorem withoutIdentity_mergeAttrs {o : Lib.MapOrder} {identity indexed : Labels}
    (h : Labels.Apart identity indexed) :
    withoutIdentity identity (mergeAttrs o identity indexed) = indexed := by
  refine Lib.SortedMap.ext_get? fun k => Option.ext fun v => ?_
  rw [Lib.SortedMap.get?_eq_some, withoutIdentity, Lib.SortedMap.filter, List.mem_filter,
    ← Lib.SortedMap.get?_eq_some, get?_mergeAttrs]
  simp only [decide_eq_true_eq]
  constructor
  · rintro ⟨hget, hother⟩
    cases hindexed : indexed.get? k with
    | some w => simpa [hindexed] using hget
    | none =>
      rw [hindexed, Option.none_or] at hget
      exact absurd hget hother
  · intro hget
    exact ⟨by rw [hget, Option.some_or], h k v hget⟩

/-! ### The order of the records -/

/-- What the records of a group are sorted by. -/
def recordKey (r : LogRecord) : Int ×ₗ String ×ₗ String ×ₗ List Nat :=
  toLex (r.timestamp, toLex (r.severity, toLex (labelKey .stored r.recordAttributes,
    r.traceID.map UInt8.toNat)))

theorem comparesBy_recordKey (o : Lib.MapOrder) : Lib.ComparesBy recordKey (recordBefore o) := by
  unfold recordBefore bytesBefore
  simp only [labelKey_eq o, ← labelKey_eq .stored]
  exact .level _ (.level _ (.level _ (.last _)))

/-- The sort key and the indexed attributes are all a record without a body has. -/
theorem eq_of_recordKey_eq {r r' : LogRecord} (hr : r.body = "") (hr' : r'.body = "")
    (hindexed : r.indexedAttributes = r'.indexedAttributes) (h : recordKey r = recordKey r') :
    r = r' := by
  simp only [recordKey, toLex_inj, Prod.mk.injEq] at h
  obtain ⟨htime, hseverity, hattributes, htrace⟩ := h
  have htrace' := List.map_injective_iff.mpr (fun _ _ => UInt8.toNat_inj.mp) htrace
  have hattributes' := labelKey_inj hattributes
  cases r
  cases r'
  simp_all

/-- The message of a group depends on the records in it only. -/
theorem resourceLogsOf_perm {identity : Labels} {recs recs' : List LogRecord} {indexed : Labels}
    (hperm : recs.Perm recs') (hbody : ∀ r ∈ recs, r.body = "")
    (hindexed : ∀ r ∈ recs, r.indexedAttributes = indexed) (o o' : Lib.MapOrder) :
    resourceLogsOf o identity recs = resourceLogsOf o' identity recs' := by
  have hsort : (recs.insertionSort fun a b => !recordBefore o b a) =
      recs'.insertionSort fun a b => !recordBefore o' b a := by
    have hbefore : recordBefore o = recordBefore o' := by
      funext a b
      simp only [recordBefore, labelKey_eq]
    rw [hbefore]
    refine (comparesBy_recordKey o').sort_eq_of_perm hperm fun a ha b hb heq => ?_
    exact eq_of_recordKey_eq (hbody a ha) (hbody b hb)
      ((hindexed a ha).trans (hindexed b hb).symm) heq
  have hgroup : groupIndexed recs = groupIndexed recs' := by
    cases recs with
    | nil => rw [hperm.nil_eq]
    | cons r rest =>
      cases recs' with
      | nil => cases hperm.eq_nil
      | cons r' rest' =>
        have hr' : r' ∈ r :: rest := hperm.symm.subset (by simp)
        exact (hindexed r (by simp)).trans (hindexed r' hr').symm
  have hrecord : logRecordOf o = logRecordOf o' := by
    funext r
    simp only [logRecordOf, sortedKVs_eq]
  simp only [resourceLogsOf, hsort, hgroup, hrecord, sortedKVs_eq, mergeAttrs_order o o']

/-! ### The groups -/

/-- The keys of the groups, in order. -/
private def groupOrder (logs : List LogRecord) : List String :=
  ((Lib.groupBy (fun r => labelKey .stored r.indexedAttributes) logs).map Prod.fst).insertionSort
    (· ≤ ·)

/-- The records of a key. -/
private def recordsOf (logs : List LogRecord) (k : String) : List LogRecord :=
  logs.filter fun r => labelKey .stored r.indexedAttributes = k

private theorem nodup_groupOrder (logs : List LogRecord) : (groupOrder logs).Nodup :=
  (List.perm_insertionSort _ _).nodup_iff.mpr (Lib.keys_groupBy_nodup _ _)

private theorem mem_groupOrder {logs : List LogRecord} {k : String} :
    k ∈ groupOrder logs ↔ ∃ r ∈ logs, labelKey .stored r.indexedAttributes = k := by
  rw [groupOrder, (List.perm_insertionSort _ _).mem_iff, Lib.mem_keys_groupBy, List.mem_map]

private theorem resourceLogs_eq (o : Lib.MapOrder) (identity : Labels) (logs : List LogRecord) :
    resourceLogs o identity logs =
      (groupOrder logs).map fun k => resourceLogsOf o identity (recordsOf logs k) := by
  have hkey : (fun r : LogRecord => labelKey o r.indexedAttributes) =
      fun r => labelKey .stored r.indexedAttributes := by
    funext r
    rw [labelKey_eq, labelKey_eq]
  unfold resourceLogs groupOrder recordsOf
  dsimp only
  rw [o.insertionSort_visit, hkey]
  simp only [Lib.lookupGroup_groupBy]

private theorem groupOrder_perm {logs logs' : List LogRecord} (hperm : logs.Perm logs') :
    groupOrder logs = groupOrder logs' := by
  refine Lib.insertionSort_eq_of_perm ((List.perm_ext_iff_of_nodup (Lib.keys_groupBy_nodup _ _)
    (Lib.keys_groupBy_nodup _ _)).mpr fun k => ?_)
  rw [Lib.mem_keys_groupBy, Lib.mem_keys_groupBy]
  exact (hperm.map _).mem_iff

private theorem recordsOf_groupIndexed {logs : List LogRecord} {k : String}
    (hk : k ∈ groupOrder logs) :
    labelKey .stored (groupIndexed (recordsOf logs k)) = k ∧
      recordsOf logs k =
        logs.filter fun r => r.indexedAttributes = groupIndexed (recordsOf logs k) := by
  obtain ⟨r, hr, hkey⟩ := mem_groupOrder.mp hk
  have hkeys : ∀ s ∈ recordsOf logs k, labelKey .stored s.indexedAttributes = k := fun s hs =>
    of_decide_eq_true (List.mem_filter.mp hs).2
  have hfirst : labelKey .stored (groupIndexed (recordsOf logs k)) = k := by
    have hmem : r ∈ recordsOf logs k := List.mem_filter.mpr ⟨hr, decide_eq_true hkey⟩
    cases hrecs : recordsOf logs k with
    | nil =>
      rw [hrecs] at hmem
      cases hmem
    | cons first rest => exact hkeys first (by rw [hrecs]; simp)
  refine ⟨hfirst, List.filter_congr fun s _ => decide_eq_decide.mpr ⟨fun hs => ?_, fun hs => ?_⟩⟩
  · exact labelKey_inj (hs.trans hfirst.symm)
  · rw [hs, hfirst]

private theorem indexed_of_mem_recordsOf {logs : List LogRecord} {k : String}
    (hk : k ∈ groupOrder logs) {r : LogRecord} (hr : r ∈ recordsOf logs k) :
    r.indexedAttributes = groupIndexed (recordsOf logs k) := by
  rw [(recordsOf_groupIndexed hk).2] at hr
  exact of_decide_eq_true (List.mem_filter.mp hr).2

/-- The maps of the groups. -/
private def groupMaps (logs : List LogRecord) : List Labels :=
  (groupOrder logs).map fun k => groupIndexed (recordsOf logs k)

private theorem nodup_groupMaps (logs : List LogRecord) : (groupMaps logs).Nodup := by
  have hkeys : (groupMaps logs).map (labelKey .stored) = groupOrder logs := by
    rw [groupMaps, List.map_map]
    exact (List.map_congr_left fun k hk => (recordsOf_groupIndexed hk).1).trans (List.map_id _)
  exact List.Nodup.of_map (labelKey .stored) (hkeys ▸ nodup_groupOrder logs)

private theorem mem_groupMaps {logs : List LogRecord} {m : Labels} :
    m ∈ groupMaps logs ↔ m ∈ logs.map LogRecord.indexedAttributes := by
  simp only [groupMaps, List.mem_map]
  constructor
  · rintro ⟨k, hk, rfl⟩
    obtain ⟨r, hr, hkey⟩ := mem_groupOrder.mp hk
    exact ⟨r, hr, labelKey_inj (hkey.trans (recordsOf_groupIndexed hk).1.symm)⟩
  · rintro ⟨r, hr, rfl⟩
    have hk := mem_groupOrder.mpr ⟨r, hr, rfl⟩
    exact ⟨_, hk, labelKey_inj (recordsOf_groupIndexed hk).1⟩

/-! ### The messages -/

/-- The messages do not depend on the order of the records. -/
theorem resourceLogs_perm {identity : Labels} {logs logs' : List LogRecord}
    (hperm : logs'.Perm logs) (hbody : ∀ r ∈ logs, r.body = "") (o o' : Lib.MapOrder) :
    resourceLogs o identity logs' = resourceLogs o' identity logs := by
  rw [resourceLogs_eq, resourceLogs_eq, groupOrder_perm hperm]
  refine List.map_congr_left fun k hk => ?_
  have hgroup : (recordsOf logs' k).Perm (recordsOf logs k) := hperm.filter _
  exact resourceLogsOf_perm hgroup
    (fun r hr => hbody r (List.mem_filter.mp (hgroup.subset hr)).1)
    (fun r hr => indexed_of_mem_recordsOf hk (hgroup.subset hr)) o o'

/-- The resource of a message is the identity under the indexed attributes of some record. -/
theorem attributes_of_mem_resourceLogs {o : Lib.MapOrder} {identity : Labels}
    {logs : List LogRecord} {rl : ResourceLogs} (h : rl ∈ resourceLogs o identity logs) :
    ∃ r ∈ logs, rl.attributes = sortedKVs o (mergeAttrs o identity r.indexedAttributes) := by
  rw [resourceLogs_eq] at h
  obtain ⟨k, hk, rfl⟩ := List.mem_map.mp h
  obtain ⟨r, hr, hkey⟩ := mem_groupOrder.mp hk
  have hmem : r ∈ recordsOf logs k := List.mem_filter.mpr ⟨hr, decide_eq_true hkey⟩
  refine ⟨r, hr, ?_⟩
  rw [indexed_of_mem_recordsOf hk hmem]
  rfl

/-- The records of a group's message read as the records of the group. -/
theorem readings_resourceLogsOf {recs : List LogRecord} (h : ∀ r ∈ recs, r.Encodable)
    (o : Lib.MapOrder) (identity : Labels) :
    ((resourceLogsOf o identity recs).logRecords.map OtlpLogRecord.reading).Perm
      (recs.map LogRecord.reading) := by
  have hperm := List.perm_insertionSort (fun a b => !recordBefore o b a) recs
  have hsame : (recs.insertionSort fun a b => !recordBefore o b a).map
      (OtlpLogRecord.reading ∘ logRecordOf o) =
      (recs.insertionSort fun a b => !recordBefore o b a).map LogRecord.reading :=
    List.map_congr_left fun r hr => reading_logRecordOf o (h r (hperm.subset hr))
  rw [resourceLogsOf, List.map_map, hsame]
  exact hperm.map _

private theorem forall₂_resourceLogs {logs : List LogRecord} (h : ∀ r ∈ logs, r.Encodable)
    (identity : Labels) :
    List.Forall₂ (fun m rl =>
      (∀ k, (readLabels rl.attributes).get? k = (m.get? k).or (identity.get? k)) ∧
      (rl.logRecords.map OtlpLogRecord.reading).Perm
        ((logs.filter fun r => r.indexedAttributes = m).map LogRecord.reading))
      (groupMaps logs) (resourceLogs .stored identity logs) := by
  rw [groupMaps, resourceLogs_eq, List.forall₂_map_left_iff, List.forall₂_map_right_iff,
    List.forall₂_same]
  intro k hk
  refine ⟨fun j => ?_, ?_⟩
  · rw [resourceLogsOf, readLabels_sortedKVs, get?_mergeAttrs]
  · rw [← (recordsOf_groupIndexed hk).2]
    exact readings_resourceLogsOf (fun r hr => h r (List.mem_filter.mp hr).1) _ _

private theorem logReadings_resourceLogs {identity : Labels} {logs : List LogRecord}
    (h : ∀ r ∈ logs, r.Encodable)
    (hapart : ∀ r ∈ logs, Labels.Apart identity r.indexedAttributes) :
    (logReadings identity (resourceLogs .stored identity logs)).Perm
      (logs.map fun r => (r.indexedAttributes, r.reading)) := by
  have hcover : ((groupOrder logs).flatMap (recordsOf logs)).Perm logs :=
    Lib.flatMap_filter_perm (fun r : LogRecord => labelKey .stored r.indexedAttributes) _ logs
      (nodup_groupOrder logs) fun r hr => mem_groupOrder.mpr ⟨r, hr, rfl⟩
  refine List.Perm.trans ?_ (hcover.map fun r => (r.indexedAttributes, r.reading))
  rw [resourceLogs_eq, logReadings, List.flatMap_map, List.map_flatMap]
  refine List.Perm.flatMap_left _ fun k hk => ?_
  set indexed := groupIndexed (recordsOf logs k)
  obtain ⟨r, hr, hkey⟩ := mem_groupOrder.mp hk
  have hr' : r ∈ recordsOf logs k := List.mem_filter.mpr ⟨hr, decide_eq_true hkey⟩
  have hresource : withoutIdentity identity
      (readLabels (resourceLogsOf .stored identity (recordsOf logs k)).attributes) = indexed := by
    have hkept := hapart r hr
    rw [indexed_of_mem_recordsOf hk hr'] at hkept
    rw [resourceLogsOf, readLabels_sortedKVs]
    exact withoutIdentity_mergeAttrs hkept
  have hpairs : (recordsOf logs k).map (fun r => (r.indexedAttributes, r.reading)) =
      ((recordsOf logs k).map LogRecord.reading).map (indexed, ·) := by
    rw [List.map_map]
    exact List.map_congr_left fun r hr => by rw [indexed_of_mem_recordsOf hk hr]; rfl
  rw [hpairs, hresource]
  have hrecs : ∀ r ∈ recordsOf logs k, r.Encodable := fun r hr => h r (List.mem_filter.mp hr).1
  have hread := (readings_resourceLogsOf hrecs .stored identity).map (indexed, ·)
  rwa [List.map_map] at hread

/-- The guard leaves no body. -/
theorem Guard.body_of_mem_sanitizeLogs (g : Guard) (loop : String) (logs : List LogRecord) :
    ∀ r ∈ (g.sanitizeLogs loop logs).1, r.body = "" := by
  intro r hr
  obtain ⟨⟨lr, -, rfl⟩, -⟩ := mem_sanitizeLogs Unit hr
  rfl

/-- **The log encoding is canonical, and faithful but for the identity.**  Records of the kind the
guard passes have one list of messages, whatever their order is and whatever order the maps are
visited in: one for each map of indexed attributes, with the identity overridden by that map for its
resource and the records of that map in it.  Where no record has an attribute of the identity among
its indexed ones, a receiver that knows the identity reads back the records. -/
theorem log_encoding_faithful (identity : Labels) (logs : List LogRecord)
    (hlogs : ∀ r ∈ logs, r.Encodable) :
    (∃ messages indexed, (∀ o logs', logs'.Perm logs → resourceLogs o identity logs' = messages) ∧
      indexed.Nodup ∧ (∀ m, m ∈ indexed ↔ m ∈ logs.map LogRecord.indexedAttributes) ∧
      List.Forall₂ (fun m rl =>
        (∀ k, (readLabels rl.attributes).get? k = (m.get? k).or (identity.get? k)) ∧
        (rl.logRecords.map OtlpLogRecord.reading).Perm
          ((logs.filter fun r => r.indexedAttributes = m).map LogRecord.reading))
        indexed messages ∧
      ((∀ r ∈ logs, Labels.Apart identity r.indexedAttributes) →
        (logReadings identity messages).Perm
          (logs.map fun r => (r.indexedAttributes, r.reading)))) ∧
    ∀ (g : Guard) loop all, ∀ r ∈ (g.sanitizeLogs loop all).1, r.body = "" := by
  refine ⟨⟨resourceLogs .stored identity logs, groupMaps logs, fun o logs' hperm => ?_,
    nodup_groupMaps logs, fun m => mem_groupMaps, forall₂_resourceLogs hlogs identity,
    logReadings_resourceLogs hlogs⟩, Guard.body_of_mem_sanitizeLogs⟩
  exact resourceLogs_perm hperm (fun r hr => (hlogs r hr).body) o .stored

/-- A record at the Unix epoch. -/
private def epochRecord (indexed : Labels) : LogRecord :=
  { timestamp := Time.unixEpoch, body := "", severity := "INFO", indexedAttributes := indexed
    recordAttributes := .empty, traceID := [] }

private theorem epochRecord_encodable (indexed : Labels) : (epochRecord indexed).Encodable :=
  ⟨rfl, by simp [epochRecord, Time.InUnixNanoRange, minInt64, maxInt64], Or.inl rfl⟩

/-- Labels with one entry. -/
private def oneLabel (k v : String) : Labels := Lib.SortedMap.empty.insert k v

/-- Two equal records with a value other than the identity's are read back, both. -/
theorem log_encoding_overridden :
    ∃ messages, (∀ o, resourceLogs o (oneLabel "env" "prod")
        [epochRecord (oneLabel "env" "dev"), epochRecord (oneLabel "env" "dev")] = messages) ∧
      (logReadings (oneLabel "env" "prod") messages).Perm
        (List.replicate 2 (oneLabel "env" "dev", (epochRecord .empty).reading)) := by
  have hlogs : ∀ r ∈ [epochRecord (oneLabel "env" "dev"), epochRecord (oneLabel "env" "dev")],
      r.Encodable := by
    simpa using epochRecord_encodable _
  obtain ⟨⟨messages, -, hsame, -, -, -, hread⟩, -⟩ :=
    log_encoding_faithful (oneLabel "env" "prod") _ hlogs
  refine ⟨messages, fun o => hsame o _ (List.Perm.refl _), hread ?_⟩
  intro r hr k v hk
  obtain rfl : r = epochRecord (oneLabel "env" "dev") := by simpa using hr
  obtain ⟨rfl, rfl⟩ : k = "env" ∧ v = "dev" := by
    simpa [epochRecord, oneLabel, Lib.SortedMap.get?_eq_some, Lib.SortedMap.insert,
      Lib.SortedMap.insertEntry, Lib.SortedMap.empty] using hk
  decide

/-- **An indexed attribute of the identity is lost**: a record that has it and one that does not have
the same messages. -/
theorem identity_attribute_lost :
    (∀ r ∈ [epochRecord .empty, epochRecord (oneLabel "env" "prod")], r.Encodable) ∧
      (∀ o, resourceLogs o (oneLabel "env" "prod") [epochRecord .empty] =
        resourceLogs o (oneLabel "env" "prod") [epochRecord (oneLabel "env" "prod")]) ∧
      ¬([epochRecord .empty].map fun r => (r.indexedAttributes, r.reading)).Perm
        ([epochRecord (oneLabel "env" "prod")].map fun r => (r.indexedAttributes, r.reading)) := by
  refine ⟨by simp [epochRecord_encodable], fun o => ?_, by decide⟩
  rw [resourceLogs_perm (List.Perm.refl _) (by simp [epochRecord]) o .stored,
    resourceLogs_perm (List.Perm.refl _) (by simp [epochRecord]) o .stored]
  decide +kernel

end GenaiBridge
