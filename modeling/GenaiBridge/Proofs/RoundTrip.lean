/-
A saved watermark is loaded again, if its year has four digits in UTC.

The stores write the time in UTC, with as many digits for the year as it has, and read
four.  The ConfigMap store cannot write other years, so what it has saved it can load.
`CheckEncodable` looks at the year in the location of the time, so near the turn of the
year 9999 the DynamoDB store writes a time that it does not read; and the file store does
not call it, and one time that is not read fails the whole file.
-/
import GenaiBridge.Bridge.FileStore
import GenaiBridge.Proofs.ConfigMap
import GenaiBridge.Proofs.DynamoDB

namespace GenaiBridge

/-! ### What a save should do -/

/-- After a save, a fresh process loads the watermark, and under other keys what it would have
loaded before. -/
def RoundTrips (storeKey : CheckpointKey → String) (before fresh : CheckpointKey → Option Watermark)
    (key : CheckpointKey) (w : Watermark) : Prop :=
  fresh key = some w ∧ ∀ key', storeKey key' ≠ storeKey key → fresh key' = before key'

/-- An instant whose year in UTC has four digits. -/
def Readable (t : Int) : Prop := 0 ≤ Lib.Rfc3339.year t ∧ Lib.Rfc3339.year t ≤ 9999

instance (t : Int) : Decidable (Readable t) := inferInstanceAs (Decidable (_ ∧ _))

theorem parse_formatNano_iff {t : Int} :
    Lib.Rfc3339.parse (Lib.Rfc3339.formatNano t) = some t ↔ Readable t := by
  constructor
  · intro h
    by_contra hread
    rw [Lib.Rfc3339.parse_formatNano_eq_none hread] at h
    cases h
  · intro h
    exact Lib.Rfc3339.parse_formatNano h.1 h.2

/-- A save of a time in a location that returned nil: the check passed, and the request made from
what is stored was applied to it. -/
def Saved {σ Req : Type} (prepare : CheckpointKey × Watermark → σ → Except SaveError Req)
    (applies : Req → σ → σ → Prop) (offset : Int) (key : CheckpointKey) (w : Watermark)
    (cur new : σ) : Prop :=
  checkEncodableIn offset w = .ok () ∧
    ∃ req, prepare (key, w) cur = .ok req ∧ applies req cur new

/-! ### The ConfigMap store -/

/-- A request that can be made is carried out if nobody else has written in between. -/
theorem ConfigMap.saved_of_prepare {sha256 : String → String} {offset : Int} {key : CheckpointKey}
    {w : Watermark} {cm : Option Object} (hencodable : checkEncodableIn offset w = .ok ())
    (h : (prepare sha256 (key, w) cm).isOk = true) :
    ∃ cm', Saved (prepare sha256) applies offset key w cm cm' := by
  cases hprep : prepare sha256 (key, w) cm with
  | error e =>
    rw [hprep] at h
    cases h
  | ok req =>
    obtain ⟨stored, enc, -, -, -, rfl⟩ := prepare_ok hprep
    cases cm with
    | none => exact ⟨some ⟨0, _⟩, hencodable, _, hprep, rfl⟩
    | some o =>
      exact ⟨some ⟨o.resourceVersion + 1, _⟩, hencodable, _, hprep, rfl, Nat.lt_succ_self _, rfl⟩

theorem ConfigMap.roundTrips {sha256 : String → String} {offset : Int} {key : CheckpointKey}
    {w : Watermark} {cm cm' : Option Object}
    (h : Saved (prepare sha256) applies offset key w cm cm') :
    RoundTrips (dataKey sha256) (load sha256 cm) (load sha256 cm') key w := by
  obtain ⟨-, req, hprep, happlies⟩ := h
  obtain ⟨stored, enc, -, -, henc, rfl⟩ := prepare_ok hprep
  obtain ⟨o, rfl, hdata⟩ := applies_request happlies
  refine ⟨?_, ?_⟩
  · unfold load entry
    rw [Option.bind_some, hdata, Lib.SortedMap.get?_insert_self]
    exact decodeRecord_encodeRecord henc
  · intro key' hne
    unfold load
    rw [entry_of_insert hdata hne]

/-! ### The DynamoDB store -/

theorem DynamoDB.decode_encode_eq (w : Watermark) (version : Int64) :
    decode (encode w version) =
      (Lib.Rfc3339.parse (Lib.Rfc3339.formatNano w.time)).map fun t => ({ w with time := t }, version) := by
  simp only [decode, encode, sstr, strAttr, versionAttr, String.toList_ofList, numAttr_nstr,
    Option.bind_eq_bind, Option.bind_some, Option.getD_some]
  cases Lib.Rfc3339.parse (Lib.Rfc3339.formatNano w.time) <;> rfl

theorem DynamoDB.roundTrips_iff {keyspace : String} {offset : Int} {key : CheckpointKey}
    {w : Watermark} {table : String → Option Item} {new : Option Item}
    (h : Saved prepare applies offset key w (table (pk keyspace key)) new) :
    RoundTrips (pk keyspace) (fun k => load (table (pk keyspace k)))
      (fun k => load (Function.update table (pk keyspace key) new (pk keyspace k))) key w ↔
      Readable w.time := by
  obtain ⟨-, put, hprep, -, rfl⟩ := h
  obtain ⟨stored, version, condition, -, -, rfl⟩ := prepare_ok hprep
  have hload : load (some (encode w (version + 1))) = some w ↔ Readable w.time := by
    rw [← parse_formatNano_iff]
    show (decode (encode w (version + 1))).map Prod.fst = some w ↔ _
    rw [decode_encode_eq]
    cases hparse : Lib.Rfc3339.parse (Lib.Rfc3339.formatNano w.time) with
    | none => simp
    | some t =>
      obtain rfl := Lib.Rfc3339.eq_of_parse_formatNano hparse
      simp
  unfold RoundTrips
  dsimp only
  rw [Function.update_self, hload]
  refine and_iff_left ?_
  intro key' hne
  rw [Function.update_of_ne hne]

/-! ### The file store -/

namespace FileStore

variable {Text : Type}

theorem readRecord_writeRecord (w : Watermark) :
    readRecord (writeRecord w) = if Readable w.time then some w else none := by
  unfold readRecord writeRecord
  rw [String.toList_ofList]
  by_cases hread : Readable w.time
  · rw [if_pos hread, Lib.Rfc3339.parse_formatNano hread.1 hread.2]
    rfl
  · rw [if_neg hread, Lib.Rfc3339.parse_formatNano_eq_none hread]
    rfl

theorem readDocument_map (data : Lib.SortedMap String Watermark) :
    readDocument (data.map writeRecord) =
      if ∀ e ∈ data.entries, Readable e.2.time then some data else none := by
  have hall : ((data.map writeRecord).entries.all fun e => (readRecord e.2).isSome) = true ↔
      ∀ e ∈ data.entries, Readable e.2.time := by
    simp only [Lib.SortedMap.map, List.all_eq_true, List.mem_map, forall_exists_index, and_imp,
      forall_apply_eq_imp_iff₂, readRecord_writeRecord]
    refine forall₂_congr fun e _ => ?_
    by_cases hread : Readable e.2.time <;> simp [hread]
  unfold readDocument
  by_cases hread : ∀ e ∈ data.entries, Readable e.2.time
  · rw [if_pos (hall.mpr hread), if_pos hread]
    refine congrArg some (Lib.SortedMap.ext_get? fun k => ?_)
    rw [Lib.SortedMap.get?_collect, Lib.SortedMap.get?_map]
    cases hget : data.get? k with
    | none => rfl
    | some w =>
      have hmem := hread (k, w) (Lib.SortedMap.get?_eq_some.mp hget)
      rw [Option.map_some, Option.bind_some, readRecord_writeRecord, if_pos hmem]
  · rw [if_neg (fun h => hread (hall.mp h)), if_neg hread]

theorem save_ok {yaml : Yaml Text} {failure : Option String} {s s' : Store Text}
    {key : CheckpointKey} {w : Watermark} (h : s.save yaml failure key w = (s', .ok ())) :
    ∃ text, yaml.marshal ((s.data.insert key.string w).map writeRecord) = .ok text ∧
      s' = ⟨s.data.insert key.string w, some text⟩ := by
  unfold Store.save flush at h
  cases hcheck : checkMonotonic (s.load key) w with
  | error e =>
    rw [hcheck] at h
    cases h
  | ok _ =>
    rw [hcheck] at h
    dsimp only at h
    cases hmarshal : yaml.marshal ((s.data.insert key.string w).map writeRecord) with
    | error err =>
      rw [hmarshal] at h
      cases h
    | ok text =>
      rw [hmarshal] at h
      cases failure with
      | some err => cases h
      | none =>
        obtain ⟨rfl, -⟩ := Prod.mk.inj h
        exact ⟨text, rfl, rfl⟩

/-- What `New` makes of a file, read by key. -/
def freshLoad (yaml : Yaml Text) (ignoreInvalid : Bool) (file : Option Text) (key : CheckpointKey) :
    Option Watermark :=
  ((new yaml ignoreInvalid (file.elim .absent .content)).toOption).map fun s => s.load key

theorem roundTrips_iff {yaml : Yaml Text} {failure : Option String} {s s' : Store Text}
    {key : CheckpointKey} {w : Watermark} (h : s.save yaml failure key w = (s', .ok ())) :
    (∀ ignoreInvalid, RoundTrips CheckpointKey.string (fun k => some (s.load k))
      (freshLoad yaml ignoreInvalid s'.file) key w) ↔
    Readable w.time ∧
      ∀ k w', k ≠ key.string → s.data.get? k = some w' → Readable w'.time := by
  obtain ⟨text, hmarshal, rfl⟩ := save_ok h
  set data := s.data.insert key.string w with hdata
  have hentries : (∀ e ∈ data.entries, Readable e.2.time) ↔ Readable w.time ∧
      ∀ k w', k ≠ key.string → s.data.get? k = some w' → Readable w'.time := by
    constructor
    · intro hall
      refine ⟨hall (key.string, w) (Lib.SortedMap.get?_eq_some.mp
        (Lib.SortedMap.get?_insert_self _ _ _)), ?_⟩
      intro k w' hne hget
      refine hall (k, w') (Lib.SortedMap.get?_eq_some.mp ?_)
      rw [hdata, Lib.SortedMap.get?_insert_of_ne _ _ hne, hget]
    · rintro ⟨hw, hothers⟩ ⟨k, w'⟩ hmem
      have hget := Lib.SortedMap.get?_eq_some.mpr hmem
      rw [hdata, Lib.SortedMap.get?_insert] at hget
      by_cases hk : k = key.string
      · rw [if_pos hk] at hget
        exact Option.some.inj hget ▸ hw
      · rw [if_neg hk] at hget
        exact hothers k w' hk hget
  have hread : (yaml.unmarshal text).bind readDocument =
      if ∀ e ∈ data.entries, Readable e.2.time then some data else none := by
    rw [yaml.unmarshal_marshal hmarshal, Option.bind_some, readDocument_map]
  rw [← hentries]
  constructor
  · intro hround
    by_contra hbad
    rw [if_neg hbad] at hread
    have hfresh := (hround false).1
    simp [freshLoad, new, hread, Except.toOption] at hfresh
  · intro hall ignoreInvalid
    have hnew : ∀ k, freshLoad yaml ignoreInvalid (some text) k =
        some ((⟨data, some text⟩ : Store Text).load k) := by
      intro k
      simp only [freshLoad, Option.elim_some, new, hread, if_pos hall, Except.toOption,
        Option.map_some]
    refine ⟨?_, ?_⟩
    · rw [hnew, Store.load, hdata, Lib.SortedMap.get?_insert_self]
      rfl
    · intro key' hne
      rw [hnew]
      unfold Store.load
      rw [hdata, Lib.SortedMap.get?_insert_of_ne _ _ hne]

end FileStore

/-! ### All three -/

/-- **A save round trips, if its year has four digits in UTC.**  For every key, watermark and
location: a ConfigMap save that returns nil round trips; a DynamoDB save that returns nil does so just
if the year of the time in UTC has four digits; and a file save that returns nil does so just if that
holds of the time and of every other one in the file. -/
theorem save_round_trips_iff {Text : Type} (yaml : FileStore.Yaml Text) (sha256 : String → String)
    (keyspace : String) (offset : Int) (key : CheckpointKey) (w : Watermark) :
    (∀ cm cm', Saved (ConfigMap.prepare sha256) ConfigMap.applies offset key w cm cm' →
      RoundTrips (ConfigMap.dataKey sha256) (ConfigMap.load sha256 cm) (ConfigMap.load sha256 cm')
        key w) ∧
    (∀ (table : String → Option DynamoDB.Item) (new : Option DynamoDB.Item),
      Saved DynamoDB.prepare DynamoDB.applies offset key w
        (table (DynamoDB.pk keyspace key)) new →
      (RoundTrips (DynamoDB.pk keyspace)
        (fun k => DynamoDB.load (table (DynamoDB.pk keyspace k)))
        (fun k => DynamoDB.load (Function.update table (DynamoDB.pk keyspace key) new
          (DynamoDB.pk keyspace k))) key w ↔ Readable w.time)) ∧
    ∀ failure (s s' : FileStore.Store Text), s.save yaml failure key w = (s', .ok ()) →
      ((∀ ignoreInvalid, RoundTrips CheckpointKey.string (fun k => some (s.load k))
        (FileStore.freshLoad yaml ignoreInvalid s'.file) key w) ↔
      Readable w.time ∧
        ∀ k w', k ≠ key.string → s.data.get? k = some w' → Readable w'.time) := by
  refine ⟨?_, ?_, ?_⟩
  · intro cm cm' h
    exact ConfigMap.roundTrips h
  · intro table new h
    exact DynamoDB.roundTrips_iff h
  · intro failure s s' h
    exact FileStore.roundTrips_iff h

/-- A YAML library that keeps the document as it is. -/
def plainYaml : FileStore.Yaml FileStore.Document where
  marshal doc := .ok doc
  unmarshal doc := some doc
  unmarshal_marshal h := congrArg some (Except.ok.inj h).symm

private def logsKey : CheckpointKey := ⟨"portkey", "logs_export", "0123456789abcdef"⟩

private def costKey : CheckpointKey := ⟨"portkey", "analytics", "fedcba9876543210"⟩

/-- 2026-06-01T00:00:00Z. -/
private def june : Int := 63915868800 * second

/-- A ConfigMap that holds the watermark of one key. -/
private def costMap : Option ConfigMap.Object :=
  (ConfigMap.encodeRecord { time := june }).map fun enc =>
    ⟨7, Lib.SortedMap.empty.insert (ConfigMap.dataKey id costKey) enc⟩

/-- Saves in the summer of 2026 and an hour east of UTC are loaded by a fresh process: one into a
ConfigMap, which keeps the key that is there, and first ones into a table and a file. -/
theorem save_round_trips_june :
    let w : Watermark := { time := june, cursor := "page 2", epoch := 3 }
    let s : FileStore.Store FileStore.Document := ⟨.empty, none⟩
    (∃ cm, Saved (ConfigMap.prepare id) ConfigMap.applies 3600 logsKey w costMap cm ∧
      ConfigMap.load id cm logsKey = some w ∧ ConfigMap.load id cm costKey = some { time := june }) ∧
    DynamoDB.load (Function.update (fun _ => none) "cp/portkey/logs_export/0123456789abcdef"
        (some (DynamoDB.encode w 1)) "cp/portkey/logs_export/0123456789abcdef") = some w ∧
      FileStore.freshLoad plainYaml false (s.save plainYaml none logsKey w).1.file logsKey =
        some w := by
  intro w s
  have hall := save_round_trips_iff plainYaml id "cp/" 3600 logsKey w
  have hread : Readable june := by decide +kernel
  have hencodable : checkEncodableIn 3600 w = .ok () := by decide +kernel
  refine ⟨?_, ?_, ?_⟩
  · obtain ⟨cm, hsaved⟩ : ∃ cm,
        Saved (ConfigMap.prepare id) ConfigMap.applies 3600 logsKey w costMap cm :=
      ConfigMap.saved_of_prepare hencodable (by decide +kernel)
    obtain ⟨hload, hothers⟩ := hall.1 costMap cm hsaved
    have hkept : ConfigMap.load id costMap costKey = some { time := june } := by decide +kernel
    exact ⟨cm, hsaved, hload, (hothers costKey (by decide +kernel)).trans hkept⟩
  · have hsaved : Saved DynamoDB.prepare DynamoDB.applies 3600 logsKey w none
        (some (DynamoDB.encode w 1)) :=
      ⟨hencodable, ⟨DynamoDB.encode w 1, .pkNotExists⟩, by decide +kernel, rfl, rfl⟩
    exact ((hall.2.1 (fun _ => none) _ hsaved).mpr hread).1
  · refine ((hall.2.2 none ⟨.empty, none⟩ _ rfl).mpr ⟨hread, ?_⟩ false).1
    intro k w' _ hget
    cases hget

/-- 9999-12-31T23:30:00-01:00, which is in the year 10000 in UTC. -/
private def lateIn9999 : Int := 315537899400 * second

/-- **Half an hour before the year 10000, an hour west of UTC**, the DynamoDB store writes an item
that it does not load, and the file store a file that it does not open, so that another key is lost
with it. -/
theorem year_10000_poisons_stores :
    let w : Watermark := { time := lateIn9999 }
    let s : FileStore.Store FileStore.Document :=
      ⟨Lib.SortedMap.empty.insert costKey.string { time := june }, none⟩
    (Saved DynamoDB.prepare DynamoDB.applies (-3600) logsKey w none (some (DynamoDB.encode w 1)) ∧
      DynamoDB.load (some (DynamoDB.encode w 1)) = none) ∧
    (s.save plainYaml none logsKey w).2 = .ok () ∧ s.load costKey = { time := june } ∧
      FileStore.freshLoad plainYaml false (s.save plainYaml none logsKey w).1.file costKey = none ∧
      FileStore.freshLoad plainYaml true (s.save plainYaml none logsKey w).1.file costKey =
        some {} := by
  refine ⟨⟨⟨by decide +kernel, ⟨DynamoDB.encode { time := lateIn9999 } 1, .pkNotExists⟩,
    by decide +kernel, rfl, rfl⟩, by decide +kernel⟩, by decide +kernel, by decide +kernel,
    by decide +kernel, by decide +kernel⟩

end GenaiBridge
