/-
Content does not reach a log record.

Two raw records that agree on what a policy names give the same log record, whatever
else they hold.  For an export every accepted policy names only content-free fields.
For the runs two fields that point at content can be named.
-/
import GenaiBridge.Proofs.LogsSettings
import GenaiBridge.Proofs.RunsSettings
import GenaiBridge.Proofs.Strip

namespace GenaiBridge

open Lib (Json SortedMap bind_ok guard_ok)

/-! ### The fields the settings name -/

namespace LogsSettings

/-- The top-level fields that are let through. -/
def allowListed (ls : LogsSettings) : List String :=
  defaultIndexedFields ++ defaultRecordFields ++ ls.extraRecordFields ++ ls.extraIndexedFields ++
    [ls.traceIDField].filter (· ≠ "")

/-- The members of the metadata that are let through. -/
def metadataKeys (ls : LogsSettings) : List String :=
  ls.metadataRecordFields ++ [ls.metadataTraceIDField].filter (· ≠ "")

/-- What a validated policy names is not content. -/
structure Clean (ls : LogsSettings) : Prop where
  allowListed : ∀ k ∈ ls.allowListed, k ∉ hardDeniedLogFields
  metadataKeys : ∀ k ∈ ls.metadataKeys, k ∉ hardDeniedLogFields

end LogsSettings

section

variable (ls : LogsSettings) (uc : ResolvedUseCase)

theorem mem_indexed_logFieldPolicy {k : String} :
    k ∈ (logFieldPolicy ls uc).indexed ↔ k ∈ defaultIndexedFields ∨ k ∈ ls.extraIndexedFields := by
  unfold logFieldPolicy FieldPolicy.withTraceIDField FieldPolicy.withMetadataFields
    FieldPolicy.withExtraIndexedFields FieldPolicy.withExtraRecordFields
  by_cases hextra : ls.extraIndexedFields = [] <;> split_ifs <;>
    simp [defaultLogFieldPolicy, hextra]

theorem mem_record_logFieldPolicy {k : String} :
    k ∈ (logFieldPolicy ls uc).record ↔
      k ∈ defaultRecordFields ∨ k ∈ ls.extraRecordFields ∨
        k ∈ [ls.traceIDField].filter (· ≠ "") := by
  unfold logFieldPolicy FieldPolicy.withTraceIDField FieldPolicy.withMetadataFields
    FieldPolicy.withExtraIndexedFields FieldPolicy.withExtraRecordFields
  by_cases hextra : ls.extraRecordFields = [] <;> by_cases htrace : ls.traceIDField = "" <;>
    split_ifs <;> simp [defaultLogFieldPolicy, hextra, htrace]

theorem mem_metadataRecord_logFieldPolicy {k : String} :
    k ∈ (logFieldPolicy ls uc).metadataRecord ↔ k ∈ ls.metadataKeys := by
  unfold logFieldPolicy FieldPolicy.withTraceIDField FieldPolicy.withMetadataFields
    FieldPolicy.withExtraIndexedFields FieldPolicy.withExtraRecordFields LogsSettings.metadataKeys
  by_cases hmeta : ls.metadataRecordFields = [] ∧ ls.metadataTraceIDField = ""
  · split_ifs <;> simp [defaultLogFieldPolicy, hmeta]
  · by_cases htrace : ls.metadataTraceIDField = "" <;> split_ifs <;> simp_all

end

/-! ### What the validation rules out -/

theorem refuseFields_ok {denied : List String} {err : String → LogsSettingsError}
    {fields : List String} {u : Unit} (h : refuseFields denied err fields = .ok u) :
    ∀ k ∈ fields, k ∉ denied := by
  unfold refuseFields at h
  split at h
  · cases h
  · rename_i hnone
    simpa using hnone

theorem checkTraceField_ok {setting field : String} {u : Unit}
    (h : checkTraceField setting field = .ok u) :
    ∀ k ∈ [field].filter (· ≠ ""), k ∉ hardDeniedLogFields := by
  intro k hk
  obtain ⟨hmem, hne⟩ := List.mem_filter.mp hk
  obtain rfl := List.mem_singleton.mp hmem
  unfold checkTraceField at h
  rw [if_neg (by simpa using hne)] at h
  split at h
  · cases h
  · assumption

theorem clean_of_validateLogsSettings {ls : LogsSettings} (h : validateLogsSettings ls = .ok ()) :
    ls.Clean := by
  unfold validateLogsSettings at h
  obtain ⟨-, h⟩ := guard_ok h
  obtain ⟨-, h⟩ := guard_ok h
  obtain ⟨-, h⟩ := guard_ok h
  obtain ⟨-, h⟩ := guard_ok h
  obtain ⟨-, h⟩ := guard_ok h
  obtain ⟨_, -, h⟩ := bind_ok h
  obtain ⟨_, hrecord, h⟩ := bind_ok h
  obtain ⟨_, hindexed, h⟩ := bind_ok h
  obtain ⟨_, hmetadata, h⟩ := bind_ok h
  obtain ⟨_, hmetadataTrace, h⟩ := bind_ok h
  obtain ⟨_, htrace, -⟩ := bind_ok h
  have hdefaults : ∀ k ∈ defaultIndexedFields ++ defaultRecordFields,
      k ∉ hardDeniedLogFields := by decide
  refine ⟨fun k hk => ?_, fun k hk => ?_⟩
  · rcases List.mem_append.mp hk with hk | hk
    · rcases List.mem_append.mp hk with hk | hk
      · rcases List.mem_append.mp hk with hk | hk
        · exact hdefaults k hk
        · exact refuseFields_ok hrecord k hk
      · exact refuseFields_ok hindexed k hk
    · exact checkTraceField_ok htrace k hk
  · rcases List.mem_append.mp hk with hk | hk
    · exact refuseFields_ok hmetadata k hk
    · exact checkTraceField_ok hmetadataTrace k hk

/-! ### The log export -/

private theorem tierValue_congr {raw raw' : RawRecord} {render : Json → Option String} {keep : String → Bool}
    {k : String} (h : keep k = true → raw.get? k = raw'.get? k) :
    (raw.get? k).bind (tierValue render keep k) = (raw'.get? k).bind (tierValue render keep k) := by
  by_cases hkeep : keep k = true
  · rw [h hkeep]
  · have hnone : tierValue render keep k = fun _ => none := by
      funext v
      simp [tierValue, hkeep]
    simp [hnone]

/-- Two records of an export that agree on what the settings name. -/
structure LogsSettings.Agree (ls : LogsSettings) (raw raw' : RawRecord) : Prop where
  allowListed : ∀ k ∈ ls.allowListed, raw.get? k = raw'.get? k
  createdAt : raw.get? "created_at" = raw'.get? "created_at"
  metadata : ∀ k ∈ ls.metadataKeys,
    FieldPolicy.metadataField raw k = FieldPolicy.metadataField raw' k

namespace FieldPolicy

variable {p : FieldPolicy} {raw raw' : RawRecord}

private theorem traceID_congr (h : ∀ k, k ∈ p.indexed ∨ k ∈ p.record → raw.get? k = raw'.get? k)
    (fallbackTS : Int) :
    (p.fields raw fallbackTS).traceID = (p.fields raw' fallbackTS).traceID := by
  rw [traceID_fields, traceID_fields]
  by_cases hkeep : p.traceIDField ∈ p.indexed ∨ p.traceIDField ∈ p.record
  · rw [h _ hkeep]
  · have hnone : ∀ v, (p.traceValue p.traceIDField v).getD [] = [] := by
      intro v
      simp [traceValue, hkeep]
    simp only [hnone]
    cases raw.get? p.traceIDField <;> cases raw'.get? p.traceIDField <;> rfl

private theorem fields_congr (h : ∀ k, k ∈ p.indexed ∨ k ∈ p.record → raw.get? k = raw'.get? k)
    (fallbackTS : Int) : p.fields raw fallbackTS = p.fields raw' fallbackTS := by
  have hindexed : (p.fields raw fallbackTS).indexedAttributes =
      (p.fields raw' fallbackTS).indexedAttributes := by
    refine SortedMap.ext_get? fun k => ?_
    rw [get?_indexedAttributes_fields, get?_indexedAttributes_fields]
    exact tierValue_congr fun hk => h k (Or.inl (by simpa using hk))
  have hrecord : (p.fields raw fallbackTS).recordAttributes =
      (p.fields raw' fallbackTS).recordAttributes := by
    refine SortedMap.ext_get? fun k => ?_
    rw [get?_recordAttributes_fields, get?_recordAttributes_fields]
    exact tierValue_congr fun hk => h k (Or.inr (of_decide_eq_true hk).2)
  obtain ⟨hts, hbody, hseverity⟩ := p.rest_fields raw fallbackTS
  obtain ⟨hts', hbody', hseverity'⟩ := p.rest_fields raw' fallbackTS
  have htrace := traceID_congr h fallbackTS
  cases hlr : p.fields raw fallbackTS
  cases hlr' : p.fields raw' fallbackTS
  simp_all

private theorem lift_congr {member member' : String → Option Json} {named : List String}
    (h : ∀ k ∈ named, member k = member' k) (lr : LogRecord) :
    named.foldl (p.liftValue member) lr = named.foldl (p.liftValue member') lr := by
  induction named generalizing lr with
  | nil => rfl
  | cons j named ih =>
    have hstep : p.liftValue member lr j = p.liftValue member' lr j := by
      unfold liftValue
      rw [h j (by simp)]
    rw [List.foldl_cons, List.foldl_cons, hstep]
    exact ih (fun k hk => h k (List.mem_cons_of_mem _ hk)) _

/-- **A log record is made of the named fields**, of the time and of the named members of the
metadata. -/
theorem strip_congr (hfields : ∀ k, k ∈ p.indexed ∨ k ∈ p.record → raw.get? k = raw'.get? k)
    (hcreated : raw.get? "created_at" = raw'.get? "created_at")
    (hmetadata : ∀ k ∈ p.metadataRecord, metadataField raw k = metadataField raw' k)
    (fallbackTS : Int) : p.strip raw fallbackTS = p.strip raw' fallbackTS := by
  have hlift : p.liftMetadata (raw.get? "metadata") (p.fields raw fallbackTS) =
      p.liftMetadata (raw'.get? "metadata") (p.fields raw' fallbackTS) := by
    rw [liftMetadata_eq, liftMetadata_eq, fields_congr hfields, lift_congr hmetadata]
  unfold fields blank at hlift
  unfold strip
  simp only [hlift, hcreated]

end FieldPolicy

/-- A JSON value that is not an object, an array or null. -/
def IsScalar : Json → Prop
  | .str _ | .num _ | .bool _ => True
  | .null | .arr _ | .obj _ => False

theorem isScalar_of_scalarValue {v : Json} {s : String} (h : scalarValue v = some s) :
    IsScalar v := by
  cases v <;> trivial

/-- Where an attribute of a stripped record may come from. -/
inductive FromScalar (raw : RawRecord) (uc : ResolvedUseCase) : String × String → Prop
  | source : FromScalar raw uc (sourceAttrKey, "portkey")
  | useCase : FromScalar raw uc (useCaseLabelKey, uc.slug)
  | value {k s : String} (v : Json)
      (hv : raw.get? k = some v ∨ FieldPolicy.metadataField raw k = some v) (hs : IsScalar v)
      (hrender : scalarValue v = some s) : FromScalar raw uc (k, s)

theorem tierValue_eq_some {render : Json → Option String} {keep : String → Bool}
    {raw : RawRecord} {k s : String} (h : (raw.get? k).bind (tierValue render keep k) = some s) :
    keep k = true ∧ ∃ v, raw.get? k = some v ∧ render v = some s := by
  obtain ⟨v, hv, hs⟩ := Option.bind_eq_some_iff.mp h
  unfold tierValue at hs
  split at hs
  · exact ⟨by assumption, v, hv, hs⟩
  · cases hs

section

variable {ls : LogsSettings} {uc : ResolvedUseCase} {raw : RawRecord} {fallbackTS : Int}
  {e : String × String}

theorem indexed_of_strip
    (h : e ∈ ((logFieldPolicy ls uc).strip raw fallbackTS).indexedAttributes.entries) :
    (e.1 ∈ defaultIndexedFields ∨ e.1 ∈ ls.extraIndexedFields) ∧ FromScalar raw uc e := by
  have hget := SortedMap.get?_eq_some.mpr h
  rw [FieldPolicy.get?_indexedAttributes_strip] at hget
  obtain ⟨hkeep, v, hv, hs⟩ := tierValue_eq_some hget
  exact ⟨(mem_indexed_logFieldPolicy ls uc).mp (by simpa using hkeep),
    .value v (Or.inl hv) (isScalar_of_scalarValue hs) hs⟩

/-- A record attribute is a named field, a named member of the metadata or a stamp. -/
theorem record_of_strip
    (h : e ∈ ((logFieldPolicy ls uc).strip raw fallbackTS).recordAttributes.entries) :
    ((e.1 ∈ defaultRecordFields ∨ e.1 ∈ ls.extraRecordFields ∨
        e.1 ∈ [ls.traceIDField].filter (· ≠ "")) ∨
      (e.1 ∈ ls.metadataKeys ∧ e.1 ∉ hardDeniedLogFields) ∨
      e.1 = sourceAttrKey ∨ e.1 = useCaseLabelKey) ∧ FromScalar raw uc e := by
  obtain ⟨k, s⟩ := e
  have hget := SortedMap.get?_eq_some.mpr h
  rw [FieldPolicy.get?_recordAttributes_strip] at hget
  split at hget
  · rename_i huse
    cases hget
    obtain ⟨-, rfl⟩ := huse
    exact ⟨Or.inr (Or.inr (Or.inr rfl)), .useCase⟩
  · split at hget
    · rename_i hsource
      cases hget
      subst hsource
      exact ⟨Or.inr (Or.inr (Or.inl rfl)), .source⟩
    · rcases Option.or_eq_some_iff.mp hget with hget | ⟨-, hget⟩
      · obtain ⟨hkeep, v, hv, hs⟩ := tierValue_eq_some hget
        exact ⟨Or.inl ((mem_record_logFieldPolicy ls uc).mp (of_decide_eq_true hkeep).2),
          .value v (Or.inl hv) (isScalar_of_scalarValue hs) hs⟩
      · unfold FieldPolicy.memberValue at hget
        split at hget
        · rename_i hnamed
          obtain ⟨v, hv, hs⟩ := Option.bind_eq_some_iff.mp hget
          exact ⟨Or.inr (Or.inl ⟨(mem_metadataRecord_logFieldPolicy ls uc).mp hnamed.1, hnamed.2⟩),
            .value v (Or.inr hv) (isScalar_of_scalarValue hs) hs⟩
        · cases hget

end

/-- **Content non-interference of the log export.**  With accepted settings, records that agree on
the allow-listed fields, on their time and on the named members of the metadata give the same
log record; it holds nothing but named keys and the two stamps, none of them denied, each value
rendered from a scalar, and no body. -/
theorem export_content_free {ls : LogsSettings} (hvalid : validateLogsSettings ls = .ok ())
    (uc : ResolvedUseCase) {raw raw' : RawRecord} (hagree : ls.Agree raw raw') (fallbackTS : Int) :
    let lr := (logFieldPolicy ls uc).strip raw fallbackTS
    lr = (logFieldPolicy ls uc).strip raw' fallbackTS ∧
    (∀ e ∈ lr.indexedAttributes.entries ++ lr.recordAttributes.entries,
      (e.1 ∈ ls.allowListed ∨ e.1 ∈ ls.metadataKeys ∨ e.1 = "source" ∨ e.1 = "api_key_use_case") ∧
      e.1 ∉ hardDeniedLogFields ∧ FromScalar raw uc e) ∧
    lr.body = "" := by
  have hclean := clean_of_validateLogsSettings hvalid
  refine ⟨?_, fun e he => ?_, FieldPolicy.body_strip _ _ _⟩
  · refine FieldPolicy.strip_congr (fun k hk => hagree.allowListed k ?_) hagree.createdAt
      (fun k hk => hagree.metadata k ((mem_metadataRecord_logFieldPolicy ls uc).mp hk)) fallbackTS
    rw [mem_indexed_logFieldPolicy, mem_record_logFieldPolicy] at hk
    simp only [LogsSettings.allowListed, List.mem_append]
    tauto
  · rcases List.mem_append.mp he with he | he
    · obtain ⟨hkey, hfrom⟩ := indexed_of_strip he
      have hallow : e.1 ∈ ls.allowListed := by
        simp only [LogsSettings.allowListed, List.mem_append]
        tauto
      exact ⟨Or.inl hallow, hclean.allowListed _ hallow, hfrom⟩
    · obtain ⟨hkey, hfrom⟩ := record_of_strip he
      rcases hkey with hkey | ⟨hkey, hden⟩ | hsource | huse
      · have hallow : e.1 ∈ ls.allowListed := by
          simp only [LogsSettings.allowListed, List.mem_append]
          tauto
        exact ⟨Or.inl hallow, hclean.allowListed _ hallow, hfrom⟩
      · exact ⟨Or.inr (Or.inl hkey), hden, hfrom⟩
      · exact ⟨Or.inr (Or.inr (Or.inl hsource)), by rw [hsource]; decide, hfrom⟩
      · exact ⟨Or.inr (Or.inr (Or.inr huse)), by rw [huse]; decide, hfrom⟩

/-- Settings that are accepted. -/
def plainLogsSettings : LogsSettings :=
  { defaultLogsSettings with workspaceID := "ws", signedURLAllowHosts := ["objects"] }

/-- A record of an export. -/
def plainRecord : RawRecord := SortedMap.empty.insert "ai_model" (.str "m".toList)

/-- The same record, with content. -/
def promptRecord : RawRecord := plainRecord.insert "prompt" (.str "secret".toList)

theorem export_content_free_prompt :
    validateLogsSettings plainLogsSettings = .ok () ∧ plainRecord.get? "prompt" = none ∧
    promptRecord.get? "prompt" = some (.str "secret".toList) ∧
    (logFieldPolicy plainLogsSettings ⟨"", ""⟩).strip plainRecord 0 =
      (logFieldPolicy plainLogsSettings ⟨"", ""⟩).strip promptRecord 0 := by
  have hvalid : validateLogsSettings plainLogsSettings = .ok () := by decide +kernel
  have hother : ∀ k, k ≠ "prompt" → plainRecord.get? k = promptRecord.get? k :=
    fun k hk => (SortedMap.get?_insert_of_ne _ _ hk).symm
  have hagree : plainLogsSettings.Agree plainRecord promptRecord := by
    refine ⟨fun k hk => hother k ?_, hother _ (by decide), fun k hk => ?_⟩
    · rintro rfl
      revert hk
      decide
    · exact absurd hk (by decide +revert)
  exact ⟨hvalid, rfl, SortedMap.get?_insert_self .., (export_content_free hvalid _ hagree 0).1⟩

/-! ### The runs -/

/-- The fields of a run that hold content, or point at it. -/
def runsContentFields : List String :=
  ["inputs", "outputs", "inputs_preview", "outputs_preview", "inputs_s3_urls", "outputs_s3_urls",
    "inputs_or_signed_url", "outputs_or_signed_url", "messages"]

/-- The fields among them that a setting may name. -/
def signedURLFields : List String := ["inputs_or_signed_url", "outputs_or_signed_url"]

section

variable (rs : RunsSettings) {k : String}

theorem mem_indexed_runsFieldPolicy :
    k ∈ (runsFieldPolicy rs).indexed ↔
      k ∈ defaultRunsFieldPolicy.indexed ∨ k ∈ rs.extraIndexedFields := by
  unfold runsFieldPolicy RunsFieldPolicy.withExtraIndexedFields
    RunsFieldPolicy.withExtraRecordFields
  by_cases hextra : rs.extraIndexedFields = [] <;> split_ifs <;> simp [hextra]

theorem mem_record_runsFieldPolicy :
    k ∈ (runsFieldPolicy rs).record ↔
      k ∈ defaultRunsFieldPolicy.record ∨ k ∈ rs.extraRecordFields := by
  unfold runsFieldPolicy RunsFieldPolicy.withExtraIndexedFields
    RunsFieldPolicy.withExtraRecordFields
  by_cases hextra : rs.extraRecordFields = [] <;> split_ifs <;> simp [hextra]

end

namespace RunsFieldPolicy

private theorem fields_congr {p : RunsFieldPolicy} {raw raw' : RawRecord}
    (h : ∀ k, k ∈ p.indexed ∨ k ∈ p.record → raw.get? k = raw'.get? k) (fallbackTS : Int) :
    p.fields raw fallbackTS = p.fields raw' fallbackTS := by
  have hindexed : (p.fields raw fallbackTS).indexedAttributes =
      (p.fields raw' fallbackTS).indexedAttributes := by
    refine SortedMap.ext_get? fun k => ?_
    rw [get?_indexedAttributes_fields, get?_indexedAttributes_fields]
    exact tierValue_congr fun hk => h k (Or.inl (by simpa using hk))
  have hrecord : (p.fields raw fallbackTS).recordAttributes =
      (p.fields raw' fallbackTS).recordAttributes := by
    refine SortedMap.ext_get? fun k => ?_
    rw [get?_recordAttributes_fields, get?_recordAttributes_fields]
    exact tierValue_congr fun hk => h k (Or.inr (of_decide_eq_true hk).2)
  obtain ⟨hts, hbody, hseverity, htrace⟩ := p.rest_fields raw fallbackTS
  obtain ⟨hts', hbody', hseverity', htrace'⟩ := p.rest_fields raw' fallbackTS
  cases hlr : p.fields raw fallbackTS
  cases hlr' : p.fields raw' fallbackTS
  simp_all

/-- **A log record is made of the named fields** and of the time. -/
theorem strip_congr {p : RunsFieldPolicy} {raw raw' : RawRecord}
    (hfields : ∀ k, k ∈ p.indexed ∨ k ∈ p.record → raw.get? k = raw'.get? k)
    (hstart : raw.get? "start_time" = raw'.get? "start_time") (fallbackTS : Int) :
    p.strip raw fallbackTS = p.strip raw' fallbackTS := by
  have hloop := fields_congr hfields fallbackTS
  unfold fields FieldPolicy.blank at hloop
  unfold strip
  simp only [hloop, hstart]

/-- A named field that holds a text leaves a trace in the log record. -/
theorem strip_ne_of_named {p : RunsFieldPolicy} {k : String} (hnamed : k ∈ p.indexed ∨ k ∈ p.record)
    (hsource : k ≠ sourceAttrKey) (fallbackTS : Int) :
    p.strip (SortedMap.empty.insert k (.str [])) fallbackTS ≠ p.strip .empty fallbackTS := by
  intro heq
  have hindexed := congrArg (fun lr => lr.indexedAttributes.get? k) heq
  have hrecord := congrArg (fun lr => lr.recordAttributes.get? k) heq
  simp only [get?_indexedAttributes_strip, get?_recordAttributes_strip, SortedMap.get?_insert_self,
    SortedMap.get?_empty, Option.bind_some, Option.bind_none, if_neg hsource] at hindexed hrecord
  unfold tierValue recordTier at *
  by_cases hi : k ∈ p.indexed
  · simp [hi, scalarToString, scalarValue] at hindexed
  · simp [hi, hnamed.resolve_left hi, scalarToString, scalarValue] at hrecord

end RunsFieldPolicy

private theorem signedURL_of_named {rs : RunsSettings} (hvalid : rs.Valid) {k : String}
    (hcontent : k ∈ runsContentFields)
    (hnamed : k ∈ (runsFieldPolicy rs).indexed ∨ k ∈ (runsFieldPolicy rs).record) :
    k ∈ signedURLFields ∧ (k ∈ rs.extraRecordFields ∨ k ∈ rs.extraIndexedFields) := by
  have hdefault : ∀ k ∈ runsContentFields, k ∉ defaultRunsFieldPolicy.indexed ∧
      k ∉ defaultRunsFieldPolicy.record := by decide
  have hrest : ∀ k ∈ runsContentFields, k ∉ hardDeniedRunsFields → k ∈ signedURLFields := by decide
  obtain ⟨hni, hnr⟩ := hdefault k hcontent
  rw [mem_indexed_runsFieldPolicy, mem_record_runsFieldPolicy] at hnamed
  rcases hnamed with (hk | hk) | (hk | hk)
  · exact absurd hk hni
  · exact ⟨hrest k hcontent (hvalid.indexed_denied k hk), Or.inr hk⟩
  · exact absurd hk hnr
  · exact ⟨hrest k hcontent (hvalid.record_denied k hk), Or.inl hk⟩

/-- **Content non-interference of the runs**: content reaches a log record exactly when the
settings name a signed URL to it. -/
theorem runs_content_free_iff {rs : RunsSettings} (hvalid : validateRunsSettings rs = .ok ()) :
    (∀ (raw raw' : RawRecord) (fallbackTS : Int),
      (∀ k, k ∉ runsContentFields → raw.get? k = raw'.get? k) →
      (runsFieldPolicy rs).strip raw fallbackTS = (runsFieldPolicy rs).strip raw' fallbackTS) ↔
    ∀ k ∈ signedURLFields, k ∉ rs.extraRecordFields ∧ k ∉ rs.extraIndexedFields := by
  constructor
  · intro h k hk
    have hcontent : k ∈ runsContentFields := by
      revert k
      decide
    have hsource : k ≠ sourceAttrKey := by
      rintro rfl
      revert hk
      decide
    have hnot : ¬(k ∈ (runsFieldPolicy rs).indexed ∨ k ∈ (runsFieldPolicy rs).record) := by
      intro hnamed
      refine RunsFieldPolicy.strip_ne_of_named hnamed hsource 0 (h _ _ 0 fun j hj => ?_)
      exact SortedMap.get?_insert_of_ne _ _ fun heq => hj (heq ▸ hcontent)
    rw [mem_indexed_runsFieldPolicy, mem_record_runsFieldPolicy] at hnot
    tauto
  · intro hfree raw raw' fallbackTS hagree
    refine RunsFieldPolicy.strip_congr (fun k hnamed => hagree k fun hcontent => ?_)
      (hagree _ (by decide)) fallbackTS
    obtain ⟨hsigned, hextra⟩ :=
      signedURL_of_named (valid_of_validateRunsSettings hvalid) hcontent hnamed
    obtain ⟨hrecord, hindexed⟩ := hfree k hsigned
    exact hextra.elim hrecord hindexed

/-- Settings that name a signed URL. -/
def signedURLSettings : RunsSettings :=
  { defaultRunsSettings with
    sessionIDs := ["p"], extraRecordFields := ["inputs_or_signed_url"] }

/-- A run with a signed URL to its inputs. -/
def signedURLRun : RawRecord :=
  SortedMap.empty.insert "inputs_or_signed_url" (.str "https://objects/inputs?sig=s".toList)

theorem runs_signed_url_leaks :
    validateRunsSettings signedURLSettings = .ok () ∧
    ((runsFieldPolicy signedURLSettings).strip signedURLRun 0).recordAttributes.get?
      "inputs_or_signed_url" = some "https://objects/inputs?sig=s" ∧
    ((runsFieldPolicy signedURLSettings).strip .empty 0).recordAttributes.get?
      "inputs_or_signed_url" = none := by
  decide +kernel

theorem runs_content_free_default :
    validateRunsSettings { defaultRunsSettings with sessionIDs := ["p"] } = .ok () ∧
    ∀ (raw raw' : RawRecord) (fallbackTS : Int),
      (∀ k, k ∉ runsContentFields → raw.get? k = raw'.get? k) →
      (runsFieldPolicy { defaultRunsSettings with sessionIDs := ["p"] }).strip raw fallbackTS =
        (runsFieldPolicy { defaultRunsSettings with sessionIDs := ["p"] }).strip raw' fallbackTS := by
  have hvalid : validateRunsSettings { defaultRunsSettings with sessionIDs := ["p"] } = .ok () := by
    decide +kernel
  exact ⟨hvalid, (runs_content_free_iff hvalid).mpr (by decide)⟩

end GenaiBridge
