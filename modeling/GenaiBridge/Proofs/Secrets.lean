/-
The secrets in the errors of a load.

`redactSecretValues` takes out the values of the placeholders, and only those: a secret
that a `file:` reference read is not among them.  So of the secrets that share nothing
with one another and with the marker, the ones of the environment are gone from the
message, and the ones of files are where the error had them.
-/
import GenaiBridge.Bridge.LoadConfig
import GenaiBridge.Lib.Fallible
import GenaiBridge.Lib.Replace

namespace GenaiBridge

open Lib (Apart SortedMap bind_ok)

variable {A Config : Type}

/-! ### Redaction -/

theorem replaceChars_eq (old new : List Char) : ∀ (l : List Char) (skip : Nat),
    replaceChars old new skip l = Lib.replaceFrom old new skip l := by
  intro l
  induction l with
  | nil => exact fun skip => by cases skip <;> rfl
  | cons c l ih =>
    intro skip
    cases skip with
    | succ skip => exact ih skip
    | zero =>
      unfold replaceChars Lib.replaceFrom
      rw [ih, ih]
      by_cases hold : old <+: c :: l
      · rw [if_pos hold, if_pos (List.isPrefixOf_iff_prefix.mpr hold)]
      · rw [if_neg hold, if_neg fun h => hold (List.isPrefixOf_iff_prefix.mp h)]

theorem toList_replaceAll (s old new : String) :
    (replaceAll s old new).toList = Lib.replaceAll old.toList new.toList s.toList := by
  unfold replaceAll
  rw [replaceChars_eq]
  exact String.toList_ofList

/-- The values that are taken out, in the order of the range. -/
def redactedValues (o : Lib.MapOrder) (ph : SortedMap String String) : List String :=
  ((o.visit ph.entries).map Prod.snd).filter fun v => 3 < v.utf8ByteSize

theorem redactSecretValues_eq (o : Lib.MapOrder) (ph : SortedMap String String) (msg : String) :
    redactSecretValues o ph msg = String.ofList (Lib.redact "[redacted]".toList
      ((redactedValues o ph).map String.toList) msg.toList) := by
  unfold redactSecretValues redactedValues
  generalize o.visit ph.entries = entries
  induction entries generalizing msg with
  | nil => exact (String.ofList_toList).symm
  | cons e entries ih =>
    rw [List.foldl_cons, List.map_cons, List.filter_cons]
    by_cases hlong : 3 < e.2.utf8ByteSize
    · rw [if_pos hlong, if_pos (by simpa using hlong), ih, toList_replaceAll]
      rfl
    · rw [if_neg hlong, if_neg (by simpa using hlong), ih]

/-! ### The errors before the secrets are resolved -/

/-- The first error of the references names a variable. -/
theorem firstErr_injectFrom (env : String → String) : ∀ {l : List Char} {skip : Nat} {s : Injected},
    (∀ e ∈ s.firstErr, ∃ key, e = .envUnset key) →
    ∀ e ∈ (injectFrom env skip l s).firstErr, ∃ key, e = .envUnset key := by
  intro l
  induction l with
  | nil => exact fun h => by unfold injectFrom; exact h
  | cons c l ih =>
    intro skip s h
    cases skip with
    | succ skip => exact ih h
    | zero =>
      unfold injectFrom
      cases envRef? (c :: l) with
      | none => exact ih h
      | some name =>
        refine ih ?_
        unfold Injected.replace
        by_cases hunset : env (String.ofList name) = ""
        · rw [if_pos hunset]
          intro e he
          rcases Option.or_eq_some_iff.mp he with he | ⟨-, he⟩
          · exact h e he
          · exact ⟨_, (Option.some.inj he).symm⟩
        · rw [if_neg hunset]
          exact h

theorem injectEnvPlaceholders_error {env : String → String} {raw : String} {e : LoadError}
    (h : injectEnvPlaceholders env raw = .error e) : ∃ key, e = .envUnset key := by
  unfold injectEnvPlaceholders at h
  dsimp only at h
  cases hfirst : (injectFrom env 0 raw.toList {}).firstErr with
  | none =>
    rw [hfirst] at h
    cases h
  | some err =>
    rw [hfirst] at h
    obtain rfl := Except.error.inj h
    exact firstErr_injectFrom env (fun _ he => absurd he (Option.not_mem_none _)) err hfirst

section

variable {files : String → Except String String} {ph : SortedMap String String}

theorem resolveScalar_error {o : Lib.MapOrder} {val : String} {e : LoadError}
    (h : resolveScalar files ph o val = .error e) : ∃ path cause, e = .fileSecret path cause := by
  unfold resolveScalar at h
  dsimp only at h
  cases hpath : filePath? (substitute ph o val) with
  | none =>
    rw [hpath] at h
    cases h
  | some path =>
    rw [hpath] at h
    dsimp only at h
    cases hread : files path with
    | ok b =>
      rw [hread] at h
      cases h
    | error err =>
      rw [hread] at h
      exact ⟨path, err, (Except.error.inj h).symm⟩

mutual

theorem resolveSecretsNode_error : ∀ {n : YamlNode A} {orders : List Nat → Lib.MapOrder}
    {e : LoadError}, resolveSecretsNode files ph orders n = .error e →
      ∃ path cause, e = .fileSecret path cause
  | .inner a kind content, orders, e, h => by
    rw [resolveSecretsNode] at h
    cases hcontent : resolveContent files ph orders 0 content with
    | ok ns =>
      rw [hcontent] at h
      cases h
    | error err =>
      rw [hcontent] at h
      obtain rfl := Except.error.inj h
      exact resolveContent_error hcontent
  | .scalar a val, orders, e, h => by
    rw [resolveSecretsNode] at h
    cases hscalar : resolveScalar files ph (orders []) val with
    | ok val =>
      rw [hscalar] at h
      cases h
    | error err =>
      rw [hscalar] at h
      obtain rfl := Except.error.inj h
      exact resolveScalar_error hscalar
  | .alias a, orders, e, h => by
    rw [resolveSecretsNode] at h
    cases h

theorem resolveContent_error : ∀ {ns : List (YamlNode A)} {orders : List Nat → Lib.MapOrder}
    {i : Nat} {e : LoadError}, resolveContent files ph orders i ns = .error e →
      ∃ path cause, e = .fileSecret path cause
  | [], orders, i, e, h => by
    rw [resolveContent] at h
    cases h
  | n :: ns, orders, i, e, h => by
    rw [resolveContent] at h
    cases hnode : resolveSecretsNode files ph (ordersBelow orders i) n with
    | error err =>
      rw [hnode] at h
      obtain rfl := Except.error.inj h
      exact resolveSecretsNode_error hnode
    | ok n =>
      rw [hnode] at h
      cases hcontent : resolveContent files ph orders (i + 1) ns with
      | error err =>
        rw [hcontent] at h
        obtain rfl := Except.error.inj h
        exact resolveContent_error hcontent
      | ok ns =>
        rw [hcontent] at h
        cases h

end

end

/-! ### A load that fails after the secrets were resolved -/

/-- The load fails on the resolved tree: the placeholders, the tree they are put into, and the text
of the error. -/
structure FailsResolved (yaml : ConfigYaml A Config) (o : LoadOrders) (env : String → String)
    (files : String → Except String String) (raw : String) (ph : SortedMap String String)
    (root : YamlNode A) (text : String) : Prop where
  read : ∃ subst, injectEnvPlaceholders env raw = .ok (subst, ph) ∧ yaml.unmarshal subst = .ok root
  failed : ∃ tree, resolveSecretsNode files ph o.scalar root = .ok tree ∧
    ((∃ err, yaml.marshal tree = .error err ∧
      text = "config: re-marshal after secret resolution: " ++ err) ∨
    ∃ resolved err, yaml.marshal tree = .ok resolved ∧ yaml.decode resolved = .error err ∧
      text = "config: parse: " ++ err)

section

variable {yaml : ConfigYaml A Config} {o : LoadOrders} {env : String → String}
  {files : String → Except String String} {raw text : String} {ph : SortedMap String String}
  {root : YamlNode A}

theorem FailsResolved.loadBytes_eq (h : FailsResolved yaml o env files raw ph root text) :
    loadBytes yaml o env files raw = .error (.redacted (redactSecretValues o.message ph text)) := by
  obtain ⟨⟨subst, hinject, hparse⟩, tree, hresolve, hfailed⟩ := h
  unfold loadBytes
  simp only [hinject, hparse, hresolve, bind, Except.bind, Except.mapError]
  rcases hfailed with ⟨err, hmarshal, rfl⟩ | ⟨resolved, err, hmarshal, hdecode, rfl⟩
  · rw [hmarshal]
  · rw [hmarshal]
    dsimp only
    rw [hdecode]

theorem failsResolved_of_redacted {message : String}
    (h : loadBytes yaml o env files raw = .error (.redacted message)) :
    ∃ ph root text, FailsResolved yaml o env files raw ph root text := by
  unfold loadBytes at h
  cases hinject : injectEnvPlaceholders env raw with
  | error err =>
    obtain ⟨key, rfl⟩ := injectEnvPlaceholders_error hinject
    rw [hinject] at h
    cases h
  | ok injected =>
    obtain ⟨subst, ph⟩ := injected
    simp only [hinject, bind, Except.bind] at h
    cases hparse : yaml.unmarshal subst with
    | error err =>
      rw [hparse] at h
      cases h
    | ok root =>
      simp only [hparse, Except.mapError] at h
      cases hresolve : resolveSecretsNode files ph o.scalar root with
      | error err =>
        obtain ⟨path, cause, rfl⟩ := resolveSecretsNode_error hresolve
        rw [hresolve] at h
        cases h
      | ok tree =>
        simp only [hresolve] at h
        cases hmarshal : yaml.marshal tree with
        | error err =>
          exact ⟨ph, root, _, ⟨subst, hinject, hparse⟩, tree, hresolve,
            .inl ⟨err, hmarshal, rfl⟩⟩
        | ok resolved =>
          simp only [hmarshal] at h
          cases hdecode : yaml.decode resolved with
          | error err =>
            exact ⟨ph, root, _, ⟨subst, hinject, hparse⟩, tree, hresolve,
              .inr ⟨resolved, err, hmarshal, hdecode, rfl⟩⟩
          | ok cfg =>
            rw [hdecode] at h
            cases h

/-- The secrets of a load: the values of the placeholders, and what is read from files. -/
def secretValues (o : LoadOrders) (files : String → Except String String)
    (ph : SortedMap String String) (root : YamlNode A) : List String :=
  ph.entries.map Prod.snd ++ fileSecrets files ph o.scalar root

/-- The secrets of more than three bytes share nothing with the marker and with one another. -/
structure SecretsApart (secrets : List String) : Prop where
  marker : ∀ v ∈ secrets, 3 < v.utf8ByteSize → Apart v.toList "[redacted]".toList
  others : ∀ v ∈ secrets, ∀ w ∈ secrets, 3 < v.utf8ByteSize → 3 < w.utf8ByteSize → v ≠ w →
    Apart v.toList w.toList

theorem mem_redactedValues {o : Lib.MapOrder} {v : String} :
    v ∈ redactedValues o ph ↔ v ∈ ph.entries.map Prod.snd ∧ 3 < v.utf8ByteSize := by
  unfold redactedValues
  rw [List.mem_filter, ((o.perm ph.entries).map Prod.snd).mem_iff, decide_eq_true_eq]

/-- **What redaction leaves of the secrets**: those of files that are no placeholder's value. -/
theorem contains_redacted_iff (hapart : SecretsApart (secretValues o files ph root)) {v : String}
    (hv : v ∈ secretValues o files ph root) (hlong : 3 < v.utf8ByteSize) :
    containsText (redactSecretValues o.message ph text) v = true ↔
      v ∉ ph.entries.map Prod.snd ∧ containsText text v = true := by
  have hmarker := hapart.marker v hv hlong
  have hredacted : ∀ w ∈ (redactedValues o.message ph).map String.toList, ∃ u,
      u ∈ ph.entries.map Prod.snd ∧ 3 < u.utf8ByteSize ∧ u.toList = w := by
    intro w hw
    obtain ⟨u, hu, rfl⟩ := List.mem_map.mp hw
    exact ⟨u, (mem_redactedValues.mp hu).1, (mem_redactedValues.mp hu).2, rfl⟩
  have hsecret : ∀ {u}, u ∈ ph.entries.map Prod.snd → u ∈ secretValues o files ph root :=
    fun hu => List.mem_append_left _ hu
  unfold containsText
  rw [redactSecretValues_eq, String.toList_ofList, decide_eq_true_eq, decide_eq_true_eq]
  by_cases hph : v ∈ ph.entries.map Prod.snd
  · refine iff_of_false ?_ fun h => h.1 hph
    refine Lib.redact_removes (fun w hw => ?_)
      (List.mem_map_of_mem (mem_redactedValues.mpr ⟨hph, hlong⟩))
    obtain ⟨u, hu, hulong, rfl⟩ := hredacted w hw
    exact hapart.marker u (hsecret hu) hulong
  · rw [Lib.infix_redact_iff hmarker]
    · exact (and_iff_right hph).symm
    · intro w hw
      obtain ⟨u, hu, hulong, rfl⟩ := hredacted w hw
      exact hapart.others v hv u (hsecret hu) hlong hulong fun heq => hph (heq ▸ hu)

/-- **Secrets in the error of a load.**  If an error comes after the resolution, and the secrets
share nothing with one another or the marker, no secret of more than three bytes is in the message
just if none that was read from a file, and is not the value of a placeholder too, is in the text of
the error. -/
theorem resolved_secrets_redacted_iff {message : String}
    (hload : loadBytes yaml o env files raw = .error (.redacted message)) :
    ∃ ph root text, FailsResolved yaml o env files raw ph root text ∧
      (SecretsApart (secretValues o files ph root) →
        ((∀ v ∈ secretValues o files ph root, 3 < v.utf8ByteSize →
            containsText message v = false) ↔
          ∀ v ∈ fileSecrets files ph o.scalar root, 3 < v.utf8ByteSize →
            v ∉ ph.entries.map Prod.snd → containsText text v = false)) := by
  obtain ⟨ph, root, text, hfails⟩ := failsResolved_of_redacted hload
  refine ⟨ph, root, text, hfails, fun hapart => ?_⟩
  have hmessage : redactSecretValues o.message ph text = message := by
    rw [hfails.loadBytes_eq] at hload
    exact LoadError.redacted.inj (Except.error.inj hload)
  subst hmessage
  constructor
  · intro h v hv hlong hph
    have hmem : v ∈ secretValues o files ph root := List.mem_append_right _ hv
    by_contra htext
    have hcontains := (contains_redacted_iff hapart hmem hlong).mpr
      ⟨hph, Bool.not_eq_false _ ▸ htext⟩
    rw [h v hmem hlong] at hcontains
    cases hcontains
  · intro h v hv hlong
    by_contra hcontains
    obtain ⟨hph, htext⟩ := (contains_redacted_iff hapart hv hlong).mp
      (Bool.not_eq_false _ ▸ hcontains)
    have hfile : v ∈ fileSecrets files ph o.scalar root := (List.mem_append.mp hv).resolve_left hph
    rw [h v hfile hlong hph] at htext
    cases htext

end

/-! ### A duration that is a secret -/

/-- A configuration up to the value of a duration, as the library writes it. -/
def settleText : String :=
  "sources:\n    - loops:\n        analytics:\n            bucket_settle: "

/-- The tree of a configuration with one duration. -/
def settleTree (value : String) : YamlNode Unit :=
  .inner () .mapping [.scalar () "sources", .inner () .sequence [.inner () .mapping
    [.scalar () "loops", .inner () .mapping [.scalar () "analytics", .inner () .mapping
      [.scalar () "bucket_settle", .scalar () value]]]]]

/-- The duration of such a text, which ends with the line. -/
def settleValue (text : String) : String :=
  String.ofList ((text.toList.drop settleText.length).takeWhile (· ≠ '\n'))

/-- A YAML library for such configurations; it cannot parse the duration. -/
def durationYaml : ConfigYaml Unit Unit where
  unmarshal text := .ok (settleTree (settleValue text))
  marshal
    | .inner _ _ [_, .inner _ _ [.inner _ _ [_, .inner _ _ [_, .inner _ _ [_, .scalar _ value]]]]] =>
      .ok (settleText ++ value ++ "\n")
    | _ => .error "not such a configuration"
  decode text :=
    .error ("config: invalid duration \"" ++ settleValue text ++ "\": time: invalid duration \"" ++
      settleValue text ++ "\"")

/-- The secret of the examples. -/
def settleSecret : String := "sk-supersecret-abc123-value"

/-- The environment has the secret under one name. -/
def settleEnv (key : String) : String := if key = "TEST_SETTLE" then settleSecret else ""

/-- One file has the secret, with a line end. -/
def settleFiles (path : String) : Except String String :=
  if path = "/run/secrets/settle" then .ok (settleSecret ++ "\n") else .error "no such file"

/-- Every range in the order of the tokens. -/
def storedOrders : LoadOrders := ⟨fun _ => .stored, .stored⟩

theorem settleSecret_apart : Apart settleSecret.toList "[redacted]".toList :=
  Lib.apart_of_not_mem (a := '[') (b := ']') rfl rfl (by decide) (by decide) (by decide)

theorem secretsApart_settleSecret {secrets : List String} (h : ∀ v ∈ secrets, v = settleSecret) :
    SecretsApart secrets := by
  refine ⟨fun v hv _ => ?_, fun v hv w hw _ _ hne => ?_⟩
  · rw [h v hv]
    exact settleSecret_apart
  · exact absurd ((h v hv).trans (h w hw).symm) hne

theorem settleValue_text {value : String} (h : '\n' ∉ value.toList) :
    settleValue (settleText ++ value ++ "\n") = value := by
  have hrest : (settleText ++ value ++ "\n").toList.drop settleText.length =
      value.toList ++ ['\n'] := by
    rw [String.append_assoc, String.toList_append, ← String.length_toList, List.drop_left,
      String.toList_append]
    rfl
  have hline : ∀ c ∈ value.toList, decide (c ≠ '\n') = true := by
    intro c hc
    exact decide_eq_true fun heq => h (heq ▸ hc)
  unfold settleValue
  rw [hrest, List.takeWhile_append_of_pos hline]
  exact (congrArg String.ofList (List.append_nil _)).trans String.ofList_toList

/-- A load that fails to decode the duration, once the references in it are resolved. -/
theorem failsResolved_duration (o : LoadOrders) {env : String → String}
    (files : String → Except String String) {raw reference : String} (value : String)
    {ph : SortedMap String String}
    (hinject : injectEnvPlaceholders env raw = .ok (settleText ++ reference ++ "\n", ph))
    (hreference : '\n' ∉ reference.toList) (hvalue : '\n' ∉ value.toList)
    (hresolve : resolveSecretsNode files ph o.scalar (settleTree reference) =
      .ok (settleTree value)) :
    FailsResolved durationYaml o env files raw ph (settleTree reference)
      ("config: parse: " ++ ("config: invalid duration \"" ++ value ++
        "\": time: invalid duration \"" ++ value ++ "\"")) := by
  refine ⟨⟨_, hinject, ?_⟩, settleTree value, hresolve,
    .inr ⟨settleText ++ value ++ "\n", _, rfl, ?_, rfl⟩⟩
  · show Except.ok (settleTree (settleValue _)) = _
    rw [settleValue_text hreference]
  · show Except.error _ = _
    rw [settleValue_text hvalue]

/-- The duration as a reference to the environment, and to a file. -/
def envReference : String := settleText ++ "$\x7bTEST_SETTLE\x7d" ++ "\n"

def fileReference : String := settleText ++ "file:/run/secrets/settle" ++ "\n"

/-- The secret comes from the environment, and is redacted. -/
theorem resolved_secrets_redacted_env : ∃ message,
    loadBytes durationYaml storedOrders settleEnv settleFiles envReference =
      .error (.redacted message) ∧ containsText message settleSecret = false := by
  have hinject : injectEnvPlaceholders settleEnv envReference =
      .ok (settleText ++ placeholder 0 ++ "\n",
        SortedMap.empty.insert (placeholder 0) settleSecret) := by decide +kernel
  have hload := (failsResolved_duration storedOrders settleFiles settleSecret hinject
    (by decide +kernel) (by decide +kernel) (by rfl)).loadBytes_eq
  obtain ⟨ph, root, text, ⟨⟨subst, hsubst, hparse⟩, -⟩, hiff⟩ := resolved_secrets_redacted_iff hload
  obtain ⟨rfl, rfl⟩ := Prod.mk.inj (Except.ok.inj (hinject.symm.trans hsubst))
  obtain rfl : settleTree (settleValue (settleText ++ placeholder 0 ++ "\n")) = root :=
    Except.ok.inj hparse
  rw [settleValue_text (by decide +kernel)] at hiff
  have hfiles : fileSecrets settleFiles (SortedMap.empty.insert (placeholder 0) settleSecret)
      storedOrders.scalar (settleTree (placeholder 0)) = [] := by decide +kernel
  have hsecrets : secretValues storedOrders settleFiles
      (SortedMap.empty.insert (placeholder 0) settleSecret) (settleTree (placeholder 0)) =
      [settleSecret] := congrArg (settleSecret :: ·) hfiles
  rw [hfiles, hsecrets] at hiff
  have hapart : SecretsApart [settleSecret] :=
    secretsApart_settleSecret fun v hv => List.mem_singleton.mp hv
  have hgone := (hiff hapart).mpr fun v hv => absurd hv List.not_mem_nil
  exact ⟨_, hload, hgone settleSecret List.mem_cons_self (by decide)⟩

/-- **A secret from a file is in the message.** -/
theorem file_secret_in_message : ∃ ph root text message,
    loadBytes durationYaml storedOrders settleEnv settleFiles fileReference =
      .error (.redacted message) ∧
    FailsResolved durationYaml storedOrders settleEnv settleFiles fileReference ph root text ∧
    SecretsApart (secretValues storedOrders settleFiles ph root) ∧
    settleSecret ∈ fileSecrets settleFiles ph storedOrders.scalar root ∧
    3 < settleSecret.utf8ByteSize ∧ containsText message settleSecret = true := by
  have hinject : injectEnvPlaceholders settleEnv fileReference = .ok (fileReference, .empty) := by
    decide +kernel
  have hfails := failsResolved_duration storedOrders settleFiles settleSecret hinject
    (by decide +kernel) (by decide +kernel) (by rfl)
  have hfiles : fileSecrets settleFiles .empty storedOrders.scalar
      (settleTree "file:/run/secrets/settle") = [settleSecret] := by decide +kernel
  have hsecrets : secretValues storedOrders settleFiles .empty
      (settleTree "file:/run/secrets/settle") = [settleSecret] := hfiles
  refine ⟨_, _, _, _, hfails.loadBytes_eq, hfails, ?_, ?_, by decide, by decide +kernel⟩
  · rw [hsecrets]
    exact secretsApart_settleSecret fun v hv => List.mem_singleton.mp hv
  · rw [hfiles]
    exact List.mem_cons_self

end GenaiBridge
