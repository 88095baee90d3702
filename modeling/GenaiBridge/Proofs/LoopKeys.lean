/-
No two loops share a durable position.

The key of a loop is made of the instance of its source, the name of the loop and a
fingerprint, and a slash between them; neither instance nor name holds one.  Loops that
differ in their use case alone differ in what is fingerprinted.  The data key of the
ConfigMap ends in a digest of the whole key.  Digests are assumed not to collide on the
texts that are hashed here.
-/
import GenaiBridge.Bridge.Checkpoint
import GenaiBridge.Lib.SortBy
import GenaiBridge.Proofs.RangeServer
import GenaiBridge.Proofs.SourceLoops

namespace GenaiBridge

/-! ### What is fingerprinted -/

/-- The text whose digest is the fingerprint. -/
def fingerprintText (seriesNames : List String) (namingConfig : String) : String :=
  String.join ((seriesNames.insertionSort (· ≤ ·)).map fun n => n ++ "\x00") ++
    trimSpace namingConfig

theorem fingerprint_eq (sha256 : String → String) (names : List String) (naming : String) :
    fingerprint sha256 names naming =
      String.ofList ((sha256 (fingerprintText names naming)).toList.take 16) := rfl

/-- **The order of the names does not matter**, nor the space around the naming. -/
theorem fingerprint_congr (sha256 : String → String) : ∀ {names names' : List String}
    {naming naming' : String}, names.Perm names' → trimSpace naming = trimSpace naming' →
    fingerprint sha256 names naming = fingerprint sha256 names' naming' := by
  intro names names' naming naming' hnames hnaming
  rw [fingerprint_eq, fingerprint_eq]
  unfold fingerprintText
  rw [Lib.insertionSort_eq_of_perm hnames, hnaming]

private theorem isSpace_slug {c : Char} (h : isSlugChar c = true ∨ c = '_') :
    isSpace c = false := by
  rcases h with h | rfl
  · have hrange : (97 ≤ c.toNat ∧ c.toNat ≤ 122) ∨ (48 ≤ c.toNat ∧ c.toNat ≤ 57) := by
      simpa [isSlugChar, Char.le_def, UInt32.le_iff_toNat_le] using h
    unfold isSpace
    simp only [decide_eq_false_iff_not]
    omega
  · decide

/-- The naming configuration of a log export. -/
def LogsExportLoop.naming {R : Type} (e : LogsExportLoop R) : String :=
  if e.useCase = "" then "logs_export" else "logs_export" ++ ",api_key_use_case=" ++ e.useCase

/-- The text a log export fingerprints. -/
def LogsExportLoop.fingerprintText {R : Type} (e : LogsExportLoop R) : String :=
  GenaiBridge.fingerprintText e.indexedKeys e.naming

theorem trimSpace_naming {R : Type} {e : LogsExportLoop R} (h : IsSlug e.useCase) :
    trimSpace e.naming = "logs_export,api_key_use_case=" ++ e.useCase := by
  have hnaming : e.naming =
      String.ofList ("logs_export,api_key_use_case=".toList ++ e.useCase.toList) := by
    unfold LogsExportLoop.naming
    rw [if_neg h.nonempty, String.ofList_append, String.ofList_toList, String.ofList_toList]
    rfl
  have hspace : ∀ c ∈ "logs_export,api_key_use_case=".toList ++ e.useCase.toList,
      isSpace c = false := by
    intro c hc
    rcases List.mem_append.mp hc with hc | hc
    · have hfixed : ("logs_export,api_key_use_case=".toList.all fun c => !isSpace c) = true := by
        decide
      simpa using List.all_eq_true.mp hfixed c hc
    · exact isSpace_slug (h.chars c hc)
  rw [hnaming, trimSpace_ofList (fun c hc => hspace c (List.mem_of_head? hc))
    (fun c hc => hspace c (List.mem_of_getLast? hc)), String.ofList_append, String.ofList_toList,
    String.ofList_toList]

/-- Exports of different use cases fingerprint different texts. -/
theorem fingerprintText_ne {R : Type} {e e' : LogsExportLoop R} (hindexed : e.indexed = e'.indexed)
    (hslug : IsSlug e.useCase) (hslug' : IsSlug e'.useCase) (hne : e.useCase ≠ e'.useCase) :
    e.fingerprintText ≠ e'.fingerprintText := by
  have hkeys : e.indexedKeys = e'.indexedKeys := by
    unfold LogsExportLoop.indexedKeys
    rw [hindexed]
  intro heq
  unfold LogsExportLoop.fingerprintText GenaiBridge.fingerprintText at heq
  rw [hkeys, trimSpace_naming hslug, trimSpace_naming hslug'] at heq
  have htext := congrArg String.toList heq
  simp only [String.toList_append, List.append_cancel_left_eq] at htext
  exact hne (String.toList_inj.mp htext)

variable {P : Platform}

/-! ### The keys -/

/-- No two of some texts have digests that begin with the same `n` digits. -/
def CollisionFree (sha256 : String → String) (n : Nat) (texts : List String) : Prop :=
  ∀ x ∈ texts, ∀ y ∈ texts, (sha256 x).toList.take n = (sha256 y).toList.take n → x = y

instance (sha256 : String → String) (n : Nat) (texts : List String) :
    Decidable (CollisionFree sha256 n texts) :=
  inferInstanceAs (Decidable (∀ x ∈ texts, ∀ y ∈ texts, _ → _))

/-- The digits of a hexadecimal digest. -/
def isHexDigit (c : Char) : Bool := ('0' ≤ c ∧ c ≤ '9') ∨ ('a' ≤ c ∧ c ≤ 'f')

/-- The text a loop fingerprints, if it is a log export. -/
def Loop.exportText : Loop → Option String
  | .logsExport e => some e.fingerprintText
  | .metrics _ | .runs _ => none

/-- The texts the log exports fingerprint. -/
def App.exportTexts (app : App) : List String := app.loops.filterMap (·.loop.exportText)

/-- The texts of the keys. -/
def App.keyTexts (sha256 : String → String) (app : App) : List String :=
  app.loops.map fun l => (l.loop.key sha256).string

theorem Loop.Apart.string_ne {a b : Loop} (h : a.Apart P.sha256 b)
    (ha : '/' ∉ (a.key P.sha256).sourceInstance.toList ∧ '/' ∉ (a.key P.sha256).loop.toList)
    (hb : '/' ∉ (b.key P.sha256).sourceInstance.toList ∧ '/' ∉ (b.key P.sha256).loop.toList)
    {texts : List String} (hfree : CollisionFree P.sha256 16 texts)
    (hta : ∀ text, a.exportText = some text → text ∈ texts)
    (htb : ∀ text, b.exportText = some text → text ∈ texts) :
    (a.key P.sha256).string ≠ (b.key P.sha256).string := by
  intro heq
  have hkeys := key_string_inj heq ha.1 hb.1 ha.2 hb.2
  cases h with
  | place h =>
    rw [hkeys] at h
    rcases h with h | h
    · exact h rfl
    · exact h rfl
  | useCase e e' hea heb hindexed hslug hslug' hne =>
    subst hea heb
    have hprint := String.ofList_inj.mp (congrArg CheckpointKey.outputFingerprint hkeys)
    exact fingerprintText_ne hindexed hslug hslug' hne
      (hfree _ (hta _ rfl) _ (htb _ rfl) hprint)

/-! ### The data keys -/

open ConfigMap (dataKey keyChar)

private theorem keyChar_of_isHexDigit {c : Char} (h : isHexDigit c = true) : keyChar c = true := by
  unfold isHexDigit at h
  unfold keyChar
  simp only [decide_eq_true_eq] at h ⊢
  rcases h with h | h
  · exact Or.inr (Or.inr (Or.inl h))
  · exact Or.inl ⟨h.1, h.2.trans (by decide)⟩

private theorem utf8Size_of_keyChar {c : Char} (h : keyChar c = true) : c.utf8Size = 1 := by
  have hascii : c.toNat ≤ 127 := by
    have hle : ∀ d : Char, d.toNat ≤ 127 → c ≤ d → c.toNat ≤ 127 := by
      intro d hd hcd
      exact le_trans (UInt32.le_iff_toNat_le.mp hcd) hd
    unfold keyChar at h
    simp only [decide_eq_true_eq] at h
    rcases h with h | h | h | rfl | rfl | rfl
    · exact hle 'z' (by decide) h.2
    · exact hle 'Z' (by decide) h.2
    · exact hle '9' (by decide) h.2
    all_goals decide
  unfold Char.utf8Size
  rw [if_pos]
  exact UInt32.le_iff_toNat_le.mpr hascii

private theorem utf8Len_of_keyChar : ∀ {l : List Char}, (∀ c ∈ l, keyChar c = true) →
    String.utf8Len l = l.length := by
  intro l
  induction l with
  | nil =>
    intro _
    rfl
  | cons c l ih =>
    intro h
    obtain ⟨hc, hl⟩ := List.forall_mem_cons.mp h
    rw [String.utf8Len_cons, ih hl, utf8Size_of_keyChar hc, List.length_cons]

section

variable {sha256 : String → String}
  (hhex : ∀ text, ∀ c ∈ (sha256 text).toList, isHexDigit c = true)
include hhex

theorem keyChar_of_mem_dataKey (k : CheckpointKey) :
    ∀ c ∈ (dataKey sha256 k).toList, keyChar c = true := by
  intro c hc
  simp only [dataKey, String.toList_append, String.toList_ofList] at hc
  rcases List.mem_append.mp hc with hc | hc
  · rcases List.mem_append.mp hc with hc | hc
    · obtain ⟨d, -, hd⟩ := List.mem_flatMap.mp (List.mem_of_mem_take hc)
      by_cases hkeep : keyChar d = true
      · rw [if_pos hkeep] at hd
        rwa [List.mem_singleton.mp hd]
      · rw [if_neg hkeep] at hd
        rw [List.eq_of_mem_replicate hd]
        decide
    · have hdot : ".".toList.all keyChar = true := by decide
      exact List.all_eq_true.mp hdot c hc
  · exact keyChar_of_isHexDigit (hhex _ c (List.mem_of_mem_take hc))

theorem utf8ByteSize_dataKey (k : CheckpointKey) : (dataKey sha256 k).utf8ByteSize ≤ 253 := by
  have hsize : (dataKey sha256 k).utf8ByteSize = (dataKey sha256 k).toList.length := by
    rw [← utf8Len_of_keyChar (keyChar_of_mem_dataKey hhex k), ← String.utf8ByteSize_ofList,
      String.ofList_toList]
  rw [hsize]
  simp only [dataKey, String.toList_append, String.toList_ofList, List.length_append,
    List.length_take]
  have hdot : ".".toList.length = 1 := by decide
  omega

theorem digest_of_dataKey_eq {k k' : CheckpointKey} (h : dataKey sha256 k = dataKey sha256 k') :
    (sha256 k.string).toList.take 12 = (sha256 k'.string).toList.take 12 := by
  have hdot : ∀ text, '.' ∉ (sha256 text).toList.take 12 := by
    intro text hmem
    have hhexdot := hhex text '.' (List.mem_of_mem_take hmem)
    revert hhexdot
    decide
  have htext := congrArg String.toList h
  simp only [dataKey, String.toList_append, String.toList_ofList, List.append_assoc] at htext
  exact Lib.separator_append_inj (hdot _) (hdot _) htext

end

/-- **No two loops share a durable position.**  The keys of the loops differ, and so do their data
keys, which are well formed; and a fingerprint is up to the order of the names and to space around
the naming. -/
theorem positions_not_shared {cfg : Config} {app : App}
    (h : build P (metricLoops P) cfg = .ok app)
    (hhex : ∀ text, ∀ c ∈ (P.sha256 text).toList, isHexDigit c = true)
    (hexports : CollisionFree P.sha256 16 app.exportTexts)
    (hkeys : CollisionFree P.sha256 12 (app.keyTexts P.sha256)) :
    (app.loops.Pairwise fun a b =>
      (a.loop.key P.sha256).string ≠ (b.loop.key P.sha256).string ∧
      dataKey P.sha256 (a.loop.key P.sha256) ≠ dataKey P.sha256 (b.loop.key P.sha256)) ∧
    (∀ l ∈ app.loops, dataKey P.sha256 (l.loop.key P.sha256) ≠ "" ∧
      (∀ c ∈ (dataKey P.sha256 (l.loop.key P.sha256)).toList, keyChar c = true) ∧
      (dataKey P.sha256 (l.loop.key P.sha256)).utf8ByteSize ≤ 253) ∧
    ∀ names names' naming naming', names.Perm names' → trimSpace naming = trimSpace naming' →
      fingerprint P.sha256 names naming = fingerprint P.sha256 names' naming' := by
  have hloops := loopsOf_build h
  refine ⟨?_, ?_, ?_⟩
  · refine hloops.apart.imp_of_mem ?_
    intro a b ha hb hapart
    have htext : ∀ l ∈ app.loops, ∀ text, l.loop.exportText = some text →
        text ∈ app.exportTexts := by
      intro l hl text hsome
      exact List.mem_filterMap.mpr ⟨l, hl, hsome⟩
    have hne := hapart.string_ne (hloops.slash a ha) (hloops.slash b hb) hexports
      (htext a ha) (htext b hb)
    refine ⟨hne, ?_⟩
    intro heq
    have hmem : ∀ l ∈ app.loops, (l.loop.key P.sha256).string ∈ app.keyTexts P.sha256 := by
      intro l hl
      exact List.mem_map.mpr ⟨l, hl, rfl⟩
    exact hne (hkeys _ (hmem a ha) _ (hmem b hb) (digest_of_dataKey_eq hhex heq))
  · intro l hl
    refine ⟨?_, keyChar_of_mem_dataKey hhex _, utf8ByteSize_dataKey hhex _⟩
    intro hempty
    have hlength := congrArg (fun s : String => s.toList.length) hempty
    simp [dataKey] at hlength
  · intro names names' naming naming' hnames hnaming
    exact fingerprint_congr P.sha256 hnames hnaming

/-- A hexadecimal digit. -/
def hexDigit (n : Nat) : Char := "0123456789abcdef".toList.getD n '0'

theorem isHexDigit_hexDigit (n : Nat) : isHexDigit (hexDigit n) = true := by
  have hdigits : ('0' :: "0123456789abcdef".toList).all isHexDigit = true := by decide
  apply List.all_eq_true.mp hdigits
  unfold hexDigit
  rw [List.getD_eq_getElem?_getD]
  cases hget : "0123456789abcdef".toList[n]? with
  | none => exact List.mem_cons_self
  | some c => exact List.mem_cons_of_mem _ (List.mem_of_getElem? hget)

/-- A digest of sixteen digits. -/
def shortDigest (text : String) : String :=
  let h := text.toList.foldl (fun h c => (h * 31 + c.toNat) % 2 ^ 64) 7
  String.ofList ((List.range 16).map fun i => hexDigit (h / 16 ^ i % 16))

theorem isHexDigit_shortDigest : ∀ text, ∀ c ∈ (shortDigest text).toList, isHexDigit c = true := by
  intro text c hc
  unfold shortDigest at hc
  rw [String.toList_ofList] at hc
  obtain ⟨i, -, rfl⟩ := List.mem_map.mp hc
  exact isHexDigit_hexDigit _

/-- A platform with that digest. -/
def digestPlatform : Platform := { plainPlatform with sha256 := shortDigest }

/-- A source with a groups loop, and a log export for each of two use cases. -/
def fanOutConfig : Config :=
  { exportConfig requiredSettings with
    sources := (exportConfig requiredSettings).sources.map fun sc => { sc with
      loops := sc.loops.insert "groups" { LoopConfig.zero with enabled := true, cadence := minute }
      apiKeyUseCases := [⟨"Data Gen", ["k1"]⟩, ⟨"Chat", ["k2"]⟩] } }

theorem positions_not_shared_fan_out :
    ∃ app, build digestPlatform (metricLoops digestPlatform) fanOutConfig = .ok app ∧
      app.loops.map (fun l => (l.loop.key shortDigest).loop) =
        ["groups", "logs_export", "logs_export"] ∧
      app.loops.Pairwise fun a b => dataKey shortDigest (a.loop.key shortDigest) ≠
        dataKey shortDigest (b.loop.key shortDigest) := by
  have hfacts : (build digestPlatform (metricLoops digestPlatform) fanOutConfig).toOption.map
      (fun app => (app.loops.map (fun l => (l.loop.key shortDigest).loop),
        decide (CollisionFree shortDigest 16 app.exportTexts),
        decide (CollisionFree shortDigest 12 (app.keyTexts shortDigest)))) =
      some (["groups", "logs_export", "logs_export"], true, true) := by
    decide +kernel
  obtain ⟨app, hbuild, hfacts⟩ := Lib.ok_of_toOption_map hfacts
  simp only [Prod.mk.injEq, decide_eq_true_eq] at hfacts
  obtain ⟨hnames, hexports, hkeys⟩ := hfacts
  refine ⟨app, hbuild, hnames, ?_⟩
  exact (positions_not_shared hbuild isHexDigit_shortDigest hexports hkeys).1.imp And.right

end GenaiBridge
