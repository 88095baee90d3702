/-
What the use cases resolve to.

A slug is the words of the label, in lower case and joined by underscores, so it is its
own slug, and two labels have one slug just if they have the same words.  The ids of an
entry are what its texts hold between commas, trimmed; joining and splitting them again
changes nothing.  With both known, the loop accepts its entries just if no slug and no id
comes twice.
-/
import GenaiBridge.Bridge.UseCases
import GenaiBridge.Lib.Fallible
import GenaiBridge.Lib.Words

namespace GenaiBridge

open Lib (IsWord SortedMap bind_ok trim words)

/-! ### Slugs -/

/-- The words of a label. -/
def slugWords (label : String) : List (List Char) :=
  words isSlugChar (label.toList.map lowerSlugChar)

/-- The text `slugifyUseCase` makes of a label, empty if there is none. -/
def slugOf (label : String) : String := String.ofList (['_'].intercalate (slugWords label))

/-- The texts `[a-z0-9]+(_[a-z0-9]+)*`. -/
def SlugForm (s : String) : Prop :=
  ∃ ws : List (List Char), ws ≠ [] ∧ (∀ w ∈ ws, IsWord isSlugChar w) ∧
    s.toList = ['_'].intercalate ws

theorem lowerSlugChar_of_isSlugChar {c : Char} (h : isSlugChar c = true) : lowerSlugChar c = c := by
  have hchars : ('a' ≤ c ∧ c ≤ 'z') ∨ ('0' ≤ c ∧ c ≤ '9') := by simpa [isSlugChar] using h
  have hrange : (97 ≤ c.toNat ∧ c.toNat ≤ 122) ∨ (48 ≤ c.toNat ∧ c.toNat ≤ 57) := hchars
  have hupper : ¬('A' ≤ c ∧ c ≤ 'Z') := by
    rintro ⟨hlo, hhi⟩
    have hlo : 65 ≤ c.toNat := hlo
    have hhi : c.toNat ≤ 90 := hhi
    omega
  unfold lowerSlugChar
  rw [if_neg hupper, if_neg, if_neg]
  · rintro rfl
    exact absurd h (by decide)
  · rintro rfl
    exact absurd h (by decide)

theorem slugChars_true_head : ∀ {l : List Char} {c : Char}, (slugChars true l).head? = some c →
    c ≠ '_' := by
  intro l
  induction l with
  | nil => exact fun h => nomatch h
  | cons a l ih =>
    intro c h
    unfold slugChars at h
    by_cases hkeep : isSlugChar (lowerSlugChar a) = true
    · rw [if_pos hkeep] at h
      rintro rfl
      rw [Option.some.inj h] at hkeep
      exact absurd hkeep (by decide)
    · rw [if_neg hkeep, if_pos rfl] at h
      exact ih h

/-- The loop writes an underscore first only if it starts as after a kept character. -/
theorem dropWhile_slugChars (l : List Char) :
    (slugChars false l).dropWhile (· = '_') = slugChars true l := by
  have hdrop : ∀ l, (slugChars true l).dropWhile (· = '_') = slugChars true l := by
    intro l
    cases hl : slugChars true l with
    | nil => rfl
    | cons c rest =>
      have hne := @slugChars_true_head l c (by rw [hl]; rfl)
      simp [hne]
  cases l with
  | nil => rfl
  | cons c l =>
    by_cases hkeep : isSlugChar (lowerSlugChar c) = true
    · have heq : slugChars false (c :: l) = slugChars true (c :: l) := by
        simp only [slugChars, if_pos hkeep]
      rw [heq]
      exact hdrop _
    · simp only [slugChars, if_neg hkeep, if_true, Bool.false_eq_true, if_false,
        List.dropWhile_cons, decide_true]
      exact hdrop l

/-- The loop writes the words, joined by underscores, and perhaps one more underscore. -/
theorem rdropWhile_slugChars : ∀ {l : List Char} {w : List Char} {ws : List (List Char)},
    (l.map lowerSlugChar).splitOnP (fun c => !isSlugChar c) = w :: ws →
    (slugChars true l).rdropWhile (· = '_') =
        ['_'].intercalate ((w :: ws).filter fun w => !w.isEmpty) ∧
      (slugChars false l).rdropWhile (· = '_') =
        ['_'].intercalate (w :: ws.filter fun w => !w.isEmpty) := by
  intro l
  induction l with
  | nil =>
    intro w ws h
    obtain ⟨rfl, rfl⟩ := List.cons.inj h
    exact ⟨rfl, rfl⟩
  | cons c l ih =>
    intro w ws h
    obtain ⟨v, vs, hvs⟩ := List.exists_cons_of_ne_nil
      (List.splitOnP_ne_nil (fun c => !isSlugChar c) (l.map lowerSlugChar))
    obtain ⟨htrue, hfalse⟩ := ih hvs
    rw [List.map_cons, List.splitOnP_cons_eq_if_modifyHead, hvs] at h
    by_cases hkeep : isSlugChar (lowerSlugChar c) = true
    · -- the character goes to the word that is open
      rw [if_neg (by simp [hkeep])] at h
      obtain ⟨rfl, rfl⟩ := List.cons.inj h
      have hchar : lowerSlugChar c ≠ '_' := fun heq => by
        rw [heq] at hkeep
        exact absurd hkeep (by decide)
      have hboth : (lowerSlugChar c :: slugChars false l).rdropWhile (· = '_') =
          ['_'].intercalate ((lowerSlugChar c :: v) :: vs.filter fun w => !w.isEmpty) := by
        rw [Lib.rdropWhile_cons, if_neg (by simp [hchar]), hfalse,
          List.intercalate_cons_cons_left]
      simp only [slugChars, if_pos hkeep]
      exact ⟨hboth, hboth⟩
    · -- the character ends the word that is open
      rw [if_pos (by simp [hkeep])] at h
      obtain ⟨rfl, rfl⟩ := List.cons.inj h
      simp only [slugChars, if_neg hkeep, if_true, Bool.false_eq_true, if_false]
      refine ⟨htrue, ?_⟩
      have hne : ∀ u ∈ (v :: vs).filter fun u => !u.isEmpty, u ≠ [] := by simp
      rw [Lib.rdropWhile_cons, htrue]
      by_cases hnil : (v :: vs).filter (fun u => !u.isEmpty) = []
      · simp [hnil]
      · rw [if_neg fun hboth => hnil ((Lib.join_eq_nil hne).mp hboth.2),
          List.intercalate_cons_of_ne_nil hnil]
        rfl

/-- **A slug is the words of the label**, joined by underscores. -/
theorem slugifyUseCase_eq (label : String) : slugifyUseCase label =
    if slugOf label = "" then .error (.emptySlug label) else .ok (slugOf label) := by
  have htrim : trim (· = '_') (slugChars false label.toList) =
      ['_'].intercalate (slugWords label) := by
    obtain ⟨w, ws, hws⟩ := List.exists_cons_of_ne_nil
      (List.splitOnP_ne_nil (fun c => !isSlugChar c) (label.toList.map lowerSlugChar))
    unfold trim slugWords words
    rw [dropWhile_slugChars, (rdropWhile_slugChars hws).1, hws]
  unfold slugOf
  rw [← htrim]
  rfl

theorem slugOf_eq_empty {label : String} : slugOf label = "" ↔ slugWords label = [] := by
  have hne : ∀ w ∈ slugWords label, w ≠ [] := fun w hw => (Lib.isWord_of_mem_words hw).nonempty
  rw [← @Lib.join_eq_nil _ '_' _ hne]
  exact String.ofList_eq_empty_iff

theorem slugForm_slugOf {label : String} (h : slugOf label ≠ "") : SlugForm (slugOf label) :=
  ⟨slugWords label, fun hnil => h (slugOf_eq_empty.mpr hnil),
    fun _ hw => Lib.isWord_of_mem_words hw, String.toList_ofList⟩

theorem ne_empty_of_slugForm {s : String} (h : SlugForm s) : s ≠ "" := by
  obtain ⟨ws, hne, hws, hs⟩ := h
  rintro rfl
  exact hne ((Lib.join_eq_nil fun w hw => (hws w hw).nonempty).mp hs.symm)

theorem slugifyUseCase_of_slugForm {s : String} (h : SlugForm s) : slugifyUseCase s = .ok s := by
  obtain ⟨ws, hne, hws, hs⟩ := h
  have hlower : s.toList.map lowerSlugChar = s.toList := by
    refine (List.map_congr_left fun c hc => ?_).trans (List.map_id _)
    rcases Lib.mem_join (hs ▸ hc) with rfl | ⟨w, hw, hmem⟩
    · decide
    · exact lowerSlugChar_of_isSlugChar ((hws w hw).all c hmem)
  have hwords : slugWords s = ws := by
    unfold slugWords
    rw [hlower, hs, Lib.words_join (by decide) hws]
  have hslug : slugOf s = s := by
    unfold slugOf
    rw [hwords, ← hs, String.ofList_toList]
  rw [slugifyUseCase_eq, if_neg fun h => hne (hwords ▸ slugOf_eq_empty.mp h), hslug]

/-! ### Ids -/

/-- The ids that texts name: what they hold between commas, trimmed, where something is left. -/
def namedIDs (texts : List String) : List String :=
  (texts.flatMap fun s => (s.toList.splitOn ',').map fun p => trimSpace (String.ofList p)).filter
    (· ≠ "")

/-- An id as it can stand between commas: trimmed, and not blank. -/
structure IsID (id : String) : Prop where
  trimmed : trimSpace id = id
  nonempty : id ≠ ""
  noComma : ',' ∉ id.toList

theorem trimSpace_eq (s : String) : trimSpace s = String.ofList (trim isSpace s.toList) := rfl

theorem trimSpace_trimSpace (s : String) : trimSpace (trimSpace s) = trimSpace s := by
  rw [trimSpace_eq, trimSpace_eq, String.toList_ofList, Lib.trim_trim]

theorem isID_of_mem_namedIDs {texts : List String} {id : String} (h : id ∈ namedIDs texts) :
    IsID id := by
  obtain ⟨hmem, hne⟩ := List.mem_filter.mp h
  obtain ⟨s, -, hpart⟩ := List.mem_flatMap.mp hmem
  obtain ⟨part, hsplit, rfl⟩ := List.mem_map.mp hpart
  refine ⟨trimSpace_trimSpace _, by simpa using hne, fun hcomma => ?_⟩
  rw [trimSpace_eq, String.toList_ofList, String.toList_ofList] at hcomma
  have hfree := @Lib.not_mem_of_mem_splitOnP _ (· == ',') _ _ hsplit ','
    ((Lib.trim_sublist isSpace part).subset hcomma)
  exact absurd hfree (by decide)

/-- **Cleaning the joined texts** joins the ids they name. -/
theorem cleanAPIKeyIDs_join (texts : List String) :
    cleanAPIKeyIDs (String.intercalate "," texts) = String.intercalate "," (namedIDs texts) := by
  by_cases hnil : texts = []
  · subst hnil
    decide
  · unfold cleanAPIKeyIDs namedIDs
    rw [String.toList_intercalate, show ",".toList = [','] from rfl,
      Lib.splitOn_join ',' (by simpa using hnil), List.flatMap_map, List.map_flatMap]

theorem join_ids_eq_empty {ids : List String} (h : ∀ id ∈ ids, IsID id) :
    String.intercalate "," ids = "" ↔ ids = [] := by
  have hne : ∀ l ∈ ids.map String.toList, l ≠ [] := by
    intro l hl
    obtain ⟨id, hid, rfl⟩ := List.mem_map.mp hl
    simpa using (h id hid).nonempty
  rw [← String.toList_inj, String.toList_intercalate, show ",".toList = [','] from rfl]
  exact (Lib.join_eq_nil hne).trans List.map_eq_nil_iff

/-- The ids that were joined are what splitting gives back. -/
theorem split_join_ids {ids : List String} (hne : ids ≠ []) (h : ∀ id ∈ ids, IsID id) :
    ((String.intercalate "," ids).toList.splitOn ',').map String.ofList = ids := by
  have hfree : ∀ l ∈ ids.map String.toList, ',' ∉ l := by
    intro l hl
    obtain ⟨id, hid, rfl⟩ := List.mem_map.mp hl
    exact (h id hid).noComma
  rw [String.toList_intercalate, show ",".toList = [','] from rfl,
    List.splitOn_intercalate ',' hfree (by simpa using hne), List.map_map,
    String.ofList_comp_toList, List.map_id]

/-! ### The loop -/

/-- The ids of an entry are claimed just if none was seen before and none comes twice. -/
theorem claimIDs_ok_iff {label : String} : ∀ {ids : List String}
    {seen seen' : SortedMap String String}, claimIDs label seen ids = .ok seen' ↔
      (ids.Nodup ∧ ∀ id ∈ ids, seen.get? id = none) ∧
        seen' = ids.foldl (fun seen id => seen.insert id label) seen := by
  intro ids
  induction ids with
  | nil =>
    intro seen seen'
    simp [claimIDs, eq_comm]
  | cons id ids ih =>
    intro seen seen'
    unfold claimIDs
    cases hseen : seen.get? id with
    | some prev => simp [hseen]
    | none =>
      simp only [ih, SortedMap.get?_insert_eq_none, List.nodup_cons, List.forall_mem_cons,
        hseen, List.foldl_cons]
      refine and_congr_left fun _ => ⟨fun ⟨hnodup, h⟩ => ?_, fun ⟨⟨hid, hnodup⟩, _, h⟩ => ?_⟩
      · exact ⟨⟨fun hmem => (h id hmem).1 rfl, hnodup⟩, trivial, fun other ho => (h other ho).2⟩
      · exact ⟨hnodup, fun other ho => ⟨fun heq => hid (heq ▸ ho), h other ho⟩⟩

theorem get?_claimed {label : String} : ∀ {ids : List String} {seen : SortedMap String String}
    {id : String}, (ids.foldl (fun seen id => seen.insert id label) seen).get? id = none ↔
      id ∉ ids ∧ seen.get? id = none := by
  intro ids
  induction ids with
  | nil => simp
  | cons other ids ih =>
    intro seen id
    rw [List.foldl_cons, ih, SortedMap.get?_insert_eq_none, List.mem_cons, not_or, and_left_comm,
      and_assoc]

/-- What the loop asks of its entries, when it has seen some slugs and ids. -/
structure Unseen (seenSlug seenUUID : SortedMap String String) (ucs : List APIKeyUseCase) :
    Prop where
  slug : ∀ uc ∈ ucs, slugOf uc.label ≠ "" ∧ seenSlug.get? (slugOf uc.label) = none
  slugs : (ucs.map fun uc => slugOf uc.label).Nodup
  ids : ∀ uc ∈ ucs, namedIDs uc.apiKeyIDs ≠ []
  claimed : ∀ uc ∈ ucs, ∀ id ∈ namedIDs uc.apiKeyIDs, seenUUID.get? id = none
  once : (ucs.flatMap fun uc => namedIDs uc.apiKeyIDs).Nodup

section

variable {seenSlug seenUUID : SortedMap String String} {uc : APIKeyUseCase}
  {ucs : List APIKeyUseCase} {out : List ResolvedUseCase}

/-- What the loop asks of one entry. -/
structure UnseenEntry (seenSlug seenUUID : SortedMap String String) (uc : APIKeyUseCase) :
    Prop where
  slug : slugOf uc.label ≠ ""
  fresh : seenSlug.get? (slugOf uc.label) = none
  ids : namedIDs uc.apiKeyIDs ≠ []
  once : (namedIDs uc.apiKeyIDs).Nodup
  claimed : ∀ id ∈ namedIDs uc.apiKeyIDs, seenUUID.get? id = none

/-- An entry, resolved. -/
def APIKeyUseCase.resolved (uc : APIKeyUseCase) : ResolvedUseCase :=
  ⟨slugOf uc.label, String.intercalate "," (namedIDs uc.apiKeyIDs)⟩

/-- The ids seen once an entry is resolved. -/
def claimedBy (uc : APIKeyUseCase) (seenUUID : SortedMap String String) : SortedMap String String :=
  (namedIDs uc.apiKeyIDs).foldl (fun seen id => seen.insert id uc.label) seenUUID

theorem resolveEntries_cons_iff :
    resolveEntries seenSlug seenUUID (uc :: ucs) = .ok out ↔
      UnseenEntry seenSlug seenUUID uc ∧ ∃ tail,
        resolveEntries (seenSlug.insert (slugOf uc.label) uc.label) (claimedBy uc seenUUID) ucs =
          .ok tail ∧ out = uc.resolved :: tail := by
  have hids : ∀ id ∈ namedIDs uc.apiKeyIDs, IsID id := fun id hid => isID_of_mem_namedIDs hid
  constructor
  · intro h
    rw [resolveEntries] at h
    obtain ⟨slug, hslug, h⟩ := bind_ok h
    rw [slugifyUseCase_eq] at hslug
    by_cases hempty : slugOf uc.label = ""
    · rw [if_pos hempty] at hslug
      cases hslug
    · rw [if_neg hempty] at hslug
      obtain rfl := Except.ok.inj hslug
      rw [cleanAPIKeyIDs_join] at h
      dsimp only at h
      by_cases hnil : namedIDs uc.apiKeyIDs = []
      · rw [if_pos ((join_ids_eq_empty hids).mpr hnil)] at h
        cases h
      · rw [if_neg fun h => hnil ((join_ids_eq_empty hids).mp h), split_join_ids hnil hids] at h
        cases hseen : seenSlug.get? (slugOf uc.label) with
        | some prev =>
          rw [hseen] at h
          cases h
        | none =>
          rw [hseen] at h
          obtain ⟨seen, hclaim, h⟩ := bind_ok h
          obtain ⟨⟨honce, hclaimed⟩, rfl⟩ := claimIDs_ok_iff.mp hclaim
          obtain ⟨tail, htail, h⟩ := bind_ok h
          exact ⟨⟨hempty, hseen, hnil, honce, hclaimed⟩, tail, htail, (Except.ok.inj h).symm⟩
  · rintro ⟨⟨hslug, hfresh, hne, honce, hclaimed⟩, tail, htail, rfl⟩
    have hclaim : claimIDs uc.label seenUUID (namedIDs uc.apiKeyIDs) =
        .ok (claimedBy uc seenUUID) := claimIDs_ok_iff.mpr ⟨⟨honce, hclaimed⟩, rfl⟩
    rw [resolveEntries, slugifyUseCase_eq, if_neg hslug, cleanAPIKeyIDs_join]
    dsimp only [bind, Except.bind]
    rw [if_neg fun h => hne ((join_ids_eq_empty hids).mp h), split_join_ids hne hids, hfresh]
    dsimp only
    rw [hclaim]
    dsimp only
    rw [htail]
    rfl

theorem unseen_cons : Unseen seenSlug seenUUID (uc :: ucs) ↔
    UnseenEntry seenSlug seenUUID uc ∧
      Unseen (seenSlug.insert (slugOf uc.label) uc.label) (claimedBy uc seenUUID) ucs := by
  have hclaimed : ∀ id, (claimedBy uc seenUUID).get? id = none ↔
      id ∉ namedIDs uc.apiKeyIDs ∧ seenUUID.get? id = none := fun id => get?_claimed
  constructor
  · rintro ⟨hslug, hslugs, hids, hseen, honce⟩
    rw [List.map_cons, List.nodup_cons] at hslugs
    rw [List.flatMap_cons, List.nodup_append] at honce
    obtain ⟨hslug, hslug'⟩ := List.forall_mem_cons.mp hslug
    obtain ⟨hids, hids'⟩ := List.forall_mem_cons.mp hids
    obtain ⟨hseen, hseen'⟩ := List.forall_mem_cons.mp hseen
    refine ⟨⟨hslug.1, hslug.2, hids, honce.1, hseen⟩, ?_, hslugs.2, hids', ?_, honce.2.1⟩
    · intro uc' huc'
      exact ⟨(hslug' uc' huc').1, SortedMap.get?_insert_eq_none.mpr
        ⟨fun heq => hslugs.1 (heq ▸ List.mem_map_of_mem huc'), (hslug' uc' huc').2⟩⟩
    · intro uc' huc' id hid
      refine (hclaimed id).mpr ⟨fun hmem => ?_, hseen' uc' huc' id hid⟩
      exact honce.2.2 id hmem id (List.mem_flatMap.mpr ⟨uc', huc', hid⟩) rfl
  · rintro ⟨hentry, hslug, hslugs, hids, hseen, honce⟩
    refine ⟨?_, ?_, ?_, ?_, ?_⟩
    · refine List.forall_mem_cons.mpr ⟨⟨hentry.slug, hentry.fresh⟩, fun uc' huc' => ?_⟩
      exact ⟨(hslug uc' huc').1, (SortedMap.get?_insert_eq_none.mp (hslug uc' huc').2).2⟩
    · rw [List.map_cons, List.nodup_cons]
      refine ⟨fun hmem => ?_, hslugs⟩
      obtain ⟨uc', huc', heq⟩ := List.mem_map.mp hmem
      exact (SortedMap.get?_insert_eq_none.mp (hslug uc' huc').2).1 heq
    · exact List.forall_mem_cons.mpr ⟨hentry.ids, hids⟩
    · exact List.forall_mem_cons.mpr ⟨hentry.claimed,
        fun uc' huc' id hid => ((hclaimed id).mp (hseen uc' huc' id hid)).2⟩
    · rw [List.flatMap_cons, List.nodup_append]
      refine ⟨hentry.once, honce, ?_⟩
      rintro id hid other hother rfl
      obtain ⟨uc', huc', hid'⟩ := List.mem_flatMap.mp hother
      exact ((hclaimed id).mp (hseen uc' huc' id hid')).1 hid

end

theorem resolveEntries_ok_iff : ∀ {ucs : List APIKeyUseCase}
    {seenSlug seenUUID : SortedMap String String} {out : List ResolvedUseCase},
    resolveEntries seenSlug seenUUID ucs = .ok out ↔
      Unseen seenSlug seenUUID ucs ∧ out = ucs.map APIKeyUseCase.resolved := by
  intro ucs
  induction ucs with
  | nil =>
    intro seenSlug seenUUID out
    have hnil : Unseen seenSlug seenUUID [] := ⟨by simp, by simp, by simp, by simp, by simp⟩
    refine ⟨fun h => ⟨hnil, (Except.ok.inj h).symm⟩, ?_⟩
    rintro ⟨-, rfl⟩
    rfl
  | cons uc ucs ih =>
    intro seenSlug seenUUID out
    rw [resolveEntries_cons_iff, unseen_cons, and_assoc]
    refine and_congr_right fun _ => ?_
    simp only [ih]
    constructor
    · rintro ⟨tail, ⟨hrest, rfl⟩, rfl⟩
      exact ⟨hrest, rfl⟩
    · rintro ⟨hrest, rfl⟩
      exact ⟨_, ⟨hrest, rfl⟩, rfl⟩

/-! ### Resolution -/

/-- No enabled loop has ids of its own. -/
def SourceConfig.NoLoopIDs (sc : SourceConfig) : Prop :=
  ∀ e ∈ sc.loops.entries, e.2.enabled = true →
    cleanAPIKeyIDs ((e.2.settings.get? "api_key_ids").getD "") = ""

theorem resolveUseCases_ok_iff {sc : SourceConfig} {ucs : List ResolvedUseCase} :
    resolveUseCases sc = .ok ucs ↔ (sc.apiKeyUseCases = [] ∨ sc.NoLoopIDs) ∧
      Unseen .empty .empty sc.apiKeyUseCases ∧
      ucs = sc.apiKeyUseCases.map APIKeyUseCase.resolved := by
  rw [← resolveEntries_ok_iff]
  unfold resolveUseCases
  by_cases hnil : sc.apiKeyUseCases = []
  · rw [if_pos hnil, hnil]
    exact ⟨fun h => ⟨.inl rfl, h⟩, And.right⟩
  · rw [if_neg hnil]
    cases hfind : sc.loops.entries.find? fun e =>
        e.2.enabled ∧ cleanAPIKeyIDs ((e.2.settings.get? "api_key_ids").getD "") ≠ "" with
    | some e =>
      have hsets : e.2.enabled = true ∧
          cleanAPIKeyIDs ((e.2.settings.get? "api_key_ids").getD "") ≠ "" := by
        simpa using List.find?_some hfind
      refine ⟨fun h => (nomatch h), fun h => ?_⟩
      exact absurd (h.1.resolve_left hnil e (List.mem_of_find?_eq_some hfind) hsets.1) hsets.2
    | none =>
      have hnone : sc.NoLoopIDs := by
        intro e he henabled
        have hnot := List.find?_eq_none.mp hfind e he
        simp only [henabled, true_and, decide_eq_true_eq, not_not] at hnot
        exact hnot
      exact ⟨fun h => ⟨.inr hnone, h⟩, And.right⟩

/-- The slug and the ids of an entry, normalised. -/
def APIKeyUseCase.normalised (uc : APIKeyUseCase) : String × List String :=
  ((slugifyUseCase uc.label).toOption.getD "", namedIDs uc.apiKeyIDs)

/-- The slug and the ids of a resolved entry. -/
def ResolvedUseCase.view (uc : ResolvedUseCase) : String × List String :=
  (uc.slug, (uc.apiKeyIDsCSV.toList.splitOn ',').map String.ofList)

/-- Slugs and lists of ids by which no key is counted twice. -/
structure Unambiguous (entries : List (String × List String)) : Prop where
  slugs : (entries.map Prod.fst).Nodup
  form : ∀ e ∈ entries, SlugForm e.1
  nonempty : ∀ e ∈ entries, e.2 ≠ []
  /-- No id is blank or contains a comma. -/
  clean : ∀ e ∈ entries, ∀ id ∈ e.2, trimSpace id ≠ "" ∧ ',' ∉ id.toList
  once : ∀ e ∈ entries, e.2.Nodup
  disjoint : entries.Pairwise fun e e' => e.2.Disjoint e'.2

theorem normalised_eq (uc : APIKeyUseCase) :
    uc.normalised = (slugOf uc.label, namedIDs uc.apiKeyIDs) := by
  unfold APIKeyUseCase.normalised
  rw [slugifyUseCase_eq]
  by_cases hempty : slugOf uc.label = ""
  · rw [if_pos hempty, hempty]
    rfl
  · rw [if_neg hempty]
    rfl

theorem view_resolved {uc : APIKeyUseCase} (h : namedIDs uc.apiKeyIDs ≠ []) :
    uc.resolved.view = uc.normalised := by
  rw [normalised_eq]
  exact Prod.ext rfl (split_join_ids h fun id hid => isID_of_mem_namedIDs hid)

/-- What the loop asks of its entries is that nothing is counted twice. -/
theorem unseen_iff_unambiguous {ucs : List APIKeyUseCase} :
    Unseen .empty .empty ucs ↔ Unambiguous (ucs.map APIKeyUseCase.normalised) := by
  have hfst : (ucs.map APIKeyUseCase.normalised).map Prod.fst =
      ucs.map fun uc => slugOf uc.label := by simp [normalised_eq]
  have hone : ∀ {P : String × List String → Prop}, (∀ e ∈ ucs.map APIKeyUseCase.normalised, P e) ↔
      ∀ uc ∈ ucs, P (slugOf uc.label, namedIDs uc.apiKeyIDs) := by
    simp [normalised_eq]
  have hpair : (ucs.map APIKeyUseCase.normalised).Pairwise (fun e e' => e.2.Disjoint e'.2) ↔
      ucs.Pairwise fun uc uc' => (namedIDs uc.apiKeyIDs).Disjoint (namedIDs uc'.apiKeyIDs) := by
    simp [List.pairwise_map, normalised_eq]
  constructor
  · rintro ⟨hslug, hslugs, hids, -, honce⟩
    obtain ⟨honce, hdisjoint⟩ := List.nodup_flatMap.mp honce
    refine ⟨hfst ▸ hslugs, hone.mpr fun uc huc => slugForm_slugOf (hslug uc huc).1, hone.mpr hids,
      hone.mpr fun uc _ id hid => ?_, hone.mpr honce, hpair.mpr hdisjoint⟩
    have hid := isID_of_mem_namedIDs hid
    exact ⟨by rw [hid.trimmed]; exact hid.nonempty, hid.noComma⟩
  · rintro ⟨hslugs, hform, hids, -, honce, hdisjoint⟩
    refine ⟨fun uc huc => ⟨?_, rfl⟩, hfst ▸ hslugs, hone.mp hids, fun _ _ _ _ => rfl,
      List.nodup_flatMap.mpr ⟨hone.mp honce, hpair.mp hdisjoint⟩⟩
    exact ne_empty_of_slugForm (hone.mp hform uc huc)

/-- **No key is counted twice.**  Whatever is resolved has slugs that differ and lists of ids that
share none, and the ids are those that the entries name; and unless an enabled loop has ids of its
own, entries of which that holds are resolved. -/
theorem use_cases_resolved (sc : SourceConfig) :
    (∀ ucs, resolveUseCases sc = .ok ucs →
      Unambiguous (ucs.map ResolvedUseCase.view) ∧
      (∀ uc ∈ ucs, slugifyUseCase uc.slug = .ok uc.slug) ∧
      ∀ id, (∃ uc ∈ ucs, id ∈ uc.view.2) ↔
        id ≠ "" ∧ ∃ uc ∈ sc.apiKeyUseCases, ∃ s ∈ uc.apiKeyIDs, ∃ part ∈ s.toList.splitOn ',',
          trimSpace (String.ofList part) = id) ∧
    (sc.NoLoopIDs → Unambiguous (sc.apiKeyUseCases.map APIKeyUseCase.normalised) →
      ∃ ucs, resolveUseCases sc = .ok ucs) := by
  constructor
  · intro ucs h
    obtain ⟨-, hunseen, rfl⟩ := resolveUseCases_ok_iff.mp h
    have hview : (sc.apiKeyUseCases.map APIKeyUseCase.resolved).map ResolvedUseCase.view =
        sc.apiKeyUseCases.map APIKeyUseCase.normalised := by
      rw [List.map_map]
      exact List.map_congr_left fun uc huc => view_resolved (hunseen.ids uc huc)
    refine ⟨hview ▸ unseen_iff_unambiguous.mp hunseen, fun uc huc => ?_, fun id => ?_⟩
    · obtain ⟨entry, hentry, rfl⟩ := List.mem_map.mp huc
      exact slugifyUseCase_of_slugForm (slugForm_slugOf (hunseen.slug entry hentry).1)
    · have hids : (∃ uc ∈ sc.apiKeyUseCases.map APIKeyUseCase.resolved, id ∈ uc.view.2) ↔
          ∃ uc ∈ sc.apiKeyUseCases, id ∈ namedIDs uc.apiKeyIDs := by
        constructor
        · rintro ⟨uc, huc, hid⟩
          obtain ⟨entry, hentry, rfl⟩ := List.mem_map.mp huc
          rw [view_resolved (hunseen.ids entry hentry), normalised_eq] at hid
          exact ⟨entry, hentry, hid⟩
        · rintro ⟨entry, hentry, hid⟩
          refine ⟨entry.resolved, List.mem_map_of_mem hentry, ?_⟩
          rw [view_resolved (hunseen.ids entry hentry), normalised_eq]
          exact hid
      rw [hids]
      simp only [namedIDs, List.mem_filter, List.mem_flatMap, List.mem_map, ne_eq, decide_not,
        Bool.not_eq_true', decide_eq_false_iff_not]
      constructor
      · rintro ⟨uc, huc, ⟨s, hs, part, hpart, hid⟩, hne⟩
        exact ⟨hne, uc, huc, s, hs, part, hpart, hid⟩
      · rintro ⟨hne, uc, huc, s, hs, part, hpart, hid⟩
        exact ⟨uc, huc, ⟨s, hs, part, hpart, hid⟩, hne⟩
  · intro hloops hentries
    exact ⟨_, resolveUseCases_ok_iff.mpr
      ⟨.inr hloops, unseen_iff_unambiguous.mpr hentries, rfl⟩⟩

/-- Two use cases as an operator may write them. -/
def untidyUseCases : SourceConfig :=
  { type := "portkey", enabled := true, sourceInstance := "portkey", baseURL := "", authHeader := ""
    authValue := "", allowPrivate := false, rps := 1, burst := 1, loops := .empty
    apiKeyUseCases := [⟨"Data  Gen!", [" k1, k2 ,", ""]⟩, ⟨"--chat--", ["k3"]⟩] }

theorem use_cases_resolved_untidy : ∃ ucs, resolveUseCases untidyUseCases = .ok ucs ∧
    Unambiguous (ucs.map ResolvedUseCase.view) ∧ ∃ uc ∈ ucs, "k2" ∈ uc.view.2 := by
  have hentries : Unambiguous (untidyUseCases.apiKeyUseCases.map APIKeyUseCase.normalised) :=
    unseen_iff_unambiguous.mp ⟨by decide +kernel, by decide +kernel, by decide +kernel,
      fun _ _ _ _ => rfl, by decide +kernel⟩
  obtain ⟨hresolved, haccepted⟩ := use_cases_resolved untidyUseCases
  obtain ⟨ucs, hucs⟩ := haccepted (fun e he => nomatch he) hentries
  obtain ⟨hunambiguous, -, hids⟩ := hresolved ucs hucs
  refine ⟨ucs, hucs, hunambiguous, (hids "k2").mpr ⟨by decide, _, List.mem_cons_self, " k1, k2 ,",
    List.mem_cons_self, " k2 ".toList, by decide, by decide⟩⟩

end GenaiBridge
