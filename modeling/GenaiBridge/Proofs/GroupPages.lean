/-
The pages of one groups endpoint.

`collectEndpoint` is a `Lib.Drain`: it keeps the rows whose value is new, stops at the cap
on rows, at a short page and at the cap on pages, and gives up on a page it cannot read.
The cap on pages is computed in 64 bits.  Where the sum wraps it is one, and a listing of
more than one page is cut short.
-/
import GenaiBridge.Bridge.Groups
import GenaiBridge.Lib.Fallible
import GenaiBridge.Lib.Paging
import Mathlib.Data.List.Forall2

namespace GenaiBridge

variable {V : Type}

/-! ### Rows -/

/-- The rows of a page are kept as the library keeps them. -/
theorem addRows_eq (maxGroups : Int) : ∀ (page rows : List (GroupRow V)) (dropped : Nat),
    ((addRows maxGroups rows dropped page).1, (addRows maxGroups rows dropped page).2.2) =
      Lib.takeNew GroupRow.dimValue maxGroups.toNat rows page := by
  intro page
  induction page with
  | nil => exact fun _ _ => rfl
  | cons r page ih =>
    intro rows dropped
    unfold addRows Lib.takeNew
    by_cases hseen : r.dimValue ∈ rows.map (·.dimValue)
    · rw [if_pos hseen, if_pos hseen]
      exact ih rows (dropped + 1)
    · rw [if_neg hseen, if_neg hseen]
      by_cases hfull : maxGroups ≤ (rows ++ [r]).length
      · rw [if_pos hfull, if_pos (Int.toNat_le.mpr hfull)]
      · rw [if_neg hfull, if_neg fun h => hfull (Int.toNat_le.mp h)]
        exact ih (rows ++ [r]) dropped

section

variable [OfNat V 0] {parseFloat : List Char → Option V} {dimField : String}

/-- A raw record that is read as this row. -/
def ReadsAs (parseFloat : List Char → Option V) (dimField : String) (raw : RawRecord)
    (row : GroupRow V) : Prop :=
  (raw.get? "requests").bind (unmarshalFloat parseFloat) = some row.requests ∧
  (raw.get? "cost").map (unmarshalFloat parseFloat) = row.cost.map some ∧
  ((raw.get? dimField).bind Lib.Json.readText).elim "" String.ofList = row.dimValue

/-- A page is parsed row by row; the number of the first row only shows in errors. -/
theorem parseGroupRows_ok_iff : ∀ {data : List RawRecord} {rows : List (GroupRow V)} (i : Nat),
    parseGroupRows parseFloat dimField i data = .ok rows ↔
      List.Forall₂ (ReadsAs parseFloat dimField) data rows := by
  intro data
  induction data with
  | nil =>
    intro rows i
    rw [parseGroupRows, List.forall₂_nil_left_iff]
    exact ⟨fun h => (Except.ok.inj h).symm, fun h => by rw [h]⟩
  | cons raw data ih =>
    intro rows i
    -- a row that is read is prepended to the rest
    have hcons : ∀ {first : GroupRow V}, (∀ row, ReadsAs parseFloat dimField raw row ↔
        row = first) →
        ((parseGroupRows parseFloat dimField (i + 1) data).map (first :: ·) = .ok rows ↔
          List.Forall₂ (ReadsAs parseFloat dimField) (raw :: data) rows) := by
      intro first hfirst
      rw [Lib.map_ok, List.forall₂_cons_left_iff]
      constructor
      · rintro ⟨tail, htail, rfl⟩
        exact ⟨first, tail, (hfirst first).mpr rfl, (ih (i + 1)).mp htail, rfl⟩
      · rintro ⟨row, tail, hrow, htail, rfl⟩
        exact ⟨tail, (ih (i + 1)).mpr htail, by rw [(hfirst row).mp hrow]⟩
    have hnone : (∀ row, ¬ReadsAs parseFloat dimField raw row) →
        ¬List.Forall₂ (ReadsAs parseFloat dimField) (raw :: data) rows := by
      intro hno h
      obtain ⟨row, -, hrow, -, -⟩ := List.forall₂_cons_left_iff.mp h
      exact hno row hrow
    unfold parseGroupRows
    cases hrequests : raw.get? "requests" with
    | none =>
      refine iff_of_false (by simp) (hnone fun row h => ?_)
      simp [ReadsAs, hrequests] at h
    | some rq =>
      dsimp only
      cases hnumber : unmarshalFloat parseFloat rq with
      | none =>
        refine iff_of_false (by simp) (hnone fun row h => ?_)
        simp [ReadsAs, hrequests, hnumber] at h
      | some requests =>
        dsimp only
        cases hcost : raw.get? "cost" with
        | none =>
          refine hcons fun row => ?_
          obtain ⟨dimValue, n, cost⟩ := row
          simp only [ReadsAs, hrequests, hnumber, hcost, GroupRow.mk.injEq,
            Option.bind_some, Option.map_none, Option.some.injEq]
          constructor
          · rintro ⟨rfl, hcost', rfl⟩
            exact ⟨rfl, rfl, Option.map_eq_none_iff.mp hcost'.symm⟩
          · rintro ⟨rfl, rfl, rfl⟩
            exact ⟨rfl, rfl, rfl⟩
        | some c =>
          dsimp only
          cases hprice : unmarshalFloat parseFloat c with
          | none =>
            refine iff_of_false (by simp) (hnone fun row h => ?_)
            have hcost' := h.2.1
            rw [hcost, Option.map_some, hprice] at hcost'
            obtain ⟨_, -, habs⟩ := Option.map_eq_some_iff.mp hcost'.symm
            cases habs
          | some price =>
            refine hcons fun row => ?_
            obtain ⟨dimValue, n, cost⟩ := row
            simp only [ReadsAs, hrequests, hnumber, hcost, hprice, GroupRow.mk.injEq,
              Option.bind_some, Option.map_some, Option.some.injEq]
            constructor
            · rintro ⟨rfl, hcost', rfl⟩
              obtain ⟨p, rfl, hp⟩ := Option.map_eq_some_iff.mp hcost'.symm
              exact ⟨rfl, rfl, by rw [Option.some.inj hp]⟩
            · rintro ⟨rfl, rfl, rfl⟩
              exact ⟨rfl, rfl, rfl⟩

/-- A slice of a page is parsed to the slice of its rows. -/
theorem parseGroupRows_slice {data : List RawRecord} {rows : List (GroupRow V)} {i : Nat}
    (h : parseGroupRows parseFloat dimField i data = .ok rows) (offset limit : Nat) :
    parseGroupRows parseFloat dimField 0 ((data.drop offset).take limit) =
      .ok ((rows.drop offset).take limit) := by
  rw [parseGroupRows_ok_iff] at h ⊢
  exact List.forall₂_take limit (List.forall₂_drop offset h)

end

/-! ### The cap on pages -/

namespace GroupsLoop

variable {l : GroupsLoop}

/-- The cap and the size of a page are positive, and fit the machine's `int`. -/
structure Sized (l : GroupsLoop) : Prop where
  page_pos : 0 < l.pageSize
  page_le : l.pageSize ≤ maxInt64
  groups_pos : 0 < l.maxGroups
  groups_le : l.maxGroups ≤ maxInt64

/-- The pages the cap on rows asks for, rounded up. -/
def pagesNeeded (l : GroupsLoop) : Int := max ((l.maxGroups + l.pageSize - 1) / l.pageSize) 1

/-- The sum behind the cap on pages does not wrap. -/
def PagesFit (l : GroupsLoop) : Prop := l.maxGroups + l.pageSize - 1 ≤ maxInt64

theorem maxPages_of_fit (hl : l.Sized) (hfit : l.PagesFit) : (l.maxPages : Int) = l.pagesNeeded := by
  obtain ⟨hp, hp', hg, hg'⟩ := hl
  have hsum : wrap64 (wrap64 (l.maxGroups + l.pageSize) - 1) = l.maxGroups + l.pageSize - 1 := by
    unfold PagesFit maxInt64 at hfit
    unfold maxInt64 at hp' hg'
    unfold wrap64
    omega
  unfold maxPages pagesNeeded
  rw [hsum, Int.tdiv_eq_ediv_of_nonneg (by omega)]
  omega

theorem maxPages_of_wrap (hl : l.Sized) (hwrap : ¬l.PagesFit) : l.maxPages = 1 := by
  obtain ⟨hp, hp', hg, hg'⟩ := hl
  have hsum : wrap64 (wrap64 (l.maxGroups + l.pageSize) - 1) < 0 := by
    unfold PagesFit maxInt64 at hwrap
    unfold maxInt64 at hp' hg'
    unfold wrap64
    omega
  unfold maxPages
  have hneg : (wrap64 (wrap64 (l.maxGroups + l.pageSize) - 1)).tdiv l.pageSize ≤ 0 := by
    have hpos := Int.tdiv_nonneg (neg_nonneg.mpr (le_of_lt hsum)) (le_of_lt hp)
    rw [Int.neg_tdiv] at hpos
    exact neg_nonneg.mp hpos
  rw [max_eq_right (hneg.trans (by decide))]
  rfl

theorem maxPages_pos : 0 < l.maxPages := by
  unfold maxPages
  have := le_max_right ((wrap64 (wrap64 (l.maxGroups + l.pageSize) - 1)).tdiv l.pageSize) 1
  omega

theorem maxPages_le (hl : l.Sized) : (l.maxPages : Int) ≤ l.pagesNeeded := by
  by_cases hfit : l.PagesFit
  · exact le_of_eq (maxPages_of_fit hl hfit)
  · rw [maxPages_of_wrap hl hfit]
    exact le_max_right _ _

/-! ### The loop -/

section

variable [OfNat V 0] (l) (env : GroupsEnv V) (ep : GroupsEndpoint) (from' until' : Int)
  (apiKeyIDs : String)

/-- The rows of a page that is answered with 200, without the quota flag, and can be parsed. -/
def readPage (page : Nat) : Option (List (GroupRow V)) :=
  match env.fetch (l.query ep from' until' page apiKeyIDs) with
  | .failed _ | .status _ => none
  | .ok r =>
    if r.isQuotaExceeded then none
    else (parseGroupRows env.parseFloat ep.dimField 0 r.data).toOption

/-- The loop's own reasons to end: an empty or a short page, and the cap on pages. -/
def lastPage (page : Nat) (rows _ _ : List (GroupRow V)) : Prop :=
  rows.length = 0 ∨ rows.length < l.pageSize ∨ l.maxPages ≤ page + 1

end

section

variable [OfNat V 0] {env : GroupsEnv V} {ep : GroupsEndpoint} {from' until' : Int}
  {apiKeyIDs : String}

/-- One page, if the rest is drained. -/
theorem drain_page (left page : Nat) (rows : List (GroupRow V)) (dropped : Nat)
    (hpage : page + (left + 1) = l.maxPages)
    (hrest : ∀ (rows' : List (GroupRow V)) (dropped' : Nat), 0 < left →
      Lib.Drain GroupRow.dimValue l.maxGroups.toNat (· + 1)
        (l.readPage env ep from' until' apiKeyIDs) l.lastPage (page + 1) rows'
        (l.collectPages env ep from' until' apiKeyIDs left (page + 1) rows' dropped').asked
        (l.collectPages env ep from' until' apiKeyIDs left (page + 1) rows' dropped').rows) :
    Lib.Drain GroupRow.dimValue l.maxGroups.toNat (· + 1)
      (l.readPage env ep from' until' apiKeyIDs) l.lastPage page rows
      (l.collectPages env ep from' until' apiKeyIDs (left + 1) page rows dropped).asked
      (l.collectPages env ep from' until' apiKeyIDs (left + 1) page rows dropped).rows := by
  unfold collectPages
  cases hfetch : env.fetch (l.query ep from' until' page apiKeyIDs) with
  | failed err => exact .failed (by simp [readPage, hfetch])
  | status code =>
    have hfailed : l.readPage env ep from' until' apiKeyIDs page = none := by
      simp [readPage, hfetch]
    dsimp only
    split <;> exact .failed hfailed
  | ok r =>
    dsimp only
    by_cases hquota : r.isQuotaExceeded = true
    · rw [if_pos hquota]
      exact .failed (by simp [readPage, hfetch, hquota])
    · rw [if_neg hquota]
      cases hparse : parseGroupRows env.parseFloat ep.dimField 0 r.data with
      | error e => exact .failed (by simp [readPage, hfetch, hquota, hparse, Except.toOption])
      | ok pageRows =>
        have hread : l.readPage env ep from' until' apiKeyIDs page = some pageRows := by
          simp [readPage, hfetch, hquota, hparse, Except.toOption]
        have hadd := addRows_eq l.maxGroups pageRows rows dropped
        rcases hrows : addRows l.maxGroups rows dropped pageRows with ⟨rows', dropped', full⟩
        rw [hrows] at hadd
        simp only [hrows]
        cases full with
        | true => exact .capped hread hadd.symm
        | false =>
          dsimp only
          by_cases hshort : pageRows.length = 0 ∨ pageRows.length < l.pageSize
          · rw [if_pos hshort]
            exact .last hread hadd.symm (hshort.imp_right Or.inl)
          · rw [if_neg hshort]
            by_cases hleft : 0 < left
            · refine .more hread hadd.symm ?_ (hrest rows' dropped' hleft)
              rintro (hempty | hshort' | hcap)
              · exact hshort (Or.inl hempty)
              · exact hshort (Or.inr hshort')
              · omega
            · -- no page is left: the cap on pages ends the loop
              obtain rfl : left = 0 := by omega
              exact .last hread hadd.symm (Or.inr (Or.inr (by omega)))

/-- **`collectEndpoint` drains the pages.** -/
theorem drain_collectPages : ∀ (left page : Nat) (rows : List (GroupRow V)) (dropped : Nat),
    page + (left + 1) = l.maxPages →
    Lib.Drain GroupRow.dimValue l.maxGroups.toNat (· + 1)
      (l.readPage env ep from' until' apiKeyIDs) l.lastPage page rows
      (l.collectPages env ep from' until' apiKeyIDs (left + 1) page rows dropped).asked
      (l.collectPages env ep from' until' apiKeyIDs (left + 1) page rows dropped).rows := by
  intro left
  induction left with
  | zero =>
    intro page rows dropped hpage
    exact drain_page 0 page rows dropped hpage fun _ _ h => absurd h (lt_irrefl 0)
  | succ left ih =>
    intro page rows dropped hpage
    exact drain_page (left + 1) page rows dropped hpage
      fun rows' dropped' _ => ih (page + 1) rows' dropped' (by omega)

theorem drain_collectEndpoint :
    Lib.Drain GroupRow.dimValue l.maxGroups.toNat (· + 1)
      (l.readPage env ep from' until' apiKeyIDs) l.lastPage 0 []
      (l.collectEndpoint env ep from' until' apiKeyIDs).asked
      (l.collectEndpoint env ep from' until' apiKeyIDs).rows := by
  unfold collectEndpoint
  obtain ⟨left, hleft⟩ := Nat.exists_eq_succ_of_ne_zero (Nat.pos_iff_ne_zero.mp (@maxPages_pos l))
  rw [hleft]
  exact drain_collectPages left 0 [] 0 (by omega)

/-! ### A listing -/

variable (l env ep from' until' apiKeyIDs) in
/-- The server lists these rows, in fixed order, by page number and page size. -/
def Lists (rows : List (GroupRow V)) : Prop :=
  ∃ data, parseGroupRows env.parseFloat ep.dimField 0 data = .ok rows ∧
    ∀ page : Nat, env.fetch (l.query ep from' until' page apiKeyIDs) =
      .ok ⟨false, (data.drop (page * l.pageSize.toNat)).take l.pageSize.toNat⟩

theorem readPage_of_lists {rows : List (GroupRow V)}
    (h : l.Lists env ep from' until' apiKeyIDs rows) (page : Nat) :
    l.readPage env ep from' until' apiKeyIDs page =
      some ((rows.drop (page * l.pageSize.toNat)).take l.pageSize.toNat) := by
  obtain ⟨data, hparse, hfetch⟩ := h
  simp [readPage, hfetch, parseGroupRows_slice hparse, Except.toOption]

/-- If the sum behind the cap on pages does not wrap, that cap never ends a listing early. -/
theorem collectEndpoint_of_fit (hl : l.Sized) (hfit : l.PagesFit) {rows : List (GroupRow V)}
    (hnodup : (rows.map GroupRow.dimValue).Nodup)
    (h : l.Lists env ep from' until' apiKeyIDs rows) :
    (l.collectEndpoint env ep from' until' apiKeyIDs).rows = some (rows.take l.maxGroups.toNat) := by
  have hpos := hl.page_pos
  have hgroups := hl.groups_pos
  refine Lib.Drain.complete l.pageSize.toNat (fun page offset => offset = page * l.pageSize.toNat)
    ?_ hnodup ?_ ?_ drain_collectEndpoint (Nat.zero_mul _).symm rfl (by simpa using hgroups)
  · rintro page offset rfl
    exact (Nat.succ_mul _ _).symm
  · rintro page offset rfl
    exact readPage_of_lists h page
  rintro page offset rfl hlt hlast
  have hshort : (((rows.drop (page * l.pageSize.toNat)).take l.pageSize.toNat).length : Int) <
      l.pageSize → rows.length ≤ page * l.pageSize.toNat + l.pageSize.toNat := by
    rw [List.length_take, List.length_drop]
    omega
  rcases hlast with hempty | hshort' | hcap
  · exact hshort (by rw [hempty]; exact hpos)
  · exact hshort hshort'
  · -- the pages read so far hold as many rows as the cap allows
    have hpages : (l.maxGroups + l.pageSize - 1) / l.pageSize ≤ page + 1 := by
      have hneeded := maxPages_of_fit hl hfit
      have hle := le_max_left ((l.maxGroups + l.pageSize - 1) / l.pageSize) 1
      unfold pagesNeeded at hneeded
      omega
    have henough : l.maxGroups ≤ (page + 1) * l.pageSize := by
      have hround := Int.lt_ediv_add_one_mul_self (l.maxGroups + l.pageSize - 1) hpos
      have hmul := Int.mul_le_mul_of_nonneg_right (Int.add_le_add_right hpages 1) (le_of_lt hpos)
      rw [add_mul, one_mul] at hmul hround
      rw [add_mul (page + 1 : Int), one_mul] at hmul
      omega
    have hcast : ((page * l.pageSize.toNat + l.pageSize.toNat : Nat) : Int) =
        (page + 1) * l.pageSize := by
      push_cast
      rw [Int.toNat_of_nonneg (le_of_lt hpos), add_mul, one_mul]
    rw [List.length_take] at hlt
    omega

theorem collectEndpoint_of_wrap (hl : l.Sized) (hwrap : ¬l.PagesFit) {rows : List (GroupRow V)}
    (hnodup : (rows.map GroupRow.dimValue).Nodup)
    (h : l.Lists env ep from' until' apiKeyIDs rows) :
    (l.collectEndpoint env ep from' until' apiKeyIDs).rows =
      some (rows.take (min l.maxGroups.toNat l.pageSize.toNat)) := by
  have hlast : ∀ page rows acc acc', l.lastPage page rows acc (acc' : List (GroupRow V)) := by
    intro page rows acc acc'
    refine Or.inr (Or.inr ?_)
    rw [maxPages_of_wrap hl hwrap]
    omega
  have hgroups := hl.groups_pos
  have hfirst : (Lib.takeNew GroupRow.dimValue l.maxGroups.toNat []
      ((rows.drop 0).take l.pageSize.toNat)).1 =
      rows.take (min l.maxGroups.toNat l.pageSize.toNat) := by
    have hslice := @Lib.takeNew_slice _ _ _ GroupRow.dimValue l.maxGroups.toNat rows hnodup 0
      l.pageSize.toNat (by simpa using hgroups)
    rw [List.take_zero, Nat.zero_add] at hslice
    rw [hslice]
    by_cases hfull : l.maxGroups.toNat ≤ (rows.take l.pageSize.toNat).length
    · rw [if_pos hfull, Nat.min_eq_left (hfull.trans (List.length_take_le _ _))]
    · rw [if_neg hfull]
      by_cases hle : l.maxGroups.toNat ≤ l.pageSize.toNat
      · -- fewer rows than the cap: both are the whole list
        rw [List.length_take] at hfull
        rw [Nat.min_eq_left hle, List.take_of_length_le (by omega),
          List.take_of_length_le (by omega)]
      · rw [Nat.min_eq_right (le_of_lt (not_le.mp hle))]
  have hread := readPage_of_lists h 0
  rw [Nat.zero_mul] at hread
  have hdrain := @drain_collectEndpoint V l _ env ep from' until' apiKeyIDs
  generalize (l.collectEndpoint env ep from' until' apiKeyIDs).rows = result at hdrain ⊢
  generalize (l.collectEndpoint env ep from' until' apiKeyIDs).asked = asked at hdrain
  cases hdrain with
  | failed h =>
    rw [hread] at h
    cases h
  | more _ _ hgo => exact absurd (hlast _ _ _ _) hgo
  | capped h hadd =>
    obtain rfl := Option.some.inj (hread.symm.trans h)
    rw [hadd] at hfirst
    rw [← hfirst]
  | last h hadd =>
    obtain rfl := Option.some.inj (hread.symm.trans h)
    rw [hadd] at hfirst
    rw [← hfirst]

/-- **Group pages are bounded, all or nothing, and complete if the cap on pages is right.**  No
server makes `collectEndpoint` ask for more pages than its rows need, or return more rows than the
cap or two of one value, and a page it cannot read leaves it with nothing.  A listing of different
values is read up to the cap just if the sum behind the cap on pages does not wrap, or one page is
enough anyway. -/
theorem group_pages_complete_iff (l : GroupsLoop) (hl : l.Sized) (env : GroupsEnv V)
    (ep : GroupsEndpoint) (from' until' : Int) (apiKeyIDs : String) :
    let asked := (l.collectEndpoint env ep from' until' apiKeyIDs).asked
    let result := (l.collectEndpoint env ep from' until' apiKeyIDs).rows
    (asked.length : Int) ≤ l.pagesNeeded ∧
    (∀ rows, result = some rows →
      (rows.length : Int) ≤ l.maxGroups ∧ (rows.map GroupRow.dimValue).Nodup) ∧
    (∀ page ∈ asked, l.readPage env ep from' until' apiKeyIDs page = none → result = none) ∧
    ∀ rows, (rows.map GroupRow.dimValue).Nodup → l.Lists env ep from' until' apiKeyIDs rows →
      (result = some (rows.take l.maxGroups.toNat) ↔
        l.PagesFit ∨ l.maxGroups ≤ l.pageSize ∨ rows.length ≤ l.pageSize) := by
  intro asked result
  have hdrain := @drain_collectEndpoint V l _ env ep from' until' apiKeyIDs
  have hgroups := hl.groups_pos
  have hpage := hl.page_pos
  have hroom : ([] : List (GroupRow V)).length < l.maxGroups.toNat := by simpa using hgroups
  refine ⟨?_, fun rows hrows => ?_, fun page hmem => hdrain.all_or_nothing hmem,
    fun rows hnodup hlists => ?_⟩
  · -- every page but the last is followed by one within the cap on pages
    have hasked := hdrain.asked_le (fun page _ => l.maxPages - 1 - page)
      (fun page rows acc acc' _ _ hgo _ _ => by
        have hmore : ¬l.maxPages ≤ page + 1 := fun h => hgo (Or.inr (Or.inr h))
        omega) hroom List.nodup_nil
    have hle := maxPages_le hl
    have hpos := @maxPages_pos l
    change asked.length ≤ l.maxPages - 1 - 0 + 1 at hasked
    omega
  · obtain ⟨hkeys, hle⟩ := hdrain.kept hroom List.nodup_nil hrows
    exact ⟨by omega, hkeys⟩
  · by_cases hfit : l.PagesFit
    · exact iff_of_true (collectEndpoint_of_fit hl hfit hnodup hlists) (Or.inl hfit)
    · have hresult : result = _ := collectEndpoint_of_wrap hl hfit hnodup hlists
      rw [hresult, Option.some.injEq]
      constructor
      · intro heq
        rw [List.take_eq_take_iff] at heq
        omega
      · intro hone
        have hone' := hone.resolve_left hfit
        rw [List.take_eq_take_iff]
        omega

end

/-! ### Three models -/

/-- A raw record of one model. -/
def modelRecord (model : List Char) : RawRecord :=
  Lib.SortedMap.insert (.insert .empty "ai_model" (.str model)) "requests" (.num ['1'])

/-- A server that lists three models. -/
def threeModels : GroupsEnv Int :=
  { now := 0
    fetch := fun q => .ok ⟨false, (([['a'], ['b'], ['c']].map modelRecord).drop
      (q.currentPage * q.pageSize.toNat)).take q.pageSize.toNat⟩
    probe := .rows []
    parseFloat := fun _ => some 1 }

/-- The groups of models, two on a page. -/
def pairsOf (maxGroups : Int) : GroupsLoop :=
  { metricPrefix := "portkey_api", sourceInstance := "portkey", cadence := 5 * minute
    windowSpan := hour, settle := 10 * minute, pageSize := 2, maxGroups, metadataKeys := []
    emitCost := true, emitPrompts := false, expectedWorkspace := "", passes := [⟨"", ""⟩] }

def modelsEndpoint : GroupsEndpoint :=
  { urlPath := "ai-models", label := "ai-models", dim := "model", dimField := "ai_model"
    valueLabelKey := "ai_model", emitCost := true }

theorem threeModels_lists (maxGroups : Int) :
    (pairsOf maxGroups).Lists threeModels modelsEndpoint 0 0 ""
      [⟨"a", 1, none⟩, ⟨"b", 1, none⟩, ⟨"c", 1, none⟩] :=
  ⟨[['a'], ['b'], ['c']].map modelRecord, by rfl, fun _ => rfl⟩

/-- With the default cap all three are read, from two pages. -/
theorem group_pages_complete_three :
    ((pairsOf 10000).collectEndpoint threeModels modelsEndpoint 0 0 "").rows =
      some [⟨"a", 1, none⟩, ⟨"b", 1, none⟩, ⟨"c", 1, none⟩] :=
  ((group_pages_complete_iff (pairsOf 10000) ⟨by decide, by decide, by decide, by decide⟩ threeModels
    modelsEndpoint 0 0 "").2.2.2 _ (by decide) (threeModels_lists 10000)).mpr
      (Or.inl (show (10000 : Int) + 2 - 1 ≤ maxInt64 by decide))

/-- **The third model is lost.**  A cap of `math.MaxInt64` rows allows one page, because the sum it
is computed from wraps: the server lists three models, and two are returned as the whole. -/
theorem listing_cut_at_max_int :
    (pairsOf maxInt64).Sized ∧
    (pairsOf maxInt64).Lists threeModels modelsEndpoint 0 0 ""
      [⟨"a", 1, none⟩, ⟨"b", 1, none⟩, ⟨"c", 1, none⟩] ∧
    ((pairsOf maxInt64).collectEndpoint threeModels modelsEndpoint 0 0 "").rows =
      some [⟨"a", 1, none⟩, ⟨"b", 1, none⟩] := by
  have hsized : (pairsOf maxInt64).Sized := ⟨by decide, by decide, by decide, le_refl _⟩
  refine ⟨hsized, threeModels_lists maxInt64, ?_⟩
  have hwrap : ¬(pairsOf maxInt64).PagesFit := by
    show ¬maxInt64 + 2 - 1 ≤ maxInt64
    omega
  exact collectEndpoint_of_wrap hsized hwrap (by decide) (threeModels_lists maxInt64)

end GroupsLoop

end GenaiBridge
