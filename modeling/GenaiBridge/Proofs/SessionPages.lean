/-
The three pagers of LangSmith sessions.

The sessions loop, the usage loop and the discovery of the runs loop read the same listing
by offset and limit.  Each is a `Lib.Drain` that ends at the cap, at a short page, and at a
page that brings nothing new; the last of these is what bounds a server that ignores the
offset.
-/
import GenaiBridge.Bridge.Runs
import GenaiBridge.Bridge.Sessions
import GenaiBridge.Lib.Paging

namespace GenaiBridge

variable {S : Type}

/-! ### Draining the sessions -/

/-- The page, if it is one. -/
def SessionsFetched.page? : SessionsFetched S → Option (List S)
  | .failed _ | .status _ => none
  | .page sessions => some sessions

/-- The loop's own reasons to end: a short page, and one that brings nothing new. -/
def lastSessions (limit : Int) {ι T : Type} (_ : ι) (page : List T) (before after : List S) : Prop :=
  page.length < limit ∨ after.length = before.length

theorem addNew_eq (id : S → String) (maxSessions : Int) : ∀ page sessions : List S,
    addNew id maxSessions sessions page = Lib.takeNew id maxSessions.toNat sessions page := by
  intro page
  induction page with
  | nil => exact fun _ => rfl
  | cons s page ih =>
    intro sessions
    unfold addNew Lib.takeNew
    by_cases hseen : id s ∈ sessions.map id
    · rw [if_pos hseen, if_pos hseen]
      exact ih sessions
    · rw [if_neg hseen, if_neg hseen]
      by_cases hfull : maxSessions ≤ (sessions ++ [s]).length
      · rw [if_pos hfull, if_pos (Int.toNat_le.mpr hfull)]
      · rw [if_neg hfull, if_neg fun h => hfull (Int.toNat_le.mp h)]
        exact ih (sessions ++ [s])

/-- **The sessions are drained.** -/
theorem drain_drainSessions (id : S → String) (pageLimit maxSessions : Int)
    (fetch : Int → SessionsFetched S) (offset : Int) (sessions : List S) :
    Lib.Drain id maxSessions.toNat (· + pageLimit) (fun o => (fetch o).page?)
      (lastSessions pageLimit) offset sessions
      (drainSessions id pageLimit maxSessions fetch offset sessions).asked
      (drainSessions id pageLimit maxSessions fetch offset sessions).result.toOption := by
  fun_induction drainSessions id pageLimit maxSessions fetch offset sessions with
  | case1 offset sessions err hfetch => exact .failed (by rw [hfetch]; rfl)
  | case2 offset sessions hfetch => exact .failed (by rw [hfetch]; rfl)
  | case3 offset sessions code hfetch _ => exact .failed (by rw [hfetch]; rfl)
  | case4 offset sessions page hfetch sessions' hadd =>
    rw [addNew_eq] at hadd
    exact .capped (by rw [hfetch]; rfl) hadd
  | case5 offset sessions page hfetch sessions' hadd hlast =>
    rw [addNew_eq] at hadd
    exact .last (by rw [hfetch]; rfl) hadd hlast
  | case6 offset sessions page hfetch sessions' hadd hgo ih =>
    rw [addNew_eq] at hadd
    exact .more (by rw [hfetch]; rfl) hadd hgo ih

/-! ### Discovering the sessions of the runs loop -/

/-- The ids of a page that is answered with 200 and can be decoded. -/
def RunsLoop.idsAt (l : RunsLoop) (env : RunsEnv) (offset : Nat) : Option (List String) :=
  match env.listSessions l.sessionFilter offset with
  | .error _ => none
  | .ok page => if page.status = 200 then some page.ids else none

/-- The offset a call asks for. -/
def RunsCall.offset? : RunsCall → Option Nat
  | .listSessions offset _ => some offset
  | _ => none

theorem addSessions_eq (maxSessions : Int) : ∀ page ids : List String,
    addSessions maxSessions ids page =
      Lib.takeNew id maxSessions.toNat ids (page.filter (· ≠ "")) := by
  intro page
  induction page with
  | nil => exact fun _ => rfl
  | cons s page ih =>
    intro ids
    unfold addSessions
    by_cases hempty : s = ""
    · rw [if_pos (Or.inl hempty), ih, List.filter_cons_of_neg (by simp [hempty])]
    · rw [List.filter_cons_of_pos (by simp [hempty])]
      unfold Lib.takeNew
      rw [List.map_id, id_eq]
      by_cases hseen : s ∈ ids
      · rw [if_pos (Or.inr hseen), if_pos hseen]
        exact ih ids
      · rw [if_neg (not_or.mpr ⟨hempty, hseen⟩), if_neg hseen]
        by_cases hfull : maxSessions ≤ (ids ++ [s]).length
        · rw [if_pos hfull, if_pos (Int.toNat_le.mpr hfull)]
        · rw [if_neg hfull, if_neg fun h => hfull (Int.toNat_le.mp h)]
          exact ih (ids ++ [s])

namespace RunsLoop

variable (l : RunsLoop) (env : RunsEnv)

/-- The ids of a page that are not empty. -/
def idsKept (offset : Nat) : Option (List String) :=
  (l.idsAt env offset).map fun page => page.filter (· ≠ "")

/-- The reasons of `lastSessions`; the length of a page is counted with the empty ids. -/
def lastDiscovered (offset : Nat) (_ before after : List String) : Prop :=
  ∃ page, l.idsAt env offset = some page ∧ lastSessions pageLimit offset page before after

/-- **The discovery drains the sessions.** -/
theorem drain_listSessionIDs (offset : Nat) (ids : List String) :
    Lib.Drain id l.maxSessions.toNat (· + pageLimit) (l.idsKept env) (l.lastDiscovered env) offset
      ids ((l.listSessionIDs env offset ids).2.filterMap RunsCall.offset?)
      (l.listSessionIDs env offset ids).1.toOption := by
  have hread : ∀ {o : Nat} {page : SessionsPage},
      env.listSessions l.sessionFilter o = .ok page → ¬page.status ≠ 200 →
      l.idsAt env o = some page.ids := by
    intro o page hanswer hstatus
    unfold idsAt
    rw [hanswer]
    exact if_pos (not_not.mp hstatus)
  have hfailed : ∀ {o : Nat} {page : SessionsPage},
      env.listSessions l.sessionFilter o = .ok page → page.status ≠ 200 →
      l.idsKept env o = none := by
    intro o page hanswer hstatus
    unfold idsKept idsAt
    rw [hanswer]
    simp [hstatus]
  fun_induction listSessionIDs l env offset ids with
  | case1 offset ids answer call err hanswer =>
    refine .failed ?_
    unfold idsKept idsAt
    rw [show env.listSessions l.sessionFilter offset = _ from hanswer]
    rfl
  | case2 offset ids answer call page hanswer hquota =>
    exact .failed (hfailed hanswer (by omega))
  | case3 offset ids answer call page hanswer _ hstatus => exact .failed (hfailed hanswer hstatus)
  | case4 offset ids answer call page hanswer _ hstatus ids' hadd =>
    rw [addSessions_eq] at hadd
    exact .capped (by rw [idsKept, hread hanswer hstatus]; rfl) hadd
  | case5 offset ids answer call page hanswer _ hstatus ids' hadd hlast =>
    rw [addSessions_eq] at hadd
    exact .last (by rw [idsKept, hread hanswer hstatus]; rfl) hadd
      ⟨page.ids, hread hanswer hstatus, hlast.imp_left Int.ofNat_lt.mpr⟩
  | case6 offset ids answer call page hanswer _ hstatus ids' hadd hgo rest ih =>
    rw [addSessions_eq] at hadd
    refine .more (by rw [idsKept, hread hanswer hstatus]; rfl) hadd ?_ ih
    rintro ⟨ids'', hids, hlast⟩
    obtain rfl := Option.some.inj ((hread hanswer hstatus).symm.trans hids)
    exact hgo (hlast.imp_left Int.ofNat_lt.mp)

end RunsLoop

/-! ### What a pager owes -/

/-- A pager that asks a server for pages of one size: it asks no more often than the cap says, keeps
different ids and no more than the cap, returns nothing if a page fails, and reads a listing by
offset and limit up to the cap. -/
structure PagesThrough {S ι : Type} (id : S → String) (limit : Nat) (cap : Int) (at' : Nat → ι)
    (fetch : ι → Option (List S)) (asked : List ι) (result : Option (List S)) : Prop where
  requests : (asked.length : Int) ≤ cap
  kept : ∀ sessions, result = some sessions →
    (sessions.map id).Nodup ∧ (sessions.length : Int) ≤ cap
  all_or_nothing : ∀ i ∈ asked, fetch i = none → result = none
  complete : ∀ xs : List S, (xs.map id).Nodup → (∀ x ∈ xs, id x ≠ "") →
    (∀ offset : Nat, fetch (at' offset) = some ((xs.drop offset).take limit)) →
    result = some (xs.take cap.toNat)

theorem length_le_of_last {S ι : Type} {xs : List S} {limit offset : Nat} {i : ι}
    (hlimit : 0 < limit)
    (h : lastSessions limit i ((xs.drop offset).take limit) (xs.take offset)
      (xs.take (offset + limit))) : xs.length ≤ offset + limit := by
  unfold lastSessions at h
  rw [List.length_take, List.length_drop, List.length_take, List.length_take] at h
  omega

theorem pagesThrough_drainSessions (id : S → String) {pageLimit maxSessions : Int}
    (hlimit : 0 < pageLimit) (hcap : 0 < maxSessions) (fetch : Int → SessionsFetched S) :
    PagesThrough id pageLimit.toNat maxSessions (fun offset : Nat => (offset : Int))
      (fun o => (fetch o).page?) (drainSessions id pageLimit maxSessions fetch 0 []).asked
      (drainSessions id pageLimit maxSessions fetch 0 []).result.toOption := by
  have hdrain := drain_drainSessions id pageLimit maxSessions fetch 0 []
  have hroom : ([] : List S).length < maxSessions.toNat := by simpa using hcap
  constructor
  · have hle := hdrain.asked_le_cap hroom fun _ _ _ _ _ hgo heq => hgo (Or.inr heq)
    omega
  · intro sessions h
    obtain ⟨hkeys, hle⟩ := hdrain.kept hroom List.nodup_nil h
    exact ⟨hkeys, by omega⟩
  · exact fun i hi => hdrain.all_or_nothing hi
  · intro xs hnodup _ hserves
    refine hdrain.complete pageLimit.toNat (fun (o : Int) (offset : Nat) => o = offset) ?_ hnodup
      ?_ ?_ (show (0 : Int) = (0 : Nat) from rfl) rfl hroom
    · rintro o offset rfl
      push_cast
      rw [Int.toNat_of_nonneg (le_of_lt hlimit)]
    · rintro o offset rfl
      exact hserves offset
    · rintro o offset rfl _ hlast
      refine @length_le_of_last S Int xs pageLimit.toNat offset offset (by omega) ?_
      rwa [Int.toNat_of_nonneg (le_of_lt hlimit)]

theorem pagesThrough_listSessionIDs (l : RunsLoop) (hcap : 0 < l.maxSessions) (env : RunsEnv) :
    PagesThrough id RunsLoop.pageLimit l.maxSessions id (l.idsAt env)
      ((l.listSessionIDs env 0 []).2.filterMap RunsCall.offset?)
      (l.listSessionIDs env 0 []).1.toOption := by
  have hdrain := l.drain_listSessionIDs env 0 []
  have hroom : ([] : List String).length < l.maxSessions.toNat := by simpa using hcap
  constructor
  · have hle := hdrain.asked_le_cap hroom fun o page before after hread hgo heq => by
      obtain ⟨all, hall, -⟩ := Option.map_eq_some_iff.mp hread
      exact hgo ⟨all, hall, Or.inr heq⟩
    omega
  · intro sessions h
    obtain ⟨hkeys, hle⟩ := hdrain.kept hroom List.nodup_nil h
    exact ⟨hkeys, by omega⟩
  · intro i hi hfail
    exact hdrain.all_or_nothing hi (by rw [RunsLoop.idsKept, hfail]; rfl)
  · intro xs hnodup hne hserves
    have hkept : ∀ offset : Nat, l.idsKept env offset =
        some ((xs.drop offset).take RunsLoop.pageLimit) := by
      intro offset
      rw [RunsLoop.idsKept, show l.idsAt env offset = _ from hserves offset, Option.map_some,
        List.filter_eq_self.mpr]
      intro x hx
      simpa using hne x (List.mem_of_mem_drop (List.mem_of_mem_take hx))
    refine hdrain.complete RunsLoop.pageLimit (fun o offset => o = offset) ?_ hnodup ?_ ?_ rfl rfl
      hroom
    · rintro o offset rfl
      rfl
    · rintro o offset rfl
      exact hkept o
    · rintro o offset rfl _ ⟨page, hpage, hlast⟩
      obtain rfl := Option.some.inj ((hserves o).symm.trans hpage)
      exact length_le_of_last (by decide) hlast

theorem exists_error_of_toOption {ε α : Type} {x : Except ε α} (h : x.toOption = none) :
    ∃ e, x = .error e := by
  cases x with
  | error e => exact ⟨e, rfl⟩
  | ok a => cases h

/-- **Every pager of the sessions ends and is complete.**  Whatever the server answers, the sessions
loop, the usage loop and the discovery of the runs loop ask no more often than their cap says and
keep different ids, as many as the cap at most; a page that fails fails the whole call.  A listing
of different ids that are not empty is read up to the cap. -/
theorem session_pages_complete {V : Type} [IntCast V] (s : SessionsLoop) (u : UsageLoop)
    (r : RunsLoop) (hs : 0 < s.cfg.snapshot.pageLimit ∧ 0 < s.cfg.snapshot.maxSessions)
    (hu : 0 < u.cfg.snapshot.pageLimit ∧ 0 < u.cfg.snapshot.maxSessions)
    (hr : 0 < r.maxSessions) :
    (∀ env : SessionsLoop.Env V,
      let limit := s.cfg.snapshot.pageLimit
      let cap := s.cfg.snapshot.maxSessions
      let fetch := env.fetch ∘ s.cfg.snapshot.query env.now s.cfg.useApproxStats
      let drained := drainSessions TracerSession.id limit cap fetch 0 []
      PagesThrough TracerSession.id limit.toNat cap (fun offset : Nat => (offset : Int))
        (fun o => (fetch o).page?) drained.asked drained.result.toOption ∧
      ∀ sha256 since, ∀ o ∈ drained.asked, (fetch o).page? = none →
        ∃ err, (s.collect sha256 env since).2 = .error err) ∧
    (∀ env : UsageLoop.Env,
      let limit := u.cfg.snapshot.pageLimit
      let cap := u.cfg.snapshot.maxSessions
      let fetch := env.fetch ∘ u.cfg.snapshot.query env.now false
      let drained := drainSessions UsageSession.id limit cap fetch 0 []
      PagesThrough UsageSession.id limit.toNat cap (fun offset : Nat => (offset : Int))
        (fun o => (fetch o).page?) drained.asked drained.result.toOption ∧
      ∀ sha256 since, ∀ o ∈ drained.asked, (fetch o).page? = none →
        ∃ err, (u.collect (V := V) sha256 env since).2 = .error err) ∧
    ∀ env : RunsEnv,
      PagesThrough id RunsLoop.pageLimit r.maxSessions id (r.idsAt env)
        ((r.listSessionIDs env 0 []).2.filterMap RunsCall.offset?)
        (r.listSessionIDs env 0 []).1.toOption := by
  refine ⟨fun env => ?_, fun env => ?_, fun env => pagesThrough_listSessionIDs r hr env⟩
  · intro limit cap fetch drained
    have hpages := pagesThrough_drainSessions TracerSession.id hs.1 hs.2 fetch
    refine ⟨hpages, fun sha256 since o ho hfail => ?_⟩
    obtain ⟨err, herr⟩ := exists_error_of_toOption (hpages.all_or_nothing o ho hfail)
    refine ⟨err, ?_⟩
    show drained.result.map _ = _
    rw [herr]
    rfl
  · intro limit cap fetch drained
    have hpages := pagesThrough_drainSessions UsageSession.id hu.1 hu.2 fetch
    refine ⟨hpages, fun sha256 since o ho hfail => ?_⟩
    obtain ⟨err, herr⟩ := exists_error_of_toOption (hpages.all_or_nothing o ho hfail)
    refine ⟨err, ?_⟩
    have herr : (drainSessions UsageSession.id u.cfg.snapshot.pageLimit u.cfg.snapshot.maxSessions
      (env.fetch ∘ u.cfg.snapshot.query env.now false) 0 []).result = .error err := herr
    unfold UsageLoop.collect
    simp only [herr]

/-- Four sessions, two on a page, of which three are taken. -/
def fourSessions : UsageLoop.Env :=
  { now := 0
    fetch := fun q => .page ((["a", "b", "c", "d"].map fun id =>
      (⟨id, "", none, ""⟩ : UsageSession)).drop q.offset.toNat |>.take q.limit.toNat)
    spans := fun _ _ => .count none }

def threeOfSessions : SnapshotConfig :=
  { metricPrefix := "langsmith", cadence := 10 * minute, statsWindow := 10 * minute
    pageLimit := 2, maxSessions := 3 }

def anyRuns : RunsLoop :=
  { sourceInstance := "langsmith", sessionIDs := [], sessionFilter := "", maxSessions := 1000
    selectFields := [], window := hour, settle := 10 * minute, maxBackfill := 24 * hour
    pageSize := 100, maxPagesPerWindow := 100, sessionRefresh := 5 * minute, rootOnly := false
    runType := "", policy := runsFieldPolicy defaultRunsSettings }

theorem session_pages_complete_three :
    (drainSessions UsageSession.id 2 3 (fourSessions.fetch ∘ threeOfSessions.query 0 false) 0
      []).result.toOption =
      some [⟨"a", "", none, ""⟩, ⟨"b", "", none, ""⟩, ⟨"c", "", none, ""⟩] :=
  ((session_pages_complete (V := Int) ⟨"langsmith", { snapshot := threeOfSessions }⟩
    ⟨"langsmith", { snapshot := threeOfSessions }⟩ anyRuns (by decide) (by decide) (by decide)).2.1
    fourSessions).1.complete (["a", "b", "c", "d"].map fun id => ⟨id, "", none, ""⟩) (by decide)
      (by decide) fun _ => rfl

end GenaiBridge
