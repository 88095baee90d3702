/-
No part of a bucket.

The API counts the records inside the interval it is asked for, so the number of a
bucket that sticks out of the interval is a part of the truth.  The loop does not
put either end of the interval on a minute, and a bucket that sticks out is harmless
only while it is not settled, for then `derive` drops it.
-/
import GenaiBridge.Proofs.DeriveSpec

namespace GenaiBridge

open Lib (SortedMap)

variable {V : Type}

namespace AnalyticsLoop

/-- The bucket of a sample lies inside the interval sent to the API, in whole seconds. -/
def Inside (fetchStart until' : Int) (s : Sample V) : Prop :=
  Time.truncate fetchStart second ≤ s.timestamp - minute ∧
    s.timestamp ≤ Time.truncate until' second

/-- The bucket `until` falls into is not settled, and neither is the one `fetchStart` falls into,
unless that is a bucket's start. -/
def EdgesUnsettled (cutoff fetchStart until' : Int) : Prop :=
  cutoff < Time.truncate until' minute + minute ∧
    (minute ∣ Time.truncate fetchStart second ∨ cutoff < Time.truncate fetchStart minute + minute)

private theorem inside_iff {samples : List (Sample V)} {fetchStart until' : Int} :
    (∀ s ∈ samples, Inside fetchStart until' s) ↔
      ∀ e ∈ ends samples, Time.truncate fetchStart second ≤ e - minute ∧
        e ≤ Time.truncate until' second := by
  constructor
  · rintro h e ⟨s, hs, rfl⟩
    exact h s hs
  · exact fun h s hs => h _ ⟨s, hs, rfl⟩

/-- The buckets a query finds after `fetchStart` lie inside it just if the ones at its edges are
not settled. -/
private theorem bucketEnds_inside_iff {fetchStart until' cutoff : Int} (hle : fetchStart < until') :
    (∀ e ∈ bucketEnds (Time.truncate fetchStart second) (Time.truncate until' second) fetchStart
        cutoff, Time.truncate fetchStart second ≤ e - minute ∧ e ≤ Time.truncate until' second) ↔
      EdgesUnsettled cutoff fetchStart until' := by
  have hmin : ∀ t, Time.truncate t minute = t - t % minute := fun _ => rfl
  have hsec : ∀ t, Time.truncate t second = t - t % second := fun _ => rfl
  unfold EdgesUnsettled
  rw [hmin, hmin, hsec, hsec]
  unfold minute second at *
  constructor
  · intro hall
    refine ⟨?_, ?_⟩
    · -- the bucket `until` falls into sticks out at the end
      by_contra hset
      have he := hall (until' - until' % 60000000000 + 60000000000)
        ⟨⟨by unfold minute; omega, by unfold minute; omega, by omega⟩, by omega, by omega⟩
      omega
    · -- the bucket `fetchStart` falls into sticks out at the start
      by_contra hset
      have he := hall (fetchStart - fetchStart % 60000000000 + 60000000000)
        ⟨⟨by unfold minute; omega, by unfold minute; omega, by omega⟩, by omega, by omega⟩
      omega
  · rintro ⟨hend, hstart⟩ e ⟨⟨hdvd, hmeets, hlo⟩, hsince, hsettled⟩
    unfold minute at *
    omega

/-! ### The calls that compare -/

/-- Every graph of a pass is absent or answered within the quota, and one is answered. -/
def PassAnswered (l : AnalyticsLoop) (env : AnalyticsEnv V) (p : ResolvedUseCase)
    (fetchStart until' : Int) : Prop :=
  (∀ g ∈ l.graphs, env.fetch (query p fetchStart until' g) = .status 404 ∨
    ∃ r, env.fetch (query p fetchStart until' g) = .ok r ∧ r.isQuotaExceeded = false) ∧
  ∃ g ∈ l.graphs, ∃ r, env.fetch (query p fetchStart until' g) = .ok r

/-- No workspace is expected, the scope was verified before, or no row the probe answers names
another workspace. -/
def InScope (l : AnalyticsLoop) (probe : ScopeProbe) (scopeVerified : Bool) : Prop :=
  l.expectedWorkspace = "" ∨ scopeVerified = true ∨
    ∃ workspaces, probe = .rows workspaces ∧ ∀ w ∈ workspaces, w = "" ∨ w = l.expectedWorkspace

/-- The window opens, and its first pass is answered. -/
def WindowAnswered (l : AnalyticsLoop) (env : AnalyticsEnv V) (since : Watermark) : Prop :=
  let start := l.start env.now since
  let until' := l.windowEnd env.now start
  start < until' ∧
    ∀ p ∈ l.passes.head?, l.PassAnswered env p (l.fetchStart env.now start until') until'

/-- The call comes to compare buckets with a history. -/
def Compares (l : AnalyticsLoop) (env : AnalyticsEnv V) (scopeVerified : Bool)
    (since : Watermark) : Prop :=
  l.InScope env.probe scopeVerified ∧ l.WindowAnswered env since

variable {l : AnalyticsLoop}

/-- The scope check passes over rows that name no other workspace. -/
theorem checkWorkspaceScope_ne_mismatch {expected : String} {workspaces : List String} :
    (∀ seen, checkWorkspaceScope expected workspaces ≠ .mismatch seen) ↔
      ∀ w ∈ workspaces, w = "" ∨ w = expected := by
  have hmem : ∀ w, w ∈ ((workspaces.filter (· ≠ "")).dedup).insertionSort (· ≤ ·) ↔
      w ∈ workspaces ∧ w ≠ "" := by
    intro w
    simp [List.mem_insertionSort]
  have hnodup : (((workspaces.filter (· ≠ "")).dedup).insertionSort (· ≤ ·)).Nodup :=
    (List.perm_insertionSort _ _).nodup_iff.mpr (List.nodup_dedup _)
  unfold checkWorkspaceScope
  dsimp only
  generalize ((workspaces.filter (· ≠ "")).dedup).insertionSort (· ≤ ·) = seen at *
  constructor
  · intro h w hw
    by_cases hempty : w = ""
    · exact Or.inl hempty
    · have hseen : w ∈ seen := (hmem w).mpr ⟨hw, hempty⟩
      split_ifs at h with hnil hone
      · rw [hnil] at hseen
        cases hseen
      · rw [hone] at hseen
        exact Or.inr (List.mem_singleton.mp hseen)
      · exact absurd rfl (h seen)
  · intro h found
    have hall : ∀ w ∈ seen, w = expected := fun w hw =>
      ((h w ((hmem w).mp hw).1).resolve_left ((hmem w).mp hw).2)
    rcases seen with _ | ⟨a, _ | ⟨b, rest⟩⟩
    · simp
    · rw [hall a List.mem_cons_self]
      simp
    · refine absurd ?_ (List.nodup_cons.mp hnodup).1
      rw [hall a List.mem_cons_self, hall b (List.mem_cons_of_mem _ List.mem_cons_self)]
      exact List.mem_cons_self

theorem verifyScope_ok_iff {probe : ScopeProbe} :
    (∃ verified, (l.verifyScope probe : List (AnalyticsEvent V) × _).2 = .ok verified) ↔
      ∃ workspaces, probe = .rows workspaces ∧
        ∀ w ∈ workspaces, w = "" ∨ w = l.expectedWorkspace := by
  cases probe with
  | failed err => simp [verifyScope]
  | status code => simp [verifyScope]
  | rows workspaces =>
    have hrows : (∃ rows, ScopeProbe.rows workspaces = .rows rows ∧
        ∀ w ∈ rows, w = "" ∨ w = l.expectedWorkspace) ↔
        ∀ w ∈ workspaces, w = "" ∨ w = l.expectedWorkspace := by simp
    rw [hrows, ← checkWorkspaceScope_ne_mismatch]
    unfold verifyScope
    cases hcheck : checkWorkspaceScope l.expectedWorkspace workspaces <;> simp [hcheck]

/-- The answers are collected just if every graph is absent or answered within the quota. -/
theorem fetchGraphs_ok_iff {env : AnalyticsEnv V} {p : ResolvedUseCase} {fetchStart until' : Int}
    {graphs : List String} {resp : SortedMap String (GraphResponse V)} :
    (∃ resp', (fetchGraphs env p fetchStart until' resp graphs).2 = .ok resp') ↔
      ∀ g ∈ graphs, env.fetch (query p fetchStart until' g) = .status 404 ∨
        ∃ r, env.fetch (query p fetchStart until' g) = .ok r ∧ r.isQuotaExceeded = false := by
  induction graphs generalizing resp with
  | nil => exact iff_of_true ⟨resp, rfl⟩ (by simp)
  | cons g rest ih =>
    rw [List.forall_mem_cons]
    unfold fetchGraphs
    cases hfetch : env.fetch (query p fetchStart until' g) with
    | failed err => simp
    | status code =>
      by_cases hcode : code = 404
      · simp [hcode, ih]
      · simp [hcode]
    | ok r =>
      by_cases hquota : r.isQuotaExceeded = true
      · simp [hquota]
      · simp [hquota, ih]

variable [Div V] [OfNat V 1000]

/-- Answers for an interval of less than an hour pass the guard on the granularity. -/
theorem derive_ok_of_answers {resp : SortedMap String (GraphResponse V)} {lo hi : Int}
    (hspan : hi - lo ≤ hour) (hans : ∀ e ∈ resp.entries, Answers e.2 lo hi) (metricPrefix : String)
    (since now settle : Int) (startSemantics : Bool) :
    ∃ out, derive resp metricPrefix since now settle minute startSemantics = .ok out := by
  refine deriveGraphs_ok_iff.mpr fun e he => ?_
  have htimes : ∀ t ∈ e.2.times, minute ∣ t ∧ t ≤ hi ∧ lo ≤ t + minute := by
    intro t ht
    obtain ⟨dp, hdp, htime⟩ := List.mem_filterMap.mp ht
    exact ((hans e he).bucket t).mp (List.mem_map.mpr ⟨dp, hdp, htime⟩)
  refine (deriveGraph_ok_iff (hans e he).parses fun t ht u hu => ?_).mpr ?_
  · have hlo := (htimes t ht).2.2
    have hhi := (htimes u hu).2.1
    unfold years290
    unfold hour at *
    unfold minute at *
    omega
  · have hdistinct : e.2.times.Nodup := by
      have hread : e.2.times = (e.2.dataPoints.map DataPoint.time).filterMap id := by
        rw [List.filterMap_map]
        rfl
      rw [hread]
      refine (hans e he).once.filterMap fun a b t ha hb => ?_
      exact (Option.mem_def.mp ha).trans (Option.mem_def.mp hb).symm
    refine hdistinct.imp_of_mem fun ht hu hne => ⟨hne, ?_⟩
    exact dvd_sub (htimes _ hu).1 (htimes _ ht).1

variable [BEq V]

/-- A pass shows its history something just if it is answered. -/
theorem observations_collectPass (hl : l.Bounds) {env : AnalyticsEnv V} (start : Int)
    {until' fetchStart lo hi : Int} (hspan : hi - lo ≤ hour) {p : ResolvedUseCase}
    {histories : SortedMap String (RevisionHistory V)} (hhist : (histories.get? p.slug).isSome)
    (hans : ∀ g r, env.fetch (query p fetchStart until' g) = .ok r → Answers r lo hi) :
    let out := l.collectPass env start until' fetchStart histories p
    ((∃ e, out.2.2 = .error e) ∧ observations out.2.1 = [] ∧
        ¬ l.PassAnswered env p fetchStart until') ∨
      (∃ s, out.2.2 = .ok s) ∧ observations out.2.1 ≠ [] ∧
        l.PassAnswered env p fetchStart until' := by
  have hnone : ∀ e ∈ (SortedMap.empty : SortedMap String (GraphResponse V)).entries,
      env.fetch (query p fetchStart until' e.1) = .ok e.2 := by simp [SortedMap.empty]
  obtain ⟨hquiet, hresp⟩ := fetchGraphs_spec env p fetchStart until' l.graphs hnone
  have hok := @fetchGraphs_ok_iff V env p fetchStart until' l.graphs .empty
  have hget := @get?_fetchGraphs V env p fetchStart until' l.graphs .empty
  unfold PassAnswered collectPass
  rw [← hok]
  rcases hgraphs : fetchGraphs env p fetchStart until' .empty l.graphs with ⟨events, r⟩
  rw [hgraphs] at hquiet hresp hget
  cases r with
  | error e => exact Or.inl ⟨⟨e, rfl⟩, hquiet, by simp⟩
  | ok resp =>
    dsimp only at hquiet hresp hget ⊢
    have hentries : resp.entries = [] ↔
        ¬ ∃ g ∈ l.graphs, ∃ r, env.fetch (query p fetchStart until' g) = .ok r := by
      constructor
      · rintro hnil ⟨g, hg, r, hr⟩
        have hsome := hget rfl g
        rw [if_pos hg, hr, Fetched.answer?] at hsome
        have hmem := SortedMap.get?_eq_some.mp (hsome.trans (Option.some_or ..))
        rw [hnil] at hmem
        cases hmem
      · intro hno
        refine List.eq_nil_iff_forall_not_mem.mpr fun e he => hno ?_
        have hsome := hget rfl e.1
        rw [SortedMap.get?_eq_some.mpr he, SortedMap.get?_empty, Option.or_none] at hsome
        split_ifs at hsome with hg
        exact ⟨e.1, hg, e.2, hresp resp rfl e he⟩
    by_cases hempty : resp.entries = []
    · rw [if_pos hempty]
      exact Or.inl ⟨⟨_, rfl⟩, hquiet, fun h => hentries.mp hempty h.2⟩
    · rw [if_neg hempty]
      have hall : ∀ e ∈ resp.entries, Answers e.2 lo hi :=
        fun e he => hans e.1 e.2 (hresp resp rfl e he)
      obtain ⟨samples, hderive⟩ := derive_ok_of_answers hspan hall l.metricPrefix start env.now
        l.settle l.startSemantics
      have hderive' : derive resp l.metricPrefix start env.now l.settle granularity
          l.startSemantics = .ok samples := hderive
      rw [hderive']
      obtain ⟨-, htrack⟩ := detect_spec hl fetchStart until' p.slug histories hderive' hempty hall
      refine Or.inr ⟨⟨_, rfl⟩, ?_, ⟨resp, rfl⟩, not_not.mp fun h => hempty (hentries.mpr h)⟩
      rw [observations_append, hquiet]
      exact htrack hhist

theorem observations_collectPasses (hl : l.Bounds) {env : AnalyticsEnv V} (start : Int)
    {until' fetchStart lo hi : Int} (hspan : hi - lo ≤ hour) {p : ResolvedUseCase}
    (rest : List ResolvedUseCase) {histories : SortedMap String (RevisionHistory V)}
    (hhist : (histories.get? p.slug).isSome)
    (hans : ∀ g r, env.fetch (query p fetchStart until' g) = .ok r → Answers r lo hi) :
    observations (l.collectPasses env start until' fetchStart histories (p :: rest)).2.1 = [] ↔
      ¬ l.PassAnswered env p fetchStart until' := by
  have hpass := observations_collectPass hl start hspan hhist hans
  unfold collectPasses
  rcases hp : l.collectPass env start until' fetchStart histories p with ⟨histories', events, r⟩
  rw [hp] at hpass
  rcases hpass with ⟨⟨e, hr⟩, hobs, hnot⟩ | ⟨⟨s, hr⟩, hobs, hyes⟩
  · obtain rfl : r = _ := hr
    exact iff_of_true hobs hnot
  · obtain rfl : r = _ := hr
    refine iff_of_false ?_ (not_not.mpr hyes)
    dsimp only
    rw [observations_append, List.append_eq_nil_iff]
    exact fun h => hobs h.1

/-- A window shows the histories something just if it opens and its first pass is answered. -/
theorem observations_collectWindow (hl : l.Bounds) (sha256 : String → String)
    {env : AnalyticsEnv V} {st : AnalyticsState V} {since : Watermark}
    (hhist : ∀ p ∈ l.passes, (st.histories.get? p.slug).isSome) (hans : l.Answered env since) :
    observations (l.collectWindow sha256 env st since).events = [] ↔
      ¬ l.WindowAnswered env since := by
  obtain ⟨p, rest, hpasses⟩ := List.exists_cons_of_ne_nil hl.passes_ne_nil
  have hp : p ∈ l.passes := by simp [hpasses]
  have hspan := @until_sub_fetchStart_le l env.now hl (l.start env.now since)
    (l.windowEnd env.now (l.start env.now since))
  have hquery := hans p hp
  unfold collectWindow WindowAnswered
  rw [hpasses]
  dsimp only at hquery ⊢
  generalize l.windowEnd env.now (l.start env.now since) = until' at *
  generalize l.fetchStart env.now (l.start env.now since) until' = fetchStart at *
  split
  · rename_i hempty
    exact iff_of_true rfl fun h => absurd h.1 (not_lt.mpr hempty)
  · rename_i hopens
    have hhour : Time.truncate until' second - Time.truncate fetchStart second ≤ hour := by
      have htrunc : ∀ t, Time.truncate t second = t - t % second := fun _ => rfl
      rw [htrunc, htrunc]
      unfold second hour
      unfold minute at hspan
      omega
    simp only [not_le.mp hopens, List.head?_cons, Option.mem_some_iff, forall_eq', true_and]
    exact observations_collectPasses hl _ hhour rest (hhist p hp) hquery

/-- **A call shows the histories something just if it comes to compare.** -/
theorem observations_collect (hl : l.Bounds) (sha256 : String → String) {env : AnalyticsEnv V}
    {st : AnalyticsState V} {since : Watermark} (hst : Reachable sha256 l st)
    (hans : l.Answered env since) :
    observations (l.collect sha256 env st since).events = [] ↔
      ¬ l.Compares env st.scopeVerified since := by
  have hquiet := @observations_verifyScope V l env.probe
  have hscope := @verifyScope_ok_iff V l env.probe
  have hwindow : ∀ verified, observations
      (l.collectWindow sha256 env { st with scopeVerified := verified } since).events = [] ↔
      ¬ l.WindowAnswered env since := fun _ =>
    observations_collectWindow hl sha256 hst.tracks hans
  unfold collect Compares InScope
  split
  · rename_i hask
    rw [← hscope]
    rcases hverify : (l.verifyScope env.probe : List (AnalyticsEvent V) × _) with ⟨events, r⟩
    rw [hverify] at hquiet
    cases r with
    | error e => simp [hask, hquiet]
    | ok verified =>
      dsimp only at hquiet ⊢
      rw [observations_append, hquiet, List.nil_append, hwindow]
      simp
  · rename_i hknown
    rw [not_and_or, ne_eq, not_not, Bool.not_eq_false] at hknown
    rw [hwindow]
    simp only [← or_assoc, hknown, true_or, true_and]

/-- **No part of a bucket.** What a call emits and what it shows the revision histories are whole
buckets of the interval it asked for, just if it does not come to compare, or the buckets at the
edges of the interval are not settled. -/
theorem collect_whole_buckets (hl : l.Accepted) (sha256 : String → String) {env : AnalyticsEnv V}
    {st : AnalyticsState V} {since : Watermark} (hst : Reachable sha256 l st)
    (hans : l.Answered env since) :
    let start := l.start env.now since
    let until' := l.windowEnd env.now start
    let fetchStart := l.fetchStart env.now start until'
    let c := l.collect sha256 env st since
    ((∀ b, c.result = .ok b → ∀ s ∈ b.samples, Inside fetchStart until' s) ∧
      ∀ settled ∈ observations c.events, ∀ s ∈ settled, Inside fetchStart until' s) ↔
    ¬ l.Compares env st.scopeVerified since ∨
      EdgesUnsettled (env.now - l.settle) fetchStart until' := by
  intro start until' fetchStart c
  have hb := hl.bounds
  rw [← observations_collect hb sha256 hst hans]
  obtain ⟨hobs, hok⟩ := collect_spec hb sha256 st hans
  have huntil : until' = min (env.now - l.settle) (start + l.window) := windowEnd_eq hb start
  have hfetch : fetchStart ≤ start :=
    fetchStart_le_start hb (floor_le_start hb env.now since) (by omega)
  constructor
  · rintro ⟨-, hall⟩
    by_cases hnil : observations c.events = []
    · exact Or.inl hnil
    · obtain ⟨settled, hs⟩ := List.exists_mem_of_ne_nil _ hnil
      obtain ⟨hlt, hends⟩ : start < until' ∧ _ := hobs settled hs
      refine Or.inr ((bucketEnds_inside_iff (by omega)).mp ?_)
      rw [← hends]
      exact inside_iff.mp (hall settled hs)
  · intro hcond
    have hinside : observations c.events ≠ [] → start < until' →
        ∀ e ∈ bucketEnds (Time.truncate fetchStart second) (Time.truncate until' second) fetchStart
          (env.now - l.settle), Time.truncate fetchStart second ≤ e - minute ∧
          e ≤ Time.truncate until' second := fun hne hlt =>
      (bucketEnds_inside_iff (by omega)).mpr (hcond.resolve_left hne)
    refine ⟨fun b hres => ?_, fun settled hs => ?_⟩
    · obtain ⟨hemits, htracked⟩ := hok b hres
      by_cases hlt : start < until'
      · rw [inside_iff, (hemits.moves hlt).1]
        rintro e ⟨hmeets, hsince, hsettled⟩
        -- what is emitted is part of what is observed
        exact hinside (htracked hlt hst.tracks) hlt e ⟨hmeets, by omega, hsettled⟩
      · rw [(hemits.stays (not_lt.mp hlt)).1]
        simp
    · obtain ⟨hlt, hends⟩ := hobs settled hs
      rw [inside_iff, hends]
      exact hinside (List.ne_nil_of_mem hs) hlt

/-- A loop whose watermark is on a minute, asked when that minute's successor has just settled. -/
theorem collect_whole_buckets_aligned :
    let now := midnight + 3 * minute
    let since : Watermark := { time := midnight + minute }
    let c := shortLoop.collect (fun _ => "") (answering now (fiveMinutes (midnight - 2 * minute)))
      shortLoop.init since
    ∀ settled ∈ observations c.events, ∀ s ∈ settled,
      Inside (midnight - minute) (midnight + 2 * minute) s := by
  have hiff := collect_whole_buckets shortLoop_accepted (fun _ => "") Reachable.init
    (answered_answering shortLoop (midnight + 3 * minute) (midnight - 2 * minute)
      { time := midnight + minute } (by decide +kernel))
  exact (hiff.mpr (Or.inr ⟨by decide +kernel, Or.inl (by decide +kernel)⟩)).2

/-- **A minute of which half was asked for.** The window of two minutes is cut at 00:02:30, and the
sample for the minute that ends at 00:03:00 is emitted from an answer for the half before the cut. -/
theorem half_minute_emitted : ∃ (env : AnalyticsEnv Int) (since : Watermark) (b : Batch Int),
    shortLoop.Accepted ∧ Reachable (fun _ => "") shortLoop (shortLoop.init : AnalyticsState Int) ∧
    shortLoop.Answered env since ∧
    (shortLoop.collect (fun _ => "") env shortLoop.init since).result = .ok b ∧
    let start := shortLoop.start env.now since
    let until' := shortLoop.windowEnd env.now start
    until' = midnight + 2 * minute + 30 * second ∧
    ∃ s ∈ b.samples, s.timestamp = midnight + 3 * minute ∧
      ¬ Inside (shortLoop.fetchStart env.now start until') until' s := by
  let env := answering (midnight + 5 * minute + 30 * second) (fiveMinutes (midnight - 2 * minute))
  let since : Watermark := { time := midnight + 30 * second }
  have hans : shortLoop.Answered env since := answered_answering shortLoop _ _ _
    (by decide +kernel)
  have hres : (shortLoop.collect (fun _ => "") env shortLoop.init since).result.map
      (fun b => b.samples.map Sample.timestamp) =
      .ok [midnight + minute, midnight + 2 * minute, midnight + 3 * minute] := by decide +kernel
  obtain ⟨b, hb, htimes⟩ := Lib.map_ok.mp hres
  have hmem : midnight + 3 * minute ∈ b.samples.map Sample.timestamp := by simp [htimes]
  obtain ⟨s, hs, htime⟩ := List.mem_map.mp hmem
  refine ⟨env, since, b, shortLoop_accepted, .init, hans, hb, by decide +kernel, s, hs, htime, ?_⟩
  unfold Inside
  rw [htime]
  decide +kernel

end AnalyticsLoop

end GenaiBridge
