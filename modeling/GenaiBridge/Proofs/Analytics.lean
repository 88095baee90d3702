/-
The windows of the analytics loop.

What a call emits, and what it shows the revision history, are two sets of bucket
ends that the window's bounds determine; `collect_spec` says which.  The rest is
arithmetic on minutes.  The loop cuts a backlog into windows that do not end on a
minute, while `derive` keeps everything that is settled, so the minute a cut falls
into is emitted by the call before the cut, from an answer for a part of it, and
again by the call after.  `WholeMinutes` is the condition under which no window is
cut inside a settled minute.
-/
import GenaiBridge.Bridge.Analytics
import GenaiBridge.Lib.Intervals
import GenaiBridge.Proofs.Derive

namespace GenaiBridge

open Lib (SortedMap)

variable {V : Type}

namespace AnalyticsLoop

/-! ### The bounds of a window -/

/-- A loop that `newAnalyticsLoop` builds from a configuration `Validate` accepts. -/
def Accepted (l : AnalyticsLoop) : Prop :=
  ∃ overflow sourceInstance lp ucs, LoopConfig.enabled lp = true ∧ lp.validate overflow = [] ∧
    newAnalyticsLoop sourceInstance lp ucs = .ok l

/-- What is known of an accepted loop. -/
structure Bounds (l : AnalyticsLoop) : Prop where
  window_pos : 0 < l.window
  window_le : l.window ≤ maxWindow
  settle_nonneg : 0 ≤ l.settle
  settle_lt_bootstrap : l.settle < l.bootstrap
  settle_lt_maxBackfill : l.settle < l.maxBackfill
  bootstrap_le : l.bootstrap ≤ l.maxBackfill
  band_pos : minute ≤ l.band
  startSemantics : l.startSemantics = true
  passes_ne_nil : l.passes ≠ []

theorem Accepted.bounds {l : AnalyticsLoop} (h : l.Accepted) : l.Bounds := by
  obtain ⟨overflow, inst, lp, ucs, hen, hvalid, hnew⟩ := h
  unfold newAnalyticsLoop at hnew
  cases hfind : (lp.graphs.insertionSort (· ≤ ·)).find? fun g => (metricSuffix g).isNone with
  | some g =>
    simp only [hfind] at hnew
    split_ifs at hnew
  | none =>
    simp only [hfind] at hnew
    split_ifs at hnew with hgraphs hwin hboot hback hucs
    all_goals
      obtain rfl := Except.ok.inj hnew
      obtain ⟨-, hwide, hsettle, hlookback⟩ := LoopConfig.validate_eq_nil hvalid hen (by omega)
      have hband : minute ≤ detectionBand lp.bucketSettle := by
        unfold detectionBand
        dsimp only
        split <;> omega
      exact ⟨not_le.mp hwin, hwide, hsettle, not_le.mp hboot, not_le.mp hback,
        hlookback (by omega), hband, rfl, by simp [*]⟩

variable {l : AnalyticsLoop} {now : Int} {since : Watermark}

theorem Bounds.addNeg_settle (hl : l.Bounds) (t : Int) : Time.addNeg t l.settle = t - l.settle :=
  Time.addNeg_of_nonneg hl.settle_nonneg t

theorem Bounds.addNeg_bootstrap (hl : l.Bounds) (t : Int) :
    Time.addNeg t l.bootstrap = t - l.bootstrap :=
  Time.addNeg_of_nonneg (hl.settle_nonneg.trans hl.settle_lt_bootstrap.le) t

theorem Bounds.addNeg_maxBackfill (hl : l.Bounds) (t : Int) :
    Time.addNeg t l.maxBackfill = t - l.maxBackfill :=
  Time.addNeg_of_nonneg (hl.settle_nonneg.trans hl.settle_lt_maxBackfill.le) t

theorem Bounds.addNeg_band (hl : l.Bounds) (t : Int) : Time.addNeg t l.band = t - l.band :=
  Time.addNeg_of_nonneg (le_trans (by decide) hl.band_pos) t

theorem start_eq (hl : l.Bounds) (now : Int) (since : Watermark) :
    l.start now since = max (if since.time = 0 then now - l.bootstrap else since.time)
      (now - l.maxBackfill) := by
  unfold start
  simp only [hl.addNeg_bootstrap, hl.addNeg_maxBackfill, Time.isZero, beq_iff_eq]
  split <;> omega

theorem floor_le_start (hl : l.Bounds) (now : Int) (since : Watermark) :
    now - l.maxBackfill ≤ l.start now since := by
  rw [start_eq hl]
  exact le_max_right _ _

theorem since_le_start (h : since.time ≠ 0) : since.time ≤ l.start now since := by
  unfold start
  simp only [Time.isZero, beq_iff_eq, h, if_false]
  split <;> omega

theorem windowEnd_eq (hl : l.Bounds) (start : Int) :
    l.windowEnd now start = min (now - l.settle) (start + l.window) := by
  have hwide := hl.window_le
  have hpos := hl.window_pos
  unfold windowEnd
  rw [hl.addNeg_settle]
  unfold Time.sub minInt64 maxInt64
  unfold maxWindow at hwide
  unfold minute at *
  dsimp only
  split_ifs <;> omega

theorem fetchStart_le_start (hl : l.Bounds) {start until' : Int} (hfloor : now - l.maxBackfill ≤ start)
    (huntil : until' ≤ start + l.window) : l.fetchStart now start until' ≤ start := by
  have hwide := hl.window_le
  have hband := hl.band_pos
  unfold fetchStart
  rw [hl.addNeg_band, hl.addNeg_maxBackfill]
  unfold maxWindow at hwide
  unfold minute at *
  dsimp only
  split_ifs <;> omega

theorem until_sub_fetchStart_le (hl : l.Bounds) (start until' : Int) :
    until' - l.fetchStart now start until' ≤ 55 * minute := by
  have hband := hl.band_pos
  unfold fetchStart
  rw [hl.addNeg_band]
  unfold minute at *
  dsimp only
  split_ifs <;> omega

/-- A loop that stays where it is stands at its start. -/
theorem start_eq_of_empty (hl : l.Bounds)
    (h : l.windowEnd now (l.start now since) ≤ l.start now since) :
    l.start now since = since.time := by
  have hpos := hl.window_pos
  have hboot := hl.settle_lt_bootstrap
  have hback := hl.settle_lt_maxBackfill
  have hle := hl.bootstrap_le
  rw [windowEnd_eq hl, start_eq hl] at h
  rw [start_eq hl]
  split_ifs at h ⊢ <;> omega

/-! ### What one call does -/

/-- What a call shows the histories. -/
def observations (events : List (AnalyticsEvent V)) : List (List (Sample V)) :=
  events.filterMap fun
    | .observed _ samples => some samples
    | _ => none

theorem observations_append (a b : List (AnalyticsEvent V)) :
    observations (a ++ b) = observations a ++ observations b :=
  List.filterMap_append

/-- Every graph a call queries is answered for the whole seconds of the query. -/
def Answered (l : AnalyticsLoop) (env : AnalyticsEnv V) (since : Watermark) : Prop :=
  let start := l.start env.now since
  let until' := l.windowEnd env.now start
  let fetchStart := l.fetchStart env.now start until'
  ∀ p ∈ l.passes, ∀ g r, env.fetch (query p fetchStart until' g) = .ok r →
    Answers r (Time.truncate fetchStart second) (Time.truncate until' second)

theorem observations_verifyScope (l : AnalyticsLoop) (probe : ScopeProbe) :
    observations (l.verifyScope probe : List (AnalyticsEvent V) × _).1 = [] := by
  unfold verifyScope
  split
  · rfl
  · dsimp only
    split <;> rfl
  · split <;> rfl

/-- The loop over the graphs shows the histories nothing, and collects answers only. -/
theorem fetchGraphs_spec (env : AnalyticsEnv V) (p : ResolvedUseCase)
    (fetchStart until' : Int) (graphs : List String) {resp : SortedMap String (GraphResponse V)}
    (hresp : ∀ e ∈ resp.entries, env.fetch (query p fetchStart until' e.1) = .ok e.2) :
    let out := fetchGraphs env p fetchStart until' resp graphs
    observations out.1 = [] ∧ ∀ resp', out.2 = .ok resp' →
      ∀ e ∈ resp'.entries, env.fetch (query p fetchStart until' e.1) = .ok e.2 := by
  induction graphs generalizing resp with
  | nil =>
    refine ⟨rfl, fun resp' h => ?_⟩
    obtain rfl := Except.ok.inj h
    exact hresp
  | cons g rest ih =>
    unfold fetchGraphs
    split
    · exact ⟨rfl, by simp⟩
    · split
      · exact ih hresp
      · dsimp only
        split <;> exact ⟨rfl, by simp⟩
    · rename_i r hr
      split
      · exact ⟨rfl, by simp⟩
      · refine ih fun e he => ?_
        rcases SortedMap.mem_insertEntry he with rfl | he
        · exact hr
        · exact hresp e he

omit V in
private theorem isSome_get?_insert {α : Type} (m : SortedMap String α) {k : String} (j : String) (v : α)
    (h : (m.get? j).isSome) : ((m.insert k v).get? j).isSome := by
  by_cases hj : j = k
  · rw [hj, SortedMap.get?_insert_self]
    rfl
  · rwa [SortedMap.get?_insert_of_ne m v hj]

private theorem ends_stampUseCase (slug : String) (samples : List (Sample V)) :
    ends (stampUseCase slug samples) = ends samples := by
  unfold stampUseCase
  split
  · rfl
  · ext e
    simp [ends]

variable [Div V] [OfNat V 1000] [BEq V]

/-! ### The histories of the passes are kept -/

private theorem isSome_get?_detect (l : AnalyticsLoop) (now fetchStart until' : Int) (slug : String)
    (resp : SortedMap String (GraphResponse V)) (histories : SortedMap String (RevisionHistory V))
    (j : String) (h : (histories.get? j).isSome) :
    ((l.detect now fetchStart until' slug resp histories).1.get? j).isSome := by
  unfold detect
  split
  · exact h
  · split
    · exact h
    · exact isSome_get?_insert _ j _ h

private theorem isSome_get?_collectPass (l : AnalyticsLoop) (env : AnalyticsEnv V)
    (start until' fetchStart : Int) (histories : SortedMap String (RevisionHistory V))
    (p : ResolvedUseCase) (j : String) (h : (histories.get? j).isSome) :
    ((l.collectPass env start until' fetchStart histories p).1.get? j).isSome := by
  unfold collectPass
  split
  · exact h
  · split
    · exact h
    · split
      · exact h
      · exact isSome_get?_detect _ _ _ _ _ _ _ j h

private theorem isSome_get?_collectPasses (l : AnalyticsLoop) (env : AnalyticsEnv V)
    (start until' fetchStart : Int) (histories : SortedMap String (RevisionHistory V))
    (passes : List ResolvedUseCase) (j : String) (h : (histories.get? j).isSome) :
    ((l.collectPasses env start until' fetchStart histories passes).1.get? j).isSome := by
  induction passes generalizing histories with
  | nil => exact h
  | cons p rest ih =>
    have hpass := isSome_get?_collectPass l env start until' fetchStart histories p j h
    unfold collectPasses
    rcases hp : l.collectPass env start until' fetchStart histories p with ⟨histories', events, r⟩
    rw [hp] at hpass
    cases r with
    | error e => exact hpass
    | ok out => exact ih histories' hpass

/-- A call either stops at the scope of the key, or handles one window. -/
theorem collect_cases (sha256 : String → String) (l : AnalyticsLoop) (env : AnalyticsEnv V)
    (st : AnalyticsState V) (since : Watermark) :
    let c := l.collect sha256 env st since
    (c.state = st ∧ observations c.events = [] ∧ ∃ e, c.result = .error e) ∨
    ∃ verified, let w := l.collectWindow sha256 env { st with scopeVerified := verified } since
      c.state = w.state ∧ observations c.events = observations w.events ∧ c.result = w.result := by
  have hquiet := observations_verifyScope (V := V) l env.probe
  unfold collect
  split
  · rcases hscope : (l.verifyScope env.probe : List (AnalyticsEvent V) × _) with ⟨events, r⟩
    rw [hscope] at hquiet
    cases r with
    | error e => exact Or.inl ⟨rfl, hquiet, e, rfl⟩
    | ok verified =>
      refine Or.inr ⟨verified, rfl, ?_, rfl⟩
      rw [observations_append, hquiet, List.nil_append]
  · exact Or.inr ⟨st.scopeVerified, rfl, rfl, rfl⟩

/-- The states the loop can be in: the first one, and what calls make of it. -/
inductive Reachable (sha256 : String → String) (l : AnalyticsLoop) : AnalyticsState V → Prop
  | init : Reachable sha256 l l.init
  | collect {st : AnalyticsState V} (env : AnalyticsEnv V) (since : Watermark) :
      Reachable sha256 l st → Reachable sha256 l (l.collect sha256 env st since).state

omit [Div V] [OfNat V 1000] [BEq V] in
private theorem isSome_get?_foldl (band : Int) (passes : List ResolvedUseCase) {j : String} :
    ∀ m : SortedMap String (RevisionHistory V),
      ((m.get? j).isSome ∨ ∃ p ∈ passes, p.slug = j) →
      ((passes.foldl (fun m p => m.insert p.slug (.new band)) m).get? j).isSome := by
  induction passes with
  | nil => simp
  | cons p rest ih =>
    intro m h
    refine ih _ ?_
    rcases h with h | ⟨q, hq, rfl⟩
    · exact Or.inl (isSome_get?_insert m j _ h)
    · rcases List.mem_cons.mp hq with rfl | hq
      · exact Or.inl (by rw [SortedMap.get?_insert_self]; rfl)
      · exact Or.inr ⟨q, hq, rfl⟩

theorem Reachable.tracks {sha256 : String → String} {st : AnalyticsState V}
    (h : Reachable sha256 l st) : ∀ p ∈ l.passes, (st.histories.get? p.slug).isSome := by
  induction h with
  | init => exact fun p hp => isSome_get?_foldl _ _ _ (Or.inr ⟨p, hp, rfl⟩)
  | @collect st env since _ ih =>
    intro p hp
    rcases collect_cases sha256 l env st since with ⟨hstate, -⟩ | ⟨verified, hstate, -⟩
    · rw [hstate]
      exact ih p hp
    · rw [hstate]
      unfold collectWindow
      dsimp only
      split
      · exact ih p hp
      · exact isSome_get?_collectPasses l env _ _ _ _ _ _ (ih p hp)

/-! ### What a call emits and observes -/

/-- What `detect` does after a successful `derive`. -/
theorem detect_spec (hl : l.Bounds) (fetchStart until' : Int) (slug : String)
    (histories : SortedMap String (RevisionHistory V)) {resp : SortedMap String (GraphResponse V)}
    {since' lo hi : Int} {out : List (Sample V)}
    (hok : derive resp l.metricPrefix since' now l.settle granularity l.startSemantics = .ok out)
    (hne : resp.entries ≠ []) (hans : ∀ e ∈ resp.entries, Answers e.2 lo hi) :
    let d := l.detect now fetchStart until' slug resp histories
    (∀ settled ∈ observations d.2, ends settled = bucketEnds lo hi fetchStart (now - l.settle)) ∧
    ((histories.get? slug).isSome → observations d.2 ≠ []) := by
  obtain ⟨settled, hsettled⟩ := derive_ok_of_ok hok fetchStart
  unfold detect
  cases hget : histories.get? slug with
  | none => exact ⟨by simp [observations], by simp⟩
  | some h =>
    simp only [hsettled]
    have hmap : ∀ revised : List Int, observations (.observed slug settled ::
        revised.map fun bend => AnalyticsEvent.bucketRevised (Time.sub now bend)) = [settled] := by
      intro revised
      simp [observations, List.filterMap_map]
    refine ⟨?_, fun _ => by simp [hmap]⟩
    rw [hmap]
    intro s hs
    obtain rfl := List.mem_singleton.mp hs
    rw [hl.startSemantics] at hsettled
    rw [ends_derive hsettled hne hans, hl.addNeg_settle]

/-- What a pass, or the passes of a call, showed the histories and returned. -/
structure PassSpec (lo hi start fetchStart cutoff : Int) (passes : List ResolvedUseCase)
    (histories : SortedMap String (RevisionHistory V)) (events : List (AnalyticsEvent V))
    (result : Except CollectError (List (Sample V))) : Prop where
  observed : ∀ settled ∈ observations events, ends settled = bucketEnds lo hi fetchStart cutoff
  returned : ∀ out, result = .ok out →
    ends out = {e | passes ≠ [] ∧ e ∈ bucketEnds lo hi start cutoff}
  tracked : ∀ out, result = .ok out → ∀ p ∈ passes, (histories.get? p.slug).isSome →
    observations events ≠ []

omit [Div V] [OfNat V 1000] [BEq V] in
private theorem PassSpec.append {lo hi start fetchStart cutoff : Int}
    {passes passes' : List ResolvedUseCase}
    {histories histories' : SortedMap String (RevisionHistory V)}
    {events events' : List (AnalyticsEvent V)} {out : List (Sample V)}
    {result : Except CollectError (List (Sample V))}
    (h : PassSpec lo hi start fetchStart cutoff passes histories events (.ok out))
    (hkept : ∀ j, (histories.get? j).isSome → (histories'.get? j).isSome)
    (h' : PassSpec lo hi start fetchStart cutoff passes' histories' events' result) :
    PassSpec lo hi start fetchStart cutoff (passes ++ passes') histories
      (events ++ events') (result.map (out ++ ·)) := by
  have hresult : ∀ all, result.map (out ++ ·) = .ok all →
      ∃ out', result = .ok out' ∧ all = out ++ out' := by
    intro all hall
    obtain ⟨out', hout', rfl⟩ := Lib.map_ok.mp hall
    exact ⟨out', hout', rfl⟩
  refine ⟨?_, ?_, ?_⟩
  · intro settled hs
    rw [observations_append, List.mem_append] at hs
    exact hs.elim (h.observed settled) (h'.observed settled)
  · intro all hall
    obtain ⟨out', hout', rfl⟩ := hresult all hall
    rw [ends_append, h.returned out rfl, h'.returned out' hout']
    ext e
    simp only [Set.mem_union, Set.mem_ofPred_eq, ne_eq, List.append_eq_nil_iff]
    tauto
  · intro all hall p hp hsome
    obtain ⟨out', hout', -⟩ := hresult all hall
    rw [observations_append, ne_eq, List.append_eq_nil_iff]
    rintro ⟨hnil, hnil'⟩
    rcases List.mem_append.mp hp with hp | hp
    · exact h.tracked out rfl p hp hsome hnil
    · exact h'.tracked out' hout' p hp (hkept _ hsome) hnil'

private theorem collectPass_spec (hl : l.Bounds) {env : AnalyticsEnv V} (start : Int)
    {until' fetchStart lo hi : Int} {p : ResolvedUseCase}
    (histories : SortedMap String (RevisionHistory V))
    (hans : ∀ g r, env.fetch (query p fetchStart until' g) = .ok r → Answers r lo hi) :
    let out := l.collectPass env start until' fetchStart histories p
    PassSpec lo hi start fetchStart (env.now - l.settle) [p] histories out.2.1 out.2.2 := by
  have hnone : ∀ e ∈ (SortedMap.empty : SortedMap String (GraphResponse V)).entries,
      env.fetch (query p fetchStart until' e.1) = .ok e.2 := by simp [SortedMap.empty]
  have hfetch := fetchGraphs_spec env p fetchStart until' l.graphs hnone
  unfold collectPass
  rcases hgraphs : fetchGraphs env p fetchStart until' .empty l.graphs with ⟨events, r⟩
  rw [hgraphs] at hfetch
  obtain ⟨hquiet, hresp⟩ := hfetch
  have failed : ∀ e, PassSpec lo hi start fetchStart (env.now - l.settle) [p] histories
      events (.error e) := fun e => ⟨by simp [hquiet], by simp, by simp⟩
  cases r with
  | error e => exact failed e
  | ok resp =>
    dsimp only
    split
    · exact failed _
    · rename_i hne
      split
      · exact failed _
      · rename_i samples hok
        have hall : ∀ e ∈ resp.entries, Answers e.2 lo hi :=
          fun e he => hans e.1 e.2 (hresp resp rfl e he)
        obtain ⟨hobs, htrack⟩ := detect_spec hl fetchStart until' p.slug histories hok hne hall
        have happ : ∀ raised : List (AnalyticsEvent V),
            observations (events ++ raised) = observations raised := fun raised => by
          rw [observations_append, hquiet, List.nil_append]
        refine ⟨?_, ?_, ?_⟩
        · rw [happ]
          exact hobs
        · intro out hout
          obtain rfl := Except.ok.inj hout
          rw [hl.startSemantics] at hok
          simp [ends_stampUseCase, ends_derive hok hne hall, hl.addNeg_settle]
        · intro out _ q hq hsome
          obtain rfl := List.mem_singleton.mp hq
          rw [happ]
          exact htrack hsome

private theorem collectPasses_spec (hl : l.Bounds) {env : AnalyticsEnv V} (start : Int)
    {until' fetchStart lo hi : Int} {passes : List ResolvedUseCase}
    (histories : SortedMap String (RevisionHistory V))
    (hans : ∀ p ∈ passes, ∀ g r, env.fetch (query p fetchStart until' g) = .ok r →
      Answers r lo hi) :
    let out := l.collectPasses env start until' fetchStart histories passes
    PassSpec lo hi start fetchStart (env.now - l.settle) passes histories out.2.1 out.2.2 := by
  induction passes generalizing histories with
  | nil =>
    refine ⟨by simp [collectPasses, observations], fun out hout => ?_, by simp⟩
    obtain rfl := Except.ok.inj hout
    simp [ends]
  | cons p rest ih =>
    have hpass := collectPass_spec hl start histories (hans p List.mem_cons_self)
    have hkept := isSome_get?_collectPass l env start until' fetchStart histories p
    unfold collectPasses
    rcases hp : l.collectPass env start until' fetchStart histories p with ⟨histories', events, r⟩
    rw [hp] at hpass hkept
    cases r with
    | error e => exact ⟨hpass.observed, by simp, by simp⟩
    | ok out =>
      exact hpass.append hkept (ih histories' fun q hq => hans q (List.mem_cons_of_mem _ hq))

/-- What a successful call emitted: nothing if the window is empty, else the bucket ends of the
window, moving the watermark to its end. -/
structure Emits (l : AnalyticsLoop) (now : Int) (since : Watermark) (b : Batch V) : Prop where
  stays : l.windowEnd now (l.start now since) ≤ l.start now since →
    b.samples = [] ∧ b.watermark.time = since.time
  moves : l.start now since < l.windowEnd now (l.start now since) →
    let start := l.start now since
    let until' := l.windowEnd now start
    let lo := Time.truncate (l.fetchStart now start until') second
    ends b.samples = bucketEnds lo (Time.truncate until' second) start (now - l.settle) ∧
      b.watermark.time = until'

/-- **What a call emits and observes**, when every graph is answered for what was asked. -/
theorem collect_spec (hl : l.Bounds) (sha256 : String → String) {env : AnalyticsEnv V}
    (st : AnalyticsState V) {since : Watermark} (hans : l.Answered env since) :
    let start := l.start env.now since
    let until' := l.windowEnd env.now start
    let fetchStart := l.fetchStart env.now start until'
    let lo := Time.truncate fetchStart second
    let hi := Time.truncate until' second
    let c := l.collect sha256 env st since
    (∀ settled ∈ observations c.events, start < until' ∧
      ends settled = bucketEnds lo hi fetchStart (env.now - l.settle)) ∧
    ∀ b, c.result = .ok b → l.Emits env.now since b ∧
      (start < until' → (∀ p ∈ l.passes, (st.histories.get? p.slug).isSome) →
        observations c.events ≠ []) := by
  dsimp only
  rcases collect_cases sha256 l env st since with ⟨-, hobs, e, hres⟩ | ⟨verified, -, hobs, hres⟩
  · rw [hobs, hres]
    exact ⟨by simp, by simp⟩
  · rw [hobs, hres]
    unfold collectWindow
    dsimp only
    split
    · rename_i hempty
      refine ⟨by simp [observations], fun b hb => ?_⟩
      obtain rfl := Except.ok.inj hb
      exact ⟨⟨fun _ => ⟨rfl, rfl⟩, fun h => absurd h (not_lt.mpr hempty)⟩,
        fun h => absurd h (not_lt.mpr hempty)⟩
    · rename_i hlt
      have hspec := collectPasses_spec hl (l.start env.now since) st.histories hans
      refine ⟨fun settled hs => ⟨not_le.mp hlt, hspec.observed settled hs⟩, fun b hb => ?_⟩
      rcases hpasses : l.collectPasses env _ _ _ st.histories l.passes with ⟨histories, events, r⟩
      rw [hpasses] at hspec hb
      cases r with
      | error e => simp [Except.map] at hb
      | ok all =>
        obtain rfl := Except.ok.inj hb
        refine ⟨⟨fun h => absurd h hlt, fun _ => ⟨?_, rfl⟩⟩, fun _ htracks => ?_⟩
        · rw [hspec.returned all rfl]
          simp [hl.passes_ne_nil]
        · obtain ⟨p, hp⟩ := List.exists_mem_of_ne_nil _ hl.passes_ne_nil
          exact hspec.tracked all rfl p hp (htracks p hp)

/-! ### A loop with a short window -/

/-- A configuration with a window of two minutes. -/
def shortWindows : LoopConfig :=
  { enabled := true, cadence := 10 * second, window := 2 * minute, bucketSettle := minute
    bootstrapLookback := 5 * minute, maxBackfill := 10 * minute, graphs := ["requests"]
    metricPrefix := "", settings := .empty }

/-- The loop built from it. -/
def shortLoop : AnalyticsLoop :=
  { sourceInstance := "portkey", metricPrefix := "portkey_api", graphs := ["requests"]
    window := 2 * minute, settle := minute, bootstrap := 5 * minute, maxBackfill := 10 * minute
    cadence := 10 * second, startSemantics := true, expectedWorkspace := ""
    passes := [⟨"", ""⟩], band := 2 * minute }

theorem shortLoop_accepted : shortLoop.Accepted :=
  ⟨0, "portkey", shortWindows, [], rfl, by decide +kernel, rfl⟩

/-- 2026-06-01T00:00:00Z. -/
def midnight : Int := 63915868800 * second

/-- Five minutes from `first` on. -/
def fiveMinutes (first : Int) : List Int :=
  [first, first + minute, first + 2 * minute, first + 3 * minute, first + 4 * minute]

/-- The answer with one data point for each of the minutes. -/
def answerFor (minutes : List Int) : GraphResponse Int :=
  { dataPoints := minutes.map fun t =>
      ⟨String.ofList (Lib.Rfc3339.formatSec t), 1, 0, 0, 0, 0, 0, 0⟩
    isQuotaExceeded := false }

/-- The API that gives this answer. -/
def answering (now : Int) (minutes : List Int) : AnalyticsEnv Int :=
  { now, fetch := fun _ => .ok (answerFor minutes), probe := .rows [] }

/-- The answer is the right one to a query that meets just these five minutes. -/
theorem answered_answering (l : AnalyticsLoop) (now first : Int) (since : Watermark)
    (h : (answerFor (fiveMinutes first)).dataPoints.map DataPoint.time =
        (fiveMinutes first).map some ∧
      minute ∣ first ∧
      let start := l.start now since
      let until' := l.windowEnd now start
      let lo := Time.truncate (l.fetchStart now start until') second
      let hi := Time.truncate until' second
      first < lo ∧ lo ≤ first + minute ∧ first + 4 * minute ≤ hi ∧ hi < first + 5 * minute) :
    l.Answered (answering now (fiveMinutes first)) since := by
  obtain ⟨hparse, hdvd, h1, h2, h3, h4⟩ := h
  rintro p - g r hr
  obtain rfl : answerFor (fiveMinutes first) = r := by simpa [answering] using hr
  refine ⟨fun dp hdp => ?_, ?_, fun b => ?_⟩
  · have htime : dp.time ∈ _ := List.mem_map_of_mem hdp
    rw [hparse] at htime
    obtain ⟨t, -, ht⟩ := List.mem_map.mp htime
    rw [← ht]
    rfl
  · rw [hparse]
    simp [fiveMinutes, minute]
  · rw [hparse]
    simp only [fiveMinutes, List.map_cons, List.map_nil, List.mem_cons, Option.some.injEq,
      List.not_mem_nil, or_false]
    unfold minute at *
    dsimp only [answering]
    omega

end AnalyticsLoop

end GenaiBridge
