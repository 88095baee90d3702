/-
The window of one call of the analytics loop.

A call is given a clock and a watermark.  Either everything settled is behind the
watermark, and the call returns it unchanged without a query, or it queries an interval
whose seven bounds are the fields of `Interval`, and moves the watermark to the
interval's end.  Repeated calls then reach what is settled, and no call moves a watermark
back, whatever the clock does.

A watermark at the zero time is one that was never saved, and the loop bootstraps from the
clock instead.  So a clock that reads less than the bootstrap lookback after the zero time
makes the window start before the watermark: all of this is for clocks that do not.
-/
import GenaiBridge.Proofs.Analytics

namespace GenaiBridge

variable {V : Type}

namespace AnalyticsLoop

variable {l : AnalyticsLoop} {now : Int} {since : Watermark}

/-! ### The interval -/

/-- The bounds of the interval a call queries. -/
structure Interval (l : AnalyticsLoop) (now : Int) (since : Watermark)
    (fetchStart start until' : Int) : Prop where
  /-- The query starts early, for the detection band. -/
  fetch : fetchStart ≤ start
  opens : start < until'
  settled : until' ≤ now - l.settle
  /-- Nothing before the watermark is emitted, and nothing older than the backfill. -/
  since : since.time ≤ start
  floor : now - l.maxBackfill ≤ start
  window : until' - start ≤ l.window
  /-- Over an hour the API would answer in larger buckets. -/
  span : until' - fetchStart ≤ 55 * minute

/-- The clock is late enough to bootstrap from it. -/
def Bootstraps (l : AnalyticsLoop) (now : Int) (since : Watermark) : Prop :=
  since.time = 0 → l.bootstrap ≤ now

theorem since_le_start_of_bootstraps (hl : l.Bounds) (hclock : l.Bootstraps now since) :
    since.time ≤ l.start now since := by
  by_cases hzero : since.time = 0
  · have hnow := hclock hzero
    have hback := hl.bootstrap_le
    rw [start_eq hl, if_pos hzero]
    omega
  · exact since_le_start hzero

theorem interval_of_opens (hl : l.Bounds) (hclock : l.Bootstraps now since)
    (hopens : l.start now since < l.windowEnd now (l.start now since)) :
    let start := l.start now since
    let until' := l.windowEnd now start
    l.Interval now since (l.fetchStart now start until') start until' := by
  have huntil : l.windowEnd now (l.start now since) =
      min (now - l.settle) (l.start now since + l.window) := windowEnd_eq hl _
  have hwindow : l.windowEnd now (l.start now since) ≤ l.start now since + l.window := by omega
  exact {
    fetch := fetchStart_le_start hl (floor_le_start hl now since) hwindow
    opens := hopens
    settled := by omega
    since := since_le_start_of_bootstraps hl hclock
    floor := floor_le_start hl now since
    window := by omega
    span := until_sub_fetchStart_le hl _ _ }

/-- A window that does not open has everything settled behind it. -/
theorem settled_of_empty (hl : l.Bounds)
    (hempty : l.windowEnd now (l.start now since) ≤ l.start now since) :
    now - l.settle ≤ since.time := by
  have hstart := start_eq_of_empty hl hempty
  have hpos := hl.window_pos
  rw [windowEnd_eq hl] at hempty
  omega

/-! ### The queries -/

variable [Div V] [OfNat V 1000] [BEq V] {sha256 : String → String}

/-- A call sees of the API only the answers to the queries of one interval. -/
def QueriesOnly (sha256 : String → String) (l : AnalyticsLoop) (V : Type) [Div V] [OfNat V 1000]
    [BEq V] (now : Int) (since : Watermark) (fetchStart until' : Int) : Prop :=
  ∀ (env env' : AnalyticsEnv V) (st : AnalyticsState V), env.now = now → env'.now = now →
    (∀ p ∈ l.passes, ∀ g ∈ l.graphs, env.fetch (query p fetchStart until' g) =
      env'.fetch (query p fetchStart until' g)) →
    l.collectWindow sha256 env st since = l.collectWindow sha256 env' st since

omit [Div V] [OfNat V 1000] [BEq V] in
private theorem fetchGraphs_congr {env env' : AnalyticsEnv V} {p : ResolvedUseCase}
    {fetchStart until' : Int} {graphs : List String}
    (h : ∀ g ∈ graphs, env.fetch (query p fetchStart until' g) =
      env'.fetch (query p fetchStart until' g))
    (resp : Lib.SortedMap String (GraphResponse V)) :
    fetchGraphs env p fetchStart until' resp graphs =
      fetchGraphs env' p fetchStart until' resp graphs := by
  induction graphs generalizing resp with
  | nil => rfl
  | cons g rest ih =>
    obtain ⟨hg, hrest⟩ := List.forall_mem_cons.mp h
    unfold fetchGraphs
    rw [hg]
    simp only [ih hrest]

private theorem collectPasses_congr {env env' : AnalyticsEnv V} (hnow : env.now = env'.now)
    {start until' fetchStart : Int} {passes : List ResolvedUseCase}
    (h : ∀ p ∈ passes, ∀ g ∈ l.graphs, env.fetch (query p fetchStart until' g) =
      env'.fetch (query p fetchStart until' g))
    (histories : Lib.SortedMap String (RevisionHistory V)) :
    l.collectPasses env start until' fetchStart histories passes =
      l.collectPasses env' start until' fetchStart histories passes := by
  induction passes generalizing histories with
  | nil => rfl
  | cons p rest ih =>
    obtain ⟨hp, hrest⟩ := List.forall_mem_cons.mp h
    have hpass : l.collectPass env start until' fetchStart histories p =
        l.collectPass env' start until' fetchStart histories p := by
      unfold collectPass
      rw [fetchGraphs_congr hp, hnow]
    unfold collectPasses
    rw [hpass]
    simp only [ih hrest]

theorem queriesOnly (l : AnalyticsLoop) (now : Int) (since : Watermark) :
    let start := l.start now since
    let until' := l.windowEnd now start
    QueriesOnly sha256 l V now since (l.fetchStart now start until') until' := by
  intro start until' env env' st hnow hnow' hfetch
  unfold collectWindow
  rw [hnow, hnow']
  dsimp only
  rw [collectPasses_congr (hnow.trans hnow'.symm) hfetch]

/-! ### One call -/

private theorem collectWindow_of_empty {env : AnalyticsEnv V} (st : AnalyticsState V)
    (hempty : l.windowEnd env.now (l.start env.now since) ≤ l.start env.now since) :
    l.collectWindow sha256 env st since =
      { state := st, events := [], result := .ok { key := l.key sha256, watermark := since } } := by
  unfold collectWindow
  dsimp only
  rw [if_pos hempty]

private theorem watermark_of_opens {env : AnalyticsEnv V} {st : AnalyticsState V} {b : Batch V}
    (hopens : l.start env.now since < l.windowEnd env.now (l.start env.now since))
    (h : (l.collectWindow sha256 env st since).result = .ok b) :
    b.watermark = { since with time := l.windowEnd env.now (l.start env.now since) } := by
  unfold collectWindow at h
  dsimp only at h
  rw [if_neg (not_le.mpr hopens)] at h
  cases hr : (l.collectPasses env (l.start env.now since)
      (l.windowEnd env.now (l.start env.now since))
      (l.fetchStart env.now (l.start env.now since)
        (l.windowEnd env.now (l.start env.now since))) st.histories l.passes).2.2 with
  | error e =>
    rw [hr] at h
    cases h
  | ok all =>
    rw [hr] at h
    obtain rfl := Except.ok.inj h
    rfl

/-- **What one call does to the watermark.** -/
theorem watermark_step (hl : l.Bounds) {env : AnalyticsEnv V} {st : AnalyticsState V} {b : Batch V}
    (hclock : l.Bootstraps env.now since)
    (h : (l.collectWindow sha256 env st since).result = .ok b) :
    (env.now - l.settle ≤ since.time ∧ b.watermark = since) ∨
    (since.time < b.watermark.time ∧ b.watermark.time ≤ env.now - l.settle ∧
      min (env.now - l.settle) (since.time + l.window) ≤ b.watermark.time) := by
  rcases le_or_gt (l.windowEnd env.now (l.start env.now since)) (l.start env.now since) with
    hempty | hopens
  · rw [collectWindow_of_empty st hempty] at h
    obtain rfl := Except.ok.inj h
    exact Or.inl ⟨settled_of_empty hl hempty, rfl⟩
  · have hint := interval_of_opens hl hclock hopens
    have huntil : l.windowEnd env.now (l.start env.now since) =
        min (env.now - l.settle) (l.start env.now since + l.window) := windowEnd_eq hl _
    have hsince := hint.since
    have hsettled := hint.settled
    rw [watermark_of_opens hopens h]
    exact Or.inr ⟨by dsimp only; omega, hsettled, by dsimp only; omega⟩

/-! ### Calls in a row -/

/-- Successful calls in a row, at the clocks listed, each from the watermark before it. -/
inductive Calls (sha256 : String → String) (l : AnalyticsLoop) (V : Type) [Div V] [OfNat V 1000]
    [BEq V] : List Int → Watermark → Watermark → Prop
  | nil (w : Watermark) : Calls sha256 l V [] w w
  | cons {since w : Watermark} {clocks : List Int} {env : AnalyticsEnv V} {st : AnalyticsState V}
      {b : Batch V} (hclock : l.Bootstraps env.now since)
      (hok : (l.collectWindow sha256 env st since).result = .ok b)
      (rest : Calls sha256 l V clocks b.watermark w) : Calls sha256 l V (env.now :: clocks) since w

theorem Calls.le (hl : l.Bounds) {clocks : List Int} {w : Watermark}
    (h : Calls sha256 l V clocks since w) : since.time ≤ w.time := by
  induction h with
  | nil w => exact le_refl _
  | cons hclock hok _ ih =>
    rcases watermark_step hl hclock hok with ⟨-, heq⟩ | ⟨hlt, -⟩
    · rwa [heq] at ih
    · omega

private theorem Calls.reaches (hl : l.Bounds) {n : Nat} {w : Watermark}
    (h : Calls sha256 l V (List.replicate n now) since w) :
    min (now - l.settle) (since.time + n * l.window) ≤ w.time ∧
      w.time ≤ max since.time (now - l.settle) := by
  generalize hclocks : List.replicate n now = clocks at h
  have hpos := hl.window_pos
  induction h generalizing n with
  | nil w =>
    obtain rfl : n = 0 := by simpa using hclocks
    omega
  | @cons since w clocks env st b hclock hok rest ih =>
    cases n with
    | zero => cases hclocks
    | succ n =>
      obtain ⟨rfl, hrest⟩ := List.cons.inj (List.replicate_succ ▸ hclocks)
      obtain ⟨hlo, hhi⟩ := ih hrest
      have hsum : ((n + 1 : Nat) : Int) * l.window = n * l.window + l.window := by
        rw [Nat.cast_succ, Int.add_mul, Int.one_mul]
      have hn : 0 ≤ (n : Int) * l.window := Int.mul_nonneg (by omega) hpos.le
      rcases watermark_step hl hclock hok with ⟨hsettled, heq⟩ | ⟨hlt, hle, hstep⟩
      · rw [heq] at hlo hhi
        omega
      · omega

/-- **The window arithmetic of the analytics loop.**  Every call of an accepted loop, once past the
check of the workspace, finds everything settled behind its watermark and returns it unchanged,
whatever the API is, or queries an interval with the bounds of `Interval` and moves the watermark to
its end.  Calls in a row never move the watermark back, and at one clock they reach
`now - bucket_settle` after as many calls as there are windows up to it. -/
theorem window_arithmetic (hl : l.Accepted) (sha256 : String → String) (now : Int)
    (since : Watermark) (hclock : l.Bootstraps now since) :
    ((now - l.settle ≤ since.time ∧ ∀ (env : AnalyticsEnv V) (st : AnalyticsState V),
        env.now = now → l.collectWindow sha256 env st since =
          { state := st, events := []
            result := .ok { key := l.key sha256, watermark := since } }) ∨
      ∃ fetchStart start until', l.Interval now since fetchStart start until' ∧
        QueriesOnly sha256 l V now since fetchStart until' ∧
        ∀ (env : AnalyticsEnv V) (st : AnalyticsState V) (b : Batch V), env.now = now →
          (l.collectWindow sha256 env st since).result = .ok b →
          b.watermark = { since with time := until' } ∧ since.time < until') ∧
    (∀ clocks w, Calls sha256 l V clocks since w → since.time ≤ w.time) ∧
    ∀ (n : Nat) w, now - l.settle ≤ since.time + n * l.window →
      Calls sha256 l V (List.replicate n now) since w →
        w.time = max since.time (now - l.settle) := by
  have hb := hl.bounds
  refine ⟨?_, fun clocks w h => h.le hb, fun n w hn h => ?_⟩
  · rcases le_or_gt (l.windowEnd now (l.start now since)) (l.start now since) with hempty | hopens
    · refine Or.inl ⟨settled_of_empty hb hempty, ?_⟩
      rintro env st rfl
      exact collectWindow_of_empty st hempty
    · have hint := interval_of_opens hb hclock hopens
      refine Or.inr ⟨_, _, _, hint, queriesOnly l now since, ?_⟩
      rintro env st b rfl h
      exact ⟨watermark_of_opens hopens h, lt_of_le_of_lt hint.since hint.opens⟩
  · have hle := h.le hb
    obtain ⟨hlo, hhi⟩ := h.reaches hb
    omega

/-- What the loop with windows of two minutes returns when the graph has no data. -/
private def emptyUntil (until' : Int) : Batch Int :=
  { key := shortLoop.key id, watermark := { time := until' } }

/-- Four minutes late, it is up to date after two calls at one clock. -/
theorem window_arithmetic_two_calls :
    Calls id shortLoop Int (List.replicate 2 midnight) { time := midnight - 5 * minute }
        { time := midnight - minute } ∧
      ∀ w, Calls id shortLoop Int (List.replicate 2 midnight) { time := midnight - 5 * minute } w →
        w.time = midnight - minute := by
  refine ⟨?_, fun w h => ?_⟩
  · refine @Calls.cons id shortLoop Int _ _ _ _ _ [midnight] (answering midnight []) shortLoop.init
      (emptyUntil (midnight - 3 * minute)) (fun h => absurd h (by decide)) (by decide +kernel) ?_
    exact @Calls.cons id shortLoop Int _ _ _ _ _ [] (answering midnight []) shortLoop.init
      (emptyUntil (midnight - minute)) (fun h => absurd h (by decide)) (by decide +kernel) (.nil _)
  · have hreach := (window_arithmetic (V := Int) shortLoop_accepted id midnight
      { time := midnight - 5 * minute } (fun h => absurd h (by decide))).2.2 2 w (by decide) h
    rw [hreach]
    decide

/-- **The clock at the zero time** makes a loop that was never saved query from before it and move
the watermark back. -/
theorem zero_clock_moves_back :
    shortLoop.Accepted ∧ 0 - shortLoop.settle ≤ ({} : Watermark).time ∧
      shortLoop.start 0 {} = -5 * minute ∧
      (shortLoop.collectWindow id (answering 0 []) shortLoop.init {}).result.toOption.map
        Batch.watermark = some { time := -3 * minute } :=
  ⟨shortLoop_accepted, by decide, by decide, by decide +kernel⟩

end AnalyticsLoop

end GenaiBridge
