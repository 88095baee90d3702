/-
Every bucket is emitted once.

A call that moves the watermark from `start` to `until` emits the buckets that end in
between, provided its window is not cut inside a settled minute.  Calls that follow
one another then cover disjoint stretches of time, and `Lib.InOrder.exists_unique`
finds for every bucket end the one call that emits it.
-/
import GenaiBridge.Proofs.Analytics
import Mathlib.Data.Int.ConditionallyCompleteOrder

namespace GenaiBridge

variable {V : Type}

namespace AnalyticsLoop

/-- The minute a full window from `start` would end in is not over at the settle cutoff. -/
def WholeMinutes (l : AnalyticsLoop) (now : Int) (since : Watermark) : Prop :=
  now - l.settle < Time.truncate (l.start now since + l.window) minute + minute

/-- One call of `Collect`, and the batch it returned. -/
structure Call (V : Type) where
  env : AnalyticsEnv V
  state : AnalyticsState V
  since : Watermark
  batch : Batch V

namespace Call

/-- Where the call starts. -/
def start (l : AnalyticsLoop) (c : Call V) : Int := l.start c.env.now c.since

/-- The time of the watermark the call returns. -/
def stop (c : Call V) : Int := c.batch.watermark.time

variable [Div V] [OfNat V 1000] [BEq V]

/-- The call succeeds, and the API answers what it is asked. -/
def Succeeds (sha256 : String → String) (l : AnalyticsLoop) (c : Call V) : Prop :=
  (l.collect sha256 c.env c.state c.since).result = .ok c.batch ∧ l.Answered c.env c.since

end Call

variable {l : AnalyticsLoop} {now : Int} {since : Watermark}

/-! ### One call -/

/-- The bucket ends of a window lie in the window just if it is not cut inside a settled minute. -/
private theorem bucketEnds_within_iff (hl : l.Bounds) :
    let start := l.start now since
    let until' := l.windowEnd now start
    let lo := Time.truncate (l.fetchStart now start until') second
    start < until' →
    ((∀ e ∈ bucketEnds lo (Time.truncate until' second) start (now - l.settle),
      start < e ∧ e ≤ until') ↔ l.WholeMinutes now since) := by
  intro start until' lo hlt
  have huntil : until' = min (now - l.settle) (start + l.window) := windowEnd_eq hl start
  have hfetch : l.fetchStart now start until' ≤ start :=
    fetchStart_le_start hl (floor_le_start hl now since) (by omega)
  have hlo : lo ≤ start := by
    have : lo = l.fetchStart now start until' - l.fetchStart now start until' % second := rfl
    unfold second at this
    omega
  unfold WholeMinutes
  change _ ↔ now - l.settle < (start + l.window) - (start + l.window) % minute + minute
  have hhi : Time.truncate until' second = until' - until' % second := rfl
  unfold minute second at *
  constructor
  · -- the bucket the cut falls into ends after the window
    intro hall
    by_contra hcut
    have he := hall (until' - until' % 60000000000 + 60000000000)
      ⟨⟨by unfold minute; omega, by unfold minute; omega, by omega⟩, by omega, by omega⟩
    omega
  · rintro hwhole e ⟨⟨hdvd, hmeets, -⟩, hsince, hsettled⟩
    unfold minute at *
    omega

private theorem ends_within_iff {samples : List (Sample V)} {a b : Int} :
    (∀ s ∈ samples, a < s.timestamp ∧ s.timestamp ≤ b) ↔ ∀ e ∈ ends samples, a < e ∧ e ≤ b := by
  constructor
  · rintro h e ⟨s, hs, rfl⟩
    exact h s hs
  · exact fun h s hs => h _ ⟨s, hs, rfl⟩

/-- A call's samples lie in the stretch it moved over just if its window is not cut inside a
settled minute. -/
private theorem Emits.within_iff (hl : l.Bounds) {b : Batch V} (h : l.Emits now since b) :
    (∀ s ∈ b.samples, l.start now since < s.timestamp ∧ s.timestamp ≤ b.watermark.time) ↔
      l.WholeMinutes now since := by
  by_cases hlt : l.start now since < l.windowEnd now (l.start now since)
  · obtain ⟨hends, hstop⟩ := h.moves hlt
    rw [ends_within_iff, hends, hstop]
    exact bucketEnds_within_iff hl hlt
  · -- nothing is emitted, and nothing is settled after `start`
    obtain ⟨hnil, -⟩ := h.stays (not_lt.mp hlt)
    have hpos := hl.window_pos
    rw [windowEnd_eq hl] at hlt
    simp only [hnil, List.not_mem_nil, false_implies, implies_true, true_iff]
    unfold WholeMinutes
    change _ < (l.start now since + l.window) - (l.start now since + l.window) % minute + minute
    unfold minute
    omega

/-- The call emits every bucket end of the stretch it moved over. -/
private theorem Emits.mem_ends (hl : l.Bounds) {b : Batch V} (h : l.Emits now since b) {e : Int}
    (hdvd : minute ∣ e) (he : e ∈ Set.Ioc (l.start now since) b.watermark.time) :
    e ∈ ends b.samples := by
  have hlt : l.start now since < l.windowEnd now (l.start now since) := by
    by_contra hnot
    have hstop := (h.stays (not_lt.mp hnot)).2
    rw [start_eq_of_empty hl (not_lt.mp hnot), hstop] at he
    exact absurd he.1 (not_lt.mpr he.2)
  obtain ⟨hends, hstop⟩ := h.moves hlt
  rw [hstop] at he
  rw [hends]
  have huntil : l.windowEnd now (l.start now since) =
      min (now - l.settle) (l.start now since + l.window) := windowEnd_eq hl _
  have hfetch : l.fetchStart now (l.start now since) (l.windowEnd now (l.start now since)) ≤
      l.start now since := fetchStart_le_start hl (floor_le_start hl now since) (by omega)
  obtain ⟨hstart, hle⟩ := he
  refine ⟨⟨hdvd, ?_, ?_⟩, hstart, by omega⟩
  · change e - minute ≤ _ - _ % second
    unfold minute at *
    unfold second
    omega
  · change l.fetchStart now _ _ - l.fetchStart now _ _ % second ≤ e
    unfold second
    omega

/-! ### A chain of calls -/

variable [Div V] [OfNat V 1000] [BEq V] {sha256 : String → String}

private theorem Call.Succeeds.emits (hl : l.Bounds) {c : Call V} (h : c.Succeeds sha256 l) :
    l.Emits c.env.now c.since c.batch :=
  ((collect_spec hl sha256 c.state h.2).2 c.batch h.1).1

private theorem Call.Succeeds.start_le_stop (hl : l.Bounds) {c : Call V}
    (h : c.Succeeds sha256 l) : c.start l ≤ c.stop := by
  have hemits := h.emits hl
  unfold Call.start Call.stop
  by_cases hlt : l.start c.env.now c.since < l.windowEnd c.env.now (l.start c.env.now c.since)
  · rw [(hemits.moves hlt).2]
    exact hlt.le
  · rw [(hemits.stays (not_lt.mp hlt)).2, start_eq_of_empty hl (not_lt.mp hlt)]

omit [Div V] [OfNat V 1000] [BEq V] in
private theorem isChain_and_tail {R : Call V → Call V → Prop} {P : Call V → Prop}
    {calls : List (Call V)} (h : calls.IsChain R) (htail : ∀ c ∈ calls.tail, P c) :
    calls.IsChain fun a b => R a b ∧ P b := by
  induction h with
  | nil => exact .nil
  | singleton a => exact .singleton a
  | cons_cons hr _ ih =>
    exact .cons_cons ⟨hr, htail _ List.mem_cons_self⟩
      (ih fun c hc => htail c (List.mem_cons_of_mem _ hc))

/-- **Every bucket is emitted once.** The samples of a call lie between its start and its watermark
just if its window is not cut inside a settled minute.  In a chain of such calls, none but the
first of which starts from nothing, every bucket end from the first start to the last watermark
that the backfill floor does not skip is emitted by exactly one call. -/
theorem collect_emits_once (hl : l.Accepted) (sha256 : String → String) :
    (∀ c : Call V, c.Succeeds sha256 l →
      ((∀ s ∈ c.batch.samples, c.start l < s.timestamp ∧ s.timestamp ≤ c.stop) ↔
        l.WholeMinutes c.env.now c.since)) ∧
    ∀ calls : List (Call V),
      (∀ c ∈ calls, c.Succeeds sha256 l ∧ l.WholeMinutes c.env.now c.since) →
      calls.IsChain (fun a b => b.since = a.batch.watermark ∧ b.since.time ≠ 0) →
      ∀ first ∈ calls.head?, ∀ last ∈ calls.getLast?, ∀ e, minute ∣ e →
      first.start l < e → e ≤ last.stop →
      (∀ c ∈ calls.tail, ¬ (c.since.time < e ∧ e ≤ c.start l)) →
      ∃ pre c post, calls = pre ++ c :: post ∧ e ∈ ends c.batch.samples ∧
        ∀ d ∈ pre ++ post, e ∉ ends d.batch.samples := by
  have hb := hl.bounds
  refine ⟨fun c hc => (hc.emits hb).within_iff hb, ?_⟩
  intro calls hcalls hchain first hfirst last hlast e hdvd hgt hle hskip
  have horder : Lib.InOrder (Call.start l) Call.stop calls := by
    refine hchain.imp fun a b hab => ?_
    calc a.stop = b.since.time := by rw [hab.1]; rfl
      _ ≤ b.start l := since_le_start hab.2
  have hgap : calls.IsChain fun a b => ¬ (a.stop < e ∧ e ≤ b.start l) := by
    refine (isChain_and_tail hchain hskip).imp ?_
    rintro a b ⟨⟨hsince, -⟩, hnot⟩
    rwa [hsince] at hnot
  obtain ⟨pre, c, post, heq, hmem, hothers⟩ := horder.exists_unique
    (fun c hc => (hcalls c hc).1.start_le_stop hb) hgap
    (fun c hc => by rwa [Option.mem_unique hc hfirst]) ⟨last, hlast, hle⟩
  have hin : ∀ d ∈ pre ++ c :: post, d.Succeeds sha256 l ∧ l.WholeMinutes d.env.now d.since := by
    rw [← heq]
    exact hcalls
  refine ⟨pre, c, post, heq, ((hin c (by simp)).1.emits hb).mem_ends hb hdvd hmem, ?_⟩
  rintro d hd ⟨s, hs, rfl⟩
  obtain ⟨hok, hwhole⟩ := hin d (by
    rcases List.mem_append.mp hd with h | h
    · exact List.mem_append_left _ h
    · exact List.mem_append_right _ (List.mem_cons_of_mem _ h))
  exact hothers d hd (((hok.emits hb).within_iff hb).mpr hwhole s hs)

/-! ### Two calls -/

private theorem exists_call (now first : Int) (since w : Watermark) (times : List Int)
    (hans : shortLoop.Answered (answering now (fiveMinutes first)) since)
    (h : (shortLoop.collect (fun _ => "") (answering now (fiveMinutes first)) shortLoop.init
      since).result.map (fun b => (b.watermark, b.samples.map Sample.timestamp)) = .ok (w, times)) :
    ∃ c : Call Int, c.Succeeds (fun _ => "") shortLoop ∧ c.env.now = now ∧ c.since = since ∧
      c.batch.watermark = w ∧ c.batch.samples.map Sample.timestamp = times := by
  obtain ⟨b, hres, hb⟩ := Lib.map_ok.mp h
  exact ⟨⟨_, shortLoop.init, since, b⟩, ⟨hres, hans⟩, rfl, rfl, Prod.mk.inj hb⟩

private theorem mem_ends_of_times {c : Call Int} {times : List Int} {e : Int}
    (h : c.batch.samples.map Sample.timestamp = times) (he : e ∈ times) :
    e ∈ ends c.batch.samples :=
  List.mem_map.mp (h ▸ he)

/-- Two calls a minute apart: the minute that settles in between is emitted by one of them. -/
theorem collect_emits_once_two_calls : ∃ first second : Call Int,
    second.since = first.batch.watermark ∧ second.stop = midnight + 3 * minute ∧
      (∀ s ∈ first.batch.samples, first.start shortLoop < s.timestamp ∧ s.timestamp ≤ first.stop) ∧
      ∃ pre c post, [first, second] = pre ++ c :: post ∧
        midnight + 3 * minute ∈ ends c.batch.samples ∧
        ∀ d ∈ pre ++ post, midnight + 3 * minute ∉ ends d.batch.samples := by
  obtain ⟨first, hfirst, hnow, hsince, hstop, -⟩ := exists_call (midnight + 3 * minute)
    (midnight - 2 * minute) { time := midnight + 30 * second } { time := midnight + 2 * minute }
    [midnight + minute, midnight + 2 * minute] (answered_answering _ _ _ _ (by decide +kernel))
    (by decide +kernel)
  obtain ⟨second, hsecond, hnow', hsince', hstop', -⟩ := exists_call (midnight + 4 * minute)
    (midnight - minute) { time := midnight + 2 * minute } { time := midnight + 3 * minute }
    [midnight + 3 * minute] (answered_answering _ _ _ _ (by decide +kernel)) (by decide +kernel)
  have hwhole : shortLoop.WholeMinutes first.env.now first.since := by
    rw [hnow, hsince]
    unfold WholeMinutes
    decide +kernel
  have hwhole' : shortLoop.WholeMinutes second.env.now second.since := by
    rw [hnow', hsince']
    unfold WholeMinutes
    decide +kernel
  obtain ⟨hone, hchain⟩ := collect_emits_once (V := Int) shortLoop_accepted (fun _ => "")
  refine ⟨first, second, by rw [hsince', hstop], by rw [Call.stop, hstop'],
    (hone first hfirst).mpr hwhole, ?_⟩
  refine hchain [first, second] (by simp [hfirst, hsecond, hwhole, hwhole'])
    (List.isChain_pair.mpr ⟨by rw [hsince', hstop], by rw [hsince']; decide +kernel⟩)
    first rfl second rfl (midnight + 3 * minute) (by decide +kernel) ?_ ?_ ?_
  · rw [Call.start, hnow, hsince]
    decide +kernel
  · rw [Call.stop, hstop']
  · simp only [List.tail_cons, List.mem_singleton, forall_eq, Call.start, hnow', hsince']
    decide +kernel

/-- **A minute emitted twice.** A loop with a window of two minutes that is four settled minutes
behind cuts the first window at 00:02:30.  The first call emits the minute that ends at 00:03:00
although its watermark stays before it, and the second emits it again. -/
theorem minute_emitted_twice : ∃ first second : Call Int, shortLoop.Accepted ∧
    first.Succeeds (fun _ => "") shortLoop ∧ second.Succeeds (fun _ => "") shortLoop ∧
    first.env.now ≤ second.env.now ∧ second.since = first.batch.watermark ∧
    first.stop < midnight + 3 * minute ∧
    midnight + 3 * minute ∈ ends first.batch.samples ∧
    midnight + 3 * minute ∈ ends second.batch.samples := by
  obtain ⟨first, hfirst, hnow, -, hstop, htimes⟩ := exists_call
    (midnight + 5 * minute + 30 * second) (midnight - 2 * minute) { time := midnight + 30 * second }
    { time := midnight + 2 * minute + 30 * second }
    [midnight + minute, midnight + 2 * minute, midnight + 3 * minute]
    (answered_answering _ _ _ _ (by decide +kernel)) (by decide +kernel)
  obtain ⟨second, hsecond, hnow', hsince', -, htimes'⟩ := exists_call
    (midnight + 5 * minute + 30 * second) midnight { time := midnight + 2 * minute + 30 * second }
    { time := midnight + 4 * minute + 30 * second } [midnight + 3 * minute, midnight + 4 * minute]
    (answered_answering _ _ _ _ (by decide +kernel)) (by decide +kernel)
  refine ⟨first, second, shortLoop_accepted, hfirst, hsecond, by rw [hnow, hnow'],
    by rw [hsince', hstop], ?_, mem_ends_of_times htimes (by simp),
    mem_ends_of_times htimes' (by simp)⟩
  rw [Call.stop, hstop]
  decide +kernel

end AnalyticsLoop

end GenaiBridge
