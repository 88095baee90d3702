/-
No minute is given up twice.

Behind every positive count stands a range of time: it starts at the watermark, or where
the last count for that watermark ended, and is as many minutes long as the count.  While
a watermark stays, each range starts where the one before it ended; when it moves, it
moves past the floor of the tick that moved it, and nothing counted so far reaches beyond
that.  `Ledger` is what a run keeps: the ranges counted so far, and where the next one
would start.
-/
import GenaiBridge.Bridge.Backfill
import Mathlib.Data.Int.ConditionallyCompleteOrder
import Mathlib.Data.List.Chain
import Mathlib.Order.CompletePartialOrder
import Mathlib.Order.ConditionallyCompleteLattice.Basic
import Mathlib.Order.Interval.Set.Basic

namespace GenaiBridge

/-! ### The ranges behind the counts -/

/-- The range behind a positive count, with the watermark it was counted for. -/
structure CountedRange where
  wm : Int
  start : Int
  mins : Int
deriving DecidableEq, Repr

namespace CountedRange

def stop (r : CountedRange) : Int := r.start + r.mins * minute

/-- The instants of the range. -/
def span (r : CountedRange) : Set Int := Set.Ico r.start r.stop

end CountedRange

/-- The watermark a tick reads, if it gets that far and there is one: the zero time is none. -/
def BackfillTick.reading (t : BackfillTick) : Option Int :=
  if t.busy then none else t.since.filter (· ≠ 0)

namespace BackfillCount

/-- The range behind the result of a tick, if the result is positive. -/
def counted (sp : BackfillSpec) (s : BackfillCount) (t : BackfillTick) : List CountedRange :=
  match t.reading with
  | none => []
  | some wm => if 0 < (s.runOnce sp t).1 then [⟨wm, s.start wm, (s.runOnce sp t).1⟩] else []

/-- The ranges behind the results of a run of ticks, in order. -/
def countedRanges (sp : BackfillSpec) : BackfillCount → List BackfillTick → List CountedRange
  | _, [] => []
  | s, t :: rest => s.counted sp t ++ countedRanges sp (s.runOnce sp t).2 rest

/-! ### One tick -/

theorem runOnce_of_no_reading {sp : BackfillSpec} {s : BackfillCount} {t : BackfillTick}
    (h : t.reading = none) : s.runOnce sp t = (0, s) := by
  unfold BackfillTick.reading at h
  unfold runOnce
  by_cases hbusy : t.busy = true
  · rw [if_pos hbusy]
  · rw [if_neg hbusy] at h ⊢
    cases hsince : t.since with
    | none => rfl
    | some wm =>
      rw [hsince] at h
      have hzero : wm = 0 := by simpa using h
      dsimp only
      rw [if_neg fun hgate => hgate.2.1 hzero]

theorem runOnce_of_reading {sp : BackfillSpec} {s : BackfillCount} {t : BackfillTick} {wm : Int}
    (h : t.reading = some wm) :
    s.runOnce sp t = if 0 < sp.window ∧ wm < sp.floor t.now then
      s.backfillUnstorableMinutes wm (sp.floor t.now) else (0, s) := by
  unfold BackfillTick.reading at h
  unfold runOnce
  by_cases hbusy : t.busy = true
  · rw [if_pos hbusy] at h
    cases h
  · rw [if_neg hbusy] at h ⊢
    obtain ⟨hsince, hne⟩ := Option.filter_eq_some_iff.mp h
    have hnonzero : wm ≠ 0 := of_decide_eq_true hne
    rw [hsince]
    dsimp only
    simp only [hnonzero, ne_eq, not_false_eq_true, true_and]

theorem le_start (s : BackfillCount) (wm : Int) : wm ≤ s.start wm := by
  unfold start
  by_cases h : s.backfillCountedWm = wm ∧ wm < s.backfillCountedFloor
  · rw [if_pos h]
    exact le_of_lt h.2
  · rw [if_neg h]

theorem start_of_ne {wm floor w : Int} (h : w ≠ wm) : (BackfillCount.mk wm floor).start w = w := by
  unfold start
  rw [if_neg]
  rintro ⟨heq, -⟩
  exact h heq.symm

theorem start_of_lt {wm floor : Int} (h : wm < floor) :
    (BackfillCount.mk wm floor).start wm = floor := by
  unfold start
  rw [if_pos ⟨rfl, h⟩]

/-- **What one call counts**: the whole minutes from the start to the floor, as far as a `Duration`
reaches, after which the next count for this watermark starts where this one ended. -/
theorem backfillUnstorableMinutes_spec (s : BackfillCount) {wm floor : Int}
    (hstart : s.start wm ≤ floor) :
    let mins := min (floor - s.start wm) maxInt64 / minute
    (s.backfillUnstorableMinutes wm floor).1 = mins ∧
    (s.backfillUnstorableMinutes wm floor).2.start wm = s.start wm + mins * minute ∧
    ∀ w, w ≠ wm → s.start w = w → (s.backfillUnstorableMinutes wm floor).2.start w = w := by
  intro mins
  have hle := s.le_start wm
  have hsub : Time.sub floor (s.start wm) = min (floor - s.start wm) maxInt64 := by
    unfold Time.sub maxInt64 minInt64
    omega
  have hnonneg : 0 ≤ min (floor - s.start wm) maxInt64 := by
    unfold maxInt64
    omega
  have hdiv : (Time.sub floor (s.start wm)).tdiv minute = mins := by
    rw [hsub, Int.tdiv_eq_ediv_of_nonneg hnonneg]
  have hmins : 0 ≤ mins := Int.ediv_nonneg hnonneg (by decide)
  have hprod : mins * minute ≤ min (floor - s.start wm) maxInt64 :=
    Int.ediv_mul_le _ (by decide)
  have hwrap : wrap64 (mins * minute) = mins * minute := by
    have hprod' : 0 ≤ mins * minute := Int.mul_nonneg hmins (by decide)
    refine wrap64_of_mem ?_ (hprod.trans (min_le_right _ _))
    unfold minInt64
    omega
  unfold backfillUnstorableMinutes
  rw [hdiv]
  dsimp only
  by_cases hzero : mins ≤ 0
  · have hz : mins = 0 := le_antisymm hzero hmins
    rw [if_pos hzero, hz]
    exact ⟨rfl, by simp, fun w _ h => h⟩
  · have hpos : 0 < mins * minute := Int.mul_pos (by omega) (by decide)
    rw [if_neg hzero, hwrap]
    exact ⟨rfl, start_of_lt (by omega), fun w hw _ => start_of_ne hw⟩

/-- Less than a minute before the floor is left uncounted. -/
def CountedUp (s : BackfillCount) (floor wm : Int) : Prop :=
  wm < floor → floor - s.start wm < minute

/-- A call counts up to the floor, unless the gap is longer than a `Duration`. -/
theorem countedUp_of_near (s : BackfillCount) {wm floor : Int} (hstart : s.start wm ≤ floor)
    (hnear : floor - wm ≤ maxInt64) : (s.backfillUnstorableMinutes wm floor).2.CountedUp floor wm := by
  intro _
  have hle := s.le_start wm
  have hmin : min (floor - s.start wm) maxInt64 = floor - s.start wm := min_eq_left (by omega)
  have habove : floor - s.start wm < ((floor - s.start wm) / minute + 1) * minute :=
    Int.lt_ediv_add_one_mul_self _ (by decide)
  rw [(s.backfillUnstorableMinutes_spec hstart).2.1, hmin]
  rw [add_mul, one_mul] at habove
  omega

end BackfillCount

/-! ### What a run keeps -/

/-- The minutes counted for a watermark. -/
def minutesFor (wm : Int) (ranges : List CountedRange) : Int :=
  ((ranges.filter fun r => r.wm = wm).map CountedRange.mins).sum

/-- The ranges counted so far, after a tick with this floor and watermark. -/
structure Ledger (s : BackfillCount) (ranges : List CountedRange) (floor wm : Int) : Prop where
  /-- Each range starts where the one before it ended, or later. -/
  ordered : ranges.Pairwise fun a b => a.stop ≤ b.start
  /-- The next range would start where the last one ended, or later. -/
  stop_le_start : ∀ r ∈ ranges, r.stop ≤ s.start wm
  stop_le_floor : ∀ r ∈ ranges, r.stop ≤ floor
  wm_lt_floor : ∀ r ∈ ranges, r.wm < floor
  /-- The minutes counted for this watermark reach from it to the next start. -/
  minutes : minutesFor wm ranges * minute = s.start wm - wm
  start_le : wm < floor → s.start wm ≤ floor
  /-- Nothing was counted for a watermark that is not before the floor. -/
  start_later : ∀ w, floor ≤ w → s.start w = w

namespace Ledger

variable {s : BackfillCount} {ranges : List CountedRange} {floor wm : Int}

theorem empty (floor wm : Int) : Ledger {} [] floor wm := by
  have hstart : ∀ w, ({} : BackfillCount).start w = w := by
    intro w
    unfold BackfillCount.start
    rw [if_neg]
    -- a fresh count has the zero time for both
    rintro ⟨hwm, hfloor⟩
    simp only at hwm hfloor
    omega
  constructor
  · exact List.Pairwise.nil
  · simp
  · simp
  · simp
  · rw [hstart]
    simp [minutesFor]
  · intro h
    rw [hstart]
    exact le_of_lt h
  · exact fun w _ => hstart w

/-- The clock goes on, and the watermark stays or moves past the floor. -/
theorem move (h : Ledger s ranges floor wm) {floor' wm' : Int} (hfloor : floor ≤ floor')
    (hwm : wm' = wm ∨ floor < wm') : Ledger s ranges floor' wm' := by
  have hstop : ∀ r ∈ ranges, r.stop ≤ floor' := fun r hr => (h.stop_le_floor r hr).trans hfloor
  have hlater : ∀ w, floor' ≤ w → s.start w = w :=
    fun w hw => h.start_later w (hfloor.trans hw)
  have hwms : ∀ r ∈ ranges, r.wm < floor' := fun r hr => lt_of_lt_of_le (h.wm_lt_floor r hr) hfloor
  rcases hwm with rfl | hpast
  · refine ⟨h.ordered, h.stop_le_start, hstop, hwms, h.minutes, fun hlt => ?_, hlater⟩
    by_cases hbefore : wm' < floor
    · exact (h.start_le hbefore).trans hfloor
    · rw [h.start_later wm' (not_lt.mp hbefore)]
      exact le_of_lt hlt
  · have hstart := h.start_later wm' (le_of_lt hpast)
    refine ⟨h.ordered, fun r hr => ?_, hstop, hwms, ?_, fun hlt => ?_, hlater⟩
    · rw [hstart]
      exact (h.stop_le_floor r hr).trans (le_of_lt hpast)
    · -- no range is for a watermark past the floor
      have hnone : (ranges.filter fun r => r.wm = wm') = [] := by
        rw [List.filter_eq_nil_iff]
        intro r hr heq
        have hlt := h.wm_lt_floor r hr
        rw [of_decide_eq_true heq] at hlt
        omega
      rw [minutesFor, hnone, hstart]
      simp
    · rw [hstart]
      exact le_of_lt hlt

/-- A count adds a range that starts where the next one had to. -/
theorem count (h : Ledger s ranges floor wm) (hlt : wm < floor) :
    let after := s.backfillUnstorableMinutes wm floor
    Ledger after.2 (ranges ++ if 0 < after.1 then [⟨wm, s.start wm, after.1⟩] else []) floor
      wm := by
  intro after
  have hle := h.start_le hlt
  obtain ⟨hmins, hstart, hlater⟩ := s.backfillUnstorableMinutes_spec hle
  have hfrom := s.le_start wm
  have hbelow : min (floor - s.start wm) maxInt64 / minute * minute ≤ floor - s.start wm :=
    (Int.ediv_mul_le _ (by decide)).trans (min_le_left _ _)
  have hnonneg : 0 ≤ min (floor - s.start wm) maxInt64 / minute :=
    Int.ediv_nonneg (le_min (by omega) (by decide)) (by decide)
  change (after.1 = _) at hmins
  change (after.2.start wm = _) at hstart
  rw [← hmins] at hstart hbelow hnonneg
  have hlater' : ∀ w, floor ≤ w → after.2.start w = w :=
    fun w hw => hlater w (by omega) (h.start_later w hw)
  by_cases hpos : 0 < after.1
  · rw [if_pos hpos]
    have hmem : ∀ r ∈ ranges ++ [⟨wm, s.start wm, after.1⟩],
        r ∈ ranges ∨ r = ⟨wm, s.start wm, after.1⟩ := by
      intro r hr
      rcases List.mem_append.mp hr with hr | hr
      · exact Or.inl hr
      · exact Or.inr (List.mem_singleton.mp hr)
    have hgrow : 0 < after.1 * minute := Int.mul_pos hpos (by decide)
    constructor
    · rw [List.pairwise_append]
      refine ⟨h.ordered, List.pairwise_singleton _ _, fun a ha b hb => ?_⟩
      rw [List.mem_singleton.mp hb]
      exact h.stop_le_start a ha
    · intro r hr
      rw [hstart]
      rcases hmem r hr with hr | rfl
      · have := h.stop_le_start r hr
        omega
      · exact le_refl _
    · intro r hr
      rcases hmem r hr with hr | rfl
      · exact h.stop_le_floor r hr
      · show s.start wm + after.1 * minute ≤ floor
        omega
    · intro r hr
      rcases hmem r hr with hr | rfl
      · exact h.wm_lt_floor r hr
      · exact hlt
    · have hsum : minutesFor wm (ranges ++ [⟨wm, s.start wm, after.1⟩]) =
          minutesFor wm ranges + after.1 := by
        simp [minutesFor, List.filter_append]
      rw [hsum, add_mul, h.minutes, hstart]
      omega
    · intro _
      rw [hstart]
      omega
    · exact hlater'
  · have hzero : after.1 = 0 := by omega
    rw [hzero, zero_mul, add_zero] at hstart
    rw [if_neg hpos, List.append_nil]
    refine ⟨h.ordered, ?_, h.stop_le_floor, h.wm_lt_floor, ?_, ?_, hlater'⟩
    · rw [hstart]
      exact h.stop_le_start
    · rw [hstart]
      exact h.minutes
    · rw [hstart]
      exact h.start_le

end Ledger

/-! ### The run -/

/-- The floors and watermarks of the ticks that read a watermark. -/
def readings (sp : BackfillSpec) (ticks : List BackfillTick) : List (Int × Int) :=
  ticks.filterMap fun t => t.reading.map fun wm => (sp.floor t.now, wm)

/-- From one reading to the next the clock does not go back, and the watermark stays or moves past
the floor of the first. -/
def Follows (a b : Int × Int) : Prop := a.1 ≤ b.1 ∧ (b.2 = a.2 ∨ a.1 < b.2)

section

variable {sp : BackfillSpec} {s : BackfillCount} {ranges : List CountedRange} {floor wm : Int}
  {t : BackfillTick} {ticks : List BackfillTick}

theorem readings_cons_none (h : t.reading = none) :
    readings sp (t :: ticks) = readings sp ticks := by
  simp [readings, h]

theorem readings_cons_some (h : t.reading = some wm) :
    readings sp (t :: ticks) = (sp.floor t.now, wm) :: readings sp ticks := by
  simp [readings, h]

theorem countedRanges_cons_none (h : t.reading = none) :
    s.countedRanges sp (t :: ticks) = s.countedRanges sp ticks := by
  rw [BackfillCount.countedRanges, BackfillCount.counted, h, BackfillCount.runOnce_of_no_reading h]
  rfl

/-- One tick of a windowed loop keeps the ledger and counts up to its floor. -/
theorem ledger_tick (hwindow : 0 < sp.window) (hreading : t.reading = some wm)
    (hnear : sp.floor t.now - wm ≤ years290) (h : Ledger s ranges (sp.floor t.now) wm) :
    Ledger (s.runOnce sp t).2 (ranges ++ s.counted sp t) (sp.floor t.now) wm ∧
      (s.runOnce sp t).2.CountedUp (sp.floor t.now) wm := by
  unfold BackfillCount.counted
  rw [hreading]
  dsimp only
  rw [BackfillCount.runOnce_of_reading hreading]
  by_cases hgate : 0 < sp.window ∧ wm < sp.floor t.now
  · rw [if_pos hgate]
    have hint : sp.floor t.now - wm ≤ maxInt64 := hnear.trans (by decide)
    exact ⟨h.count hgate.2, s.countedUp_of_near (h.start_le hgate.2) hint⟩
  · rw [if_neg hgate, if_neg (lt_irrefl 0), List.append_nil]
    exact ⟨h, fun hlt => absurd ⟨hwindow, hlt⟩ hgate⟩

/-- **The ledger is kept by every run.** -/
theorem ledger_run (hwindow : 0 < sp.window) : ∀ (ticks : List BackfillTick) (s : BackfillCount)
    (ranges : List CountedRange) (floor wm : Int),
    (∀ t ∈ ticks, ∀ wm, t.reading = some wm → sp.floor t.now - wm ≤ years290) →
    ((floor, wm) :: readings sp ticks).IsChain Follows →
    Ledger s ranges floor wm → s.CountedUp floor wm →
    ∃ s' floor' wm', ((floor, wm) :: readings sp ticks).getLast? = some (floor', wm') ∧
      Ledger s' (ranges ++ s.countedRanges sp ticks) floor' wm' ∧ s'.CountedUp floor' wm' := by
  intro ticks
  induction ticks with
  | nil =>
    intro s ranges floor wm _ _ hledger hup
    refine ⟨s, floor, wm, rfl, ?_, hup⟩
    rw [BackfillCount.countedRanges, List.append_nil]
    exact hledger
  | cons t rest ih =>
    intro s ranges floor wm hnear hchain hledger hup
    have hnear' := fun u hu => hnear u (List.mem_cons_of_mem _ hu)
    cases hreading : t.reading with
    | none =>
      rw [readings_cons_none hreading] at hchain ⊢
      rw [countedRanges_cons_none hreading]
      exact ih s ranges floor wm hnear' hchain hledger hup
    | some wm' =>
      rw [readings_cons_some hreading] at hchain ⊢
      obtain ⟨⟨hfloor, hwm⟩, hrest⟩ := List.isChain_cons_cons.mp hchain
      obtain ⟨htick, hcounted⟩ := ledger_tick hwindow hreading
        (hnear t List.mem_cons_self wm' hreading) (hledger.move hfloor hwm)
      obtain ⟨s', f, w, hlast, hend, hup'⟩ := ih _ _ _ _ hnear' hrest htick hcounted
      refine ⟨s', f, w, ?_, ?_, hup'⟩
      · rw [List.getLast?_cons_cons]
        exact hlast
      · rw [BackfillCount.countedRanges, ← List.append_assoc]
        exact hend

theorem ledger_leadership (hwindow : 0 < sp.window) : ∀ ticks : List BackfillTick,
    (∀ t ∈ ticks, ∀ wm, t.reading = some wm → sp.floor t.now - wm ≤ years290) →
    (readings sp ticks).IsChain Follows →
    (readings sp ticks = [] ∧ ({} : BackfillCount).countedRanges sp ticks = []) ∨
    ∃ s floor wm, (readings sp ticks).getLast? = some (floor, wm) ∧
      Ledger s (({} : BackfillCount).countedRanges sp ticks) floor wm ∧ s.CountedUp floor wm := by
  intro ticks
  induction ticks with
  | nil => exact fun _ _ => Or.inl ⟨rfl, rfl⟩
  | cons t rest ih =>
    intro hnear hchain
    have hnear' := fun u hu => hnear u (List.mem_cons_of_mem _ hu)
    cases hreading : t.reading with
    | none =>
      rw [readings_cons_none hreading] at hchain ⊢
      rw [countedRanges_cons_none hreading]
      exact ih hnear' hchain
    | some wm =>
      rw [readings_cons_some hreading] at hchain ⊢
      obtain ⟨htick, hcounted⟩ := ledger_tick hwindow hreading
        (hnear t List.mem_cons_self wm hreading) (Ledger.empty (sp.floor t.now) wm)
      obtain ⟨s, f, w, hlast, hend, hup⟩ :=
        ledger_run hwindow rest _ _ _ _ hnear' hchain htick hcounted
      exact Or.inr ⟨s, f, w, hlast, hend, hup⟩

/-- The readings of a run whose clock does not go back. -/
theorem readings_follow (hclock : ticks.Pairwise fun a b => a.now ≤ b.now)
    (hmoves : (readings sp ticks).IsChain fun a b => b.2 = a.2 ∨ a.1 < b.2) :
    (readings sp ticks).IsChain Follows ∧ (readings sp ticks).Pairwise fun a b => a.1 ≤ b.1 := by
  have hfloors : (readings sp ticks).Pairwise fun a b => a.1 ≤ b.1 := by
    unfold readings
    rw [List.pairwise_filterMap]
    refine hclock.imp ?_
    intro a b hab p hp q hq
    obtain ⟨wm, -, rfl⟩ := Option.map_eq_some_iff.mp hp
    obtain ⟨wm', -, rfl⟩ := Option.map_eq_some_iff.mp hq
    exact Time.addNeg_le_addNeg hab _
  refine ⟨List.isChain_iff_getElem.mpr fun i hi => ?_, hfloors⟩
  exact ⟨List.pairwise_iff_getElem.mp hfloors i (i + 1) _ hi (Nat.lt_succ_self i),
    List.isChain_iff_getElem.mp hmoves i hi⟩

end

/-- **Minutes given up are counted once.**  In every leadership of a windowed loop whose watermark
moves only past the floor of the tick that moved it, the ranges behind the counts are disjoint, and
those of the current watermark add up to the whole minutes between it and the highest floor. -/
theorem abandoned_minutes_counted_once (sp : BackfillSpec) (hwindow : 0 < sp.window)
    (before : BackfillCount) (ticks : List BackfillTick)
    (hclock : ticks.Pairwise fun a b => a.now ≤ b.now)
    (hnear : ∀ t ∈ ticks, ∀ wm, t.reading = some wm → sp.floor t.now - wm ≤ years290)
    (hmoves : (readings sp ticks).IsChain fun a b => b.2 = a.2 ∨ a.1 < b.2) :
    (before.reset.countedRanges sp ticks).Pairwise (fun a b => Disjoint a.span b.span) ∧
    ∀ wm floor, (readings sp ticks).getLast?.map Prod.snd = some wm →
      IsGreatest {f | f ∈ (readings sp ticks).map Prod.fst} floor → wm < floor →
      minutesFor wm (before.reset.countedRanges sp ticks) = (floor - wm) / minute := by
  obtain ⟨hfollow, hfloors⟩ := readings_follow hclock hmoves
  have hreset : before.reset = {} := rfl
  rw [hreset]
  rcases ledger_leadership hwindow ticks hnear hfollow with ⟨hnone, hranges⟩ | hsome
  · rw [hranges, hnone]
    exact ⟨List.Pairwise.nil, fun wm floor hlast => by cases hlast⟩
  · obtain ⟨s, f, w, hlast, hledger, hup⟩ := hsome
    constructor
    · refine hledger.ordered.imp ?_
      intro a b hab
      rw [Set.disjoint_left]
      intro x hxa hxb
      exact absurd (lt_of_lt_of_le hxa.2 hab) (not_lt.mpr hxb.1)
    · intro wm floor hwm hgreatest hlt
      rw [hlast] at hwm
      obtain rfl : w = wm := Option.some.inj hwm
      -- the floors do not fall, so the highest one is the last
      obtain ⟨earlier, hsplit⟩ := List.getLast?_eq_some_iff.mp hlast
      rw [hsplit] at hfloors hgreatest
      obtain rfl : f = floor := by
        refine le_antisymm (hgreatest.2 (by simp)) ?_
        obtain ⟨p, hp, hpf⟩ := List.mem_map.mp hgreatest.1
        rcases List.mem_append.mp hp with hearlier | hend
        · rw [← hpf]
          exact (List.pairwise_append.mp hfloors).2.2 p hearlier (f, w) List.mem_cons_self
        · rw [← hpf, List.mem_singleton.mp hend]
      have hminutes := hledger.minutes
      have hstart := hledger.start_le hlt
      have hrest := hup hlt
      unfold minute at hminutes hrest ⊢
      omega

/-- Three ticks, a minute apart, of a loop that is stuck at second 1000. -/
def stuckTicks : List BackfillTick :=
  [⟨15340 * second, false, some (1000 * second)⟩, ⟨15400 * second, false, some (1000 * second)⟩,
    ⟨15460 * second, false, some (1000 * second)⟩]

/-- A stuck loop counts the gap once, and then a minute at every tick. -/
theorem abandoned_minutes_counted_once_stuck :
    minutesFor (1000 * second)
      (BackfillCount.countedRanges ⟨50 * minute, 90 * minute⟩ (BackfillCount.reset {}) stuckTicks) =
      151 := by
  have hfixed : ∀ t ∈ stuckTicks, t.reading = some (1000 * second) ∧
      BackfillSpec.floor ⟨50 * minute, 90 * minute⟩ t.now - 1000 * second ≤ years290 := by decide
  have hnear : ∀ t ∈ stuckTicks, ∀ wm, t.reading = some wm →
      BackfillSpec.floor ⟨50 * minute, 90 * minute⟩ t.now - wm ≤ years290 := by
    intro t ht wm hwm
    obtain ⟨hreading, hle⟩ := hfixed t ht
    rw [hreading] at hwm
    obtain rfl := Option.some.inj hwm
    exact hle
  have hfloors : ∀ f ∈ (readings ⟨50 * minute, 90 * minute⟩ stuckTicks).map Prod.fst,
      f ≤ 10060 * second := by decide
  have hgreatest : IsGreatest
      {f | f ∈ (readings ⟨50 * minute, 90 * minute⟩ stuckTicks).map Prod.fst} (10060 * second) :=
    ⟨by decide, fun f hf => hfloors f hf⟩
  exact (abandoned_minutes_counted_once ⟨50 * minute, 90 * minute⟩ (by decide) {} stuckTicks
    (by decide) hnear (by decide)).2 (1000 * second) (10060 * second) (by decide)
    hgreatest (by decide)

end GenaiBridge
