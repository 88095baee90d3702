/-
How long `post` waits when it is told how long.

A gateway that answers 429 may say in seconds when to come back.  The loop takes the
larger of its own delay and that wait, or gives up where the wait does not fit in the
time left.  The seconds become a `Duration` by a product of 64 bits, so what the loop
compares is the wait only as long as the product is: beyond 9223372036 s it is what the
product wrapped to, and a wait of centuries may be one of milliseconds.
-/
import GenaiBridge.Bridge.OtlpPost

namespace GenaiBridge

/-! ### The turns of a post -/

variable {c : Credentials} {policy : RetryPolicy} {deadline : Int}

/-- Each turn is one pass through the body of the loop. -/
theorem exists_delay_of_mem_turns {turn : Round × RoundEnd} (rounds : List Round) : ∀ delay,
    turn ∈ postTurns c policy deadline delay rounds →
      ∃ delay', turn.2 = postRound c policy deadline delay' turn.1 := by
  induction rounds with
  | nil =>
    intro delay h
    cases h
  | cons round rest ih =>
    intro delay h
    rw [postTurns] at h
    cases hround : postRound c policy deadline delay round with
    | returned err =>
      rw [hround] at h
      obtain rfl := List.mem_singleton.mp h
      exact ⟨delay, hround.symm⟩
    | again slept delay' =>
      rw [hround] at h
      rcases List.mem_cons.mp h with rfl | hrest
      · exact ⟨delay, hround.symm⟩
      · exact ih delay' hrest

/-! ### The wait a header asks for -/

/-- A header with a positive number of seconds asks for their product with a second. -/
theorem parseRetryAfter_of_seconds {parseTime : String → Option Int} {header : String} {n : Int}
    (hn : atoi (trimSpace header) = some n) (hpos : 1 ≤ n) (now : Int) :
    parseRetryAfter parseTime header now = wrap64 (n * second) := by
  have hne : trimSpace header ≠ "" := by
    intro hempty
    have hnone : atoi "" = none := by decide
    rw [hempty, hnone] at hn
    cases hn
  unfold parseRetryAfter
  dsimp only
  rw [if_neg hne, hn]
  dsimp only
  rw [if_neg (by omega)]

/-- The turn returned a retryable error, or it slept for `n` seconds at least. -/
def RoundEnd.Honours (n : Int) : RoundEnd → Prop
  | .returned err => ∃ status msg, err = some (.retryable status msg)
  | .again slept _ => n * second ≤ slept

theorem postRound_of_429 {round : Round} {body : String} {retryAfter : Int}
    (h : round.answer = .response 429 body retryAfter) (delay : Int) :
    postRound c policy deadline delay round = backOff policy deadline delay round := by
  unfold postRound
  rw [h]
  rfl

/-- What the second half of the turn does with a wait. -/
theorem backOff_of_429 {round : Round} {body : String} {retryAfter : Int}
    (h : round.answer = .response 429 body retryAfter) (delay : Int) (n : Int) :
    (backOff policy deadline delay round).Honours n ↔
      deadline < round.now ∨
      (0 < retryAfter ∧ Time.sub deadline round.now < retryAfter) ∨
      round.cancelled ≠ none ∨
      n * second ≤ (if 0 < retryAfter then max (round.jittered delay) retryAfter
        else round.jittered delay) := by
  unfold backOff
  rw [h]
  simp only [Answer.status]
  by_cases hover : deadline < round.now
  · rw [if_pos hover]
    exact ⟨fun _ => Or.inl hover, fun _ => ⟨_, _, rfl⟩⟩
  · rw [if_neg hover]
    simp only [if_true]
    by_cases hlong : 0 < retryAfter ∧ Time.sub deadline round.now < retryAfter
    · rw [if_pos hlong]
      exact ⟨fun _ => Or.inr (Or.inl hlong), fun _ => ⟨_, _, rfl⟩⟩
    · rw [if_neg hlong]
      cases hcancelled : round.cancelled with
      | some err =>
        exact ⟨fun _ => Or.inr (Or.inr (Or.inl (by simp))), fun _ => ⟨_, _, rfl⟩⟩
      | none => simp only [RoundEnd.Honours, hover, hlong, ne_eq, not_true_eq_false, false_or]

/-- **A wait in seconds is kept just while it can be counted in nanoseconds**, unless the time for
retries is over, the wait wrapped to one that does not fit in the time left, or the sleep was cut
short.  What is said of one turn holds of every turn of every `post`. -/
theorem retry_after_honoured_iff (c : Credentials) (policy : RetryPolicy) (start : Int)
    (rounds : List Round) (turn : Round × RoundEnd)
    (hturn : turn ∈ postTurns c policy (start + policy.maxElapsed) policy.initialDelay rounds)
    (parseTime : String → Option Int) (body header : String) (received n : Int)
    (hanswer : turn.1.answer = .response 429 body (parseRetryAfter parseTime header received))
    (hn : atoi (trimSpace header) = some n) (hpos : 1 ≤ n)
    (hjitter : ∀ delay, turn.1.jittered delay ≤ maxInt64) :
    turn.2.Honours n ↔
      n * second ≤ maxInt64 ∨
      start + policy.maxElapsed < turn.1.now ∨
      (0 < wrap64 (n * second) ∧
        Time.sub (start + policy.maxElapsed) turn.1.now < wrap64 (n * second)) ∨
      turn.1.cancelled ≠ none := by
  obtain ⟨delay, hround⟩ := exists_delay_of_mem_turns rounds _ hturn
  rw [parseRetryAfter_of_seconds hn hpos] at hanswer
  rw [hround, postRound_of_429 hanswer, backOff_of_429 hanswer]
  have hwrap : wrap64 (n * second) ≤ maxInt64 := by
    unfold wrap64 maxInt64
    omega
  by_cases hfits : n * second ≤ maxInt64
  · -- the wait is what the header says, and the loop sleeps for no less
    have hsec : 0 < n * second := by
      unfold second
      omega
    have hexact : wrap64 (n * second) = n * second :=
      wrap64_of_mem (by unfold minInt64; omega) hfits
    rw [hexact, if_pos hsec]
    have hslept : n * second ≤ max (turn.1.jittered delay) (n * second) := le_max_right _ _
    simp only [hfits, hslept, or_true, true_or]
  · -- no `Duration` is as long as the header says
    have hshort : ¬ n * second ≤ (if 0 < wrap64 (n * second) then
        max (turn.1.jittered delay) (wrap64 (n * second)) else turn.1.jittered delay) := by
      have hj := hjitter delay
      by_cases hw : 0 < wrap64 (n * second)
      · rw [if_pos hw]
        have hmax := max_le hj hwrap
        omega
      · rw [if_neg hw]
        omega
    simp only [hfits, hshort, or_false, false_or]

/-- A policy that retries for an hour, with delays of a millisecond. -/
private def hourOfRetries : RetryPolicy :=
  { initialDelay := 1000000, maxDelay := 1000000, maxElapsed := hour, grow := fun d => d }

/-- A response at the zero time with a `Retry-After` header. -/
private def responding (status : Int) (header : String) : Round :=
  { answer := .response status "" (parseRetryAfter (fun _ => none) header 0), now := 0
    jittered := fun _ => 1000000, cancelled := none }

/-- A minute is waited for. -/
theorem retry_after_honoured_minute :
    (responding 429 "60", RoundEnd.again (60 * second) 1000000) ∈
      postTurns ⟨"1", "secret"⟩ hourOfRetries (0 + hourOfRetries.maxElapsed)
        hourOfRetries.initialDelay [responding 429 "60"] ∧
    (RoundEnd.again (60 * second) 1000000).Honours 60 := by
  have hround : postRound ⟨"1", "secret"⟩ hourOfRetries (0 + hourOfRetries.maxElapsed)
      hourOfRetries.initialDelay (responding 429 "60") = .again (60 * second) 1000000 := by
    decide +kernel
  have hturn : (responding 429 "60", RoundEnd.again (60 * second) 1000000) ∈
      postTurns ⟨"1", "secret"⟩ hourOfRetries (0 + hourOfRetries.maxElapsed)
        hourOfRetries.initialDelay [responding 429 "60"] := by
    rw [postTurns, hround]
    exact List.mem_cons_self
  refine ⟨hturn, (retry_after_honoured_iff _ _ _ _ _ hturn (fun _ => none) "" "60" 0 60 rfl
    (by decide) (by decide) ?_).mpr (Or.inl (by decide))⟩
  intro delay
  show (1000000 : Int) ≤ maxInt64
  decide

/-- **A wait of centuries becomes one of a third of a second**: the next request follows after
290 ms, where the header asked for 18446744074 s. -/
theorem retry_after_wraps :
    atoi (trimSpace "18446744074") = some 18446744074 ∧
    (postTurns ⟨"1", "secret"⟩ hourOfRetries hour 1000000
      [responding 429 "18446744074", responding 200 ""]).map Prod.snd =
        [.again 290448384 1000000, .returned none] ∧
    ¬ (RoundEnd.again 290448384 1000000).Honours 18446744074 := by
  refine ⟨by decide, by decide +kernel, ?_⟩
  unfold RoundEnd.Honours second
  omega

end GenaiBridge
