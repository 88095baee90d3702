/-
Dates of the proleptic Gregorian calendar.

A day is its number since 0001-01-01.  `civil` computes year, month and day of a day
number and `ofCivil` goes back; `ofCivil_civil` and `civil_valid` are what a
formatter and a parser of dates need of each other.  Years count in cycles of 400,
100, 4 and 1, as calendar code does, so the arithmetic is linear once the four
quotients are named.
-/
import Mathlib.Order.Basic
import Mathlib.Algebra.Order.Ring.Int
import Mathlib.Tactic.IntervalCases

namespace Lib

/-- Whether a year has a 29th of February. -/
def isLeap (y : Int) : Bool := y % 4 = 0 ∧ (y % 100 ≠ 0 ∨ y % 400 = 0)

/-- The days of a year before its month `m`. -/
def daysBefore (leap : Bool) (m : Nat) : Int :=
  let feb : Int := if leap then 1 else 0
  match m with
  | 0 | 1 => 0
  | 2 => 31
  | 3 => 59 + feb
  | 4 => 90 + feb
  | 5 => 120 + feb
  | 6 => 151 + feb
  | 7 => 181 + feb
  | 8 => 212 + feb
  | 9 => 243 + feb
  | 10 => 273 + feb
  | 11 => 304 + feb
  | 12 => 334 + feb
  | _ => 365 + feb

/-- The number of days of month `m`. -/
def daysIn (leap : Bool) (m : Nat) : Int := daysBefore leap (m + 1) - daysBefore leap m

/-- The number of the first day of a year. -/
def yearStart (y : Int) : Int := 365 * (y - 1) + (y - 1) / 4 - (y - 1) / 100 + (y - 1) / 400

/-- The number of a date. -/
def ofCivil (y : Int) (m d : Nat) : Int := yearStart y + daysBefore (isLeap y) m + (d - 1)

/-- The year of a day and the day's position in it, from 0. -/
def yearDay (n : Int) : Int × Int :=
  let n400 := n / 146097
  let r := n % 146097
  -- the last day of a cycle belongs to its last part, which is a day longer than the others
  let n100 := min (r / 36524) 3
  let r := r - 36524 * n100
  let n4 := r / 1461
  let r := r - 1461 * n4
  let n1 := min (r / 365) 3
  (400 * n400 + 100 * n100 + 4 * n4 + n1 + 1, r - 365 * n1)

/-- The last month up to `m` that has begun by a day of the year. -/
def monthUpTo (leap : Bool) (yday : Int) : Nat → Nat
  | 0 => 0
  | m + 1 => if daysBefore leap (m + 1) ≤ yday then m + 1 else monthUpTo leap yday m

/-- The month a day of the year is in. -/
def monthOf (leap : Bool) (yday : Int) : Nat := monthUpTo leap yday 12

/-- Year, month and day of a day number. -/
def civil (n : Int) : Int × Nat × Nat :=
  let (y, yday) := yearDay n
  let m := monthOf (isLeap y) yday
  (y, m, (yday - daysBefore (isLeap y) m).toNat + 1)

/-! ### The year -/

theorem yearStart_cycles {a b c d : Int} (hb : 0 ≤ b) (hb' : b ≤ 3) (hc : 0 ≤ c) (hc' : c ≤ 24)
    (hd : 0 ≤ d) (hd' : d ≤ 3) :
    yearStart (400 * a + 100 * b + 4 * c + d + 1) = 146097 * a + 36524 * b + 1461 * c + 365 * d := by
  have h4 : (400 * a + 100 * b + 4 * c + d) / 4 = 100 * a + 25 * b + c := by omega
  have h100 : (400 * a + 100 * b + 4 * c + d) / 100 = 4 * a + b := by omega
  have h400 : (400 * a + 100 * b + 4 * c + d) / 400 = a := by omega
  unfold yearStart
  rw [Int.add_sub_cancel, h4, h100, h400]
  omega

theorem yearStart_yearDay (n : Int) : yearStart (yearDay n).1 + (yearDay n).2 = n := by
  unfold yearDay
  dsimp only
  rw [yearStart_cycles] <;> omega

theorem yearDay_nonneg (n : Int) : 0 ≤ (yearDay n).2 := by
  unfold yearDay
  dsimp only
  omega

theorem isLeap_cycles {a b c d : Int} (hb : 0 ≤ b) (hb' : b ≤ 3) (hc : 0 ≤ c) (hc' : c ≤ 24)
    (hd : 0 ≤ d) (hd' : d ≤ 3) :
    isLeap (400 * a + 100 * b + 4 * c + d + 1) = true ↔ d = 3 ∧ (c ≠ 24 ∨ b = 3) := by
  simp only [isLeap, decide_eq_true_eq]
  omega

theorem daysBefore_thirteen (leap : Bool) : daysBefore leap 13 = 365 + if leap then 1 else 0 := rfl

theorem yearDay_lt (n : Int) : (yearDay n).2 < daysBefore (isLeap (yearDay n).1) 13 := by
  rw [daysBefore_thirteen]
  unfold yearDay
  dsimp only
  split
  · omega
  · rename_i hnot
    rw [isLeap_cycles (by omega) (by omega) (by omega) (by omega) (by omega) (by omega)] at hnot
    omega

theorem yearDay_year {n lo hi : Int} (hlo : yearStart lo ≤ n) (hhi : n < yearStart hi) :
    lo ≤ (yearDay n).1 ∧ (yearDay n).1 < hi := by
  have hn := yearStart_yearDay n
  have h0 := yearDay_nonneg n
  have h1 := yearDay_lt n
  rw [daysBefore_thirteen] at h1
  simp only [isLeap, decide_eq_true_eq] at h1
  unfold yearStart at hlo hhi hn
  constructor
  · by_contra hc
    split at h1 <;> omega
  · by_contra hc
    split at h1 <;> omega

/-- A year has the days of its twelve months. -/
theorem yearStart_succ (y : Int) : yearStart (y + 1) = yearStart y + daysBefore (isLeap y) 13 := by
  have h4 : y / 4 = (y - 1) / 4 + if y % 4 = 0 then 1 else 0 := by split <;> omega
  have h100 : y / 100 = (y - 1) / 100 + if y % 100 = 0 then 1 else 0 := by split <;> omega
  have h400 : y / 400 = (y - 1) / 400 + if y % 400 = 0 then 1 else 0 := by split <;> omega
  rw [daysBefore_thirteen]
  unfold yearStart isLeap
  rw [Int.add_sub_cancel, h4, h100, h400]
  simp only [decide_eq_true_eq]
  split_ifs <;> omega

/-- A later day is in no earlier year. -/
theorem yearDay_mono {m n : Int} (h : m ≤ n) : (yearDay m).1 ≤ (yearDay n).1 := by
  have hm := yearStart_yearDay m
  have h0 := yearDay_nonneg m
  have hn := yearStart_yearDay n
  have hlt : n < yearStart ((yearDay n).1 + 1) := by
    have := yearDay_lt n
    rw [yearStart_succ]
    omega
  have := (yearDay_year (show yearStart (yearDay m).1 ≤ m by omega) (lt_of_le_of_lt h hlt)).2
  omega

/-! ### The month -/

private theorem monthUpTo_spec {leap : Bool} {yday : Int} (h0 : 0 ≤ yday) :
    ∀ m, yday < daysBefore leap (m + 1) →
      1 ≤ monthUpTo leap yday m ∧ monthUpTo leap yday m ≤ m ∧
        daysBefore leap (monthUpTo leap yday m) ≤ yday ∧
        yday < daysBefore leap (monthUpTo leap yday m + 1) := by
  intro m
  induction m with
  | zero =>
    intro h
    exact absurd h (not_lt.mpr h0)
  | succ m ih =>
    intro h
    unfold monthUpTo
    split
    · rename_i hle
      exact ⟨by omega, le_refl _, hle, h⟩
    · rename_i hgt
      obtain ⟨h1, h2, h3⟩ := ih (not_le.mp hgt)
      exact ⟨h1, by omega, h3⟩

theorem monthOf_spec {leap : Bool} {yday : Int} (h0 : 0 ≤ yday) (h1 : yday < daysBefore leap 13) :
    1 ≤ monthOf leap yday ∧ monthOf leap yday ≤ 12 ∧
      daysBefore leap (monthOf leap yday) ≤ yday ∧
      yday < daysBefore leap (monthOf leap yday + 1) := monthUpTo_spec h0 12 h1

/-! ### Dates -/

theorem civil_valid (n : Int) :
    1 ≤ (civil n).2.1 ∧ (civil n).2.1 ≤ 12 ∧ 1 ≤ (civil n).2.2 ∧
      ((civil n).2.2 : Int) ≤ daysIn (isLeap (civil n).1) (civil n).2.1 := by
  obtain ⟨hm, hm', hlo, hhi⟩ := monthOf_spec (yearDay_nonneg n) (yearDay_lt n)
  unfold civil daysIn
  dsimp only
  omega

/-- **A date names its day.** -/
theorem ofCivil_civil (n : Int) : ofCivil (civil n).1 (civil n).2.1 (civil n).2.2 = n := by
  obtain ⟨hm, hm', hlo, hhi⟩ := monthOf_spec (yearDay_nonneg n) (yearDay_lt n)
  have hn := yearStart_yearDay n
  unfold ofCivil civil
  dsimp only
  omega

theorem daysIn_le (leap : Bool) {m : Nat} (h : 1 ≤ m) (h' : m ≤ 12) : daysIn leap m ≤ 31 := by
  unfold daysIn
  interval_cases m <;> cases leap <;> decide

end Lib
