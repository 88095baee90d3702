/-
Instants as RFC 3339 texts.

An instant is its number of nanoseconds since 0001-01-01T00:00:00Z.  `formatNano`
writes it in UTC with the fraction its nanoseconds need, `formatSec` with whole
seconds.  `parse` reads either, and what else a lenient parser of this layout takes:
an hour of one digit, a comma before the fraction, a fraction of any length (cut at
nanoseconds), and a numeric zone offset.

`parse_formatNano` is the round trip for the years the layout can write.
-/
import GenaiBridge.Lib.Civil
import GenaiBridge.Lib.Decimal
import Mathlib.Data.List.DropRight

namespace Lib.Rfc3339

def nanosPerSecond : Int := 1000000000

def nanosPerDay : Int := 86400000000000

/-- The year of an instant. -/
def year (t : Int) : Int := (civil (t / nanosPerDay)).1

/-- A later instant is in no earlier year. -/
theorem year_mono {t u : Int} (h : t ≤ u) : year t ≤ year u :=
  yearDay_mono (Int.ediv_le_ediv (by decide) h)

/-! ### Writing -/

/-- A year: at least four digits, and a sign if it is before year 0. -/
def formatYear (y : Int) : List Char :=
  if y < 0 then '-' :: padded 4 y.natAbs else padded 4 y.natAbs

/-- The fraction of a second, without trailing zeros and not at all if it is zero. -/
def formatFraction (nanos : Nat) : List Char :=
  let digits := (padded 9 nanos).rdropWhile (· = '0')
  if digits.isEmpty then [] else '.' :: digits

/-- An instant in UTC, given how its fraction of a second is written. -/
def formatWith (fraction : Nat → List Char) (t : Int) : List Char :=
  let (y, m, d) := civil (t / nanosPerDay)
  let ns := (t % nanosPerDay).toNat
  formatYear y ++ '-' :: padded 2 m ++ '-' :: padded 2 d
    ++ 'T' :: padded 2 (ns / 3600000000000) ++ ':' :: padded 2 (ns / 60000000000 % 60)
    ++ ':' :: padded 2 (ns / 1000000000 % 60) ++ fraction (ns % 1000000000) ++ ['Z']

/-- Layout `2006-01-02T15:04:05.999999999Z07:00`. -/
def formatNano (t : Int) : List Char := formatWith formatFraction t

/-- Layout `2006-01-02T15:04:05Z07:00`. -/
def formatSec (t : Int) : List Char := formatWith (fun _ => []) t

/-! ### Reading -/

/-- A number of exactly `w` digits. -/
def readFixed (w : Nat) (l : List Char) : Option (Nat × List Char) :=
  if l.length < w then none else (readNat (l.take w)).map fun n => (n, l.drop w)

/-- An hour: two digits, or one. -/
def readHour (l : List Char) : Option (Nat × List Char) := (readFixed 2 l).or (readFixed 1 l)

/-- One fixed character. -/
def expect (c : Char) : List Char → Option (List Char)
  | [] => none
  | c' :: l => if c' = c then some l else none

/-- The fraction of a second if there is one, cut at nanoseconds. -/
def readFraction : List Char → Nat × List Char
  | c :: d :: l =>
    if (c = '.' ∨ c = ',') ∧ d.isDigit then
      let digits := (d :: l).takeWhile Char.isDigit
      let kept := digits.take 9
      (Nat.ofDigitChars 10 kept 0 * 10 ^ (9 - kept.length), (d :: l).dropWhile Char.isDigit)
    else (0, c :: d :: l)
  | l => (0, l)

/-- The zone offset, in minutes east of UTC. -/
def readZone : List Char → Option (Int × List Char)
  | 'Z' :: l => some (0, l)
  | sign :: l => do
      let (h, l) ← readFixed 2 l
      let l ← expect ':' l
      let (m, l) ← readFixed 2 l
      if 24 < h ∨ 60 < m then none
      else if sign = '+' then some (60 * (h : Int) + m, l)
      else if sign = '-' then some (-(60 * (h : Int) + m), l)
      else none
  | [] => none

/-- The date at the front of a text. -/
def readDate (l : List Char) : Option ((Int × Nat × Nat) × List Char) := do
  let (y, l) ← readFixed 4 l
  let l ← expect '-' l
  let (m, l) ← readFixed 2 l
  let l ← expect '-' l
  let (d, l) ← readFixed 2 l
  if 1 ≤ m ∧ m ≤ 12 ∧ 1 ≤ d ∧ (d : Int) ≤ daysIn (isLeap y) m then some ((y, m, d), l) else none

/-- The time of day at the front of a text, in nanoseconds. -/
def readClock (l : List Char) : Option (Int × List Char) := do
  let (h, l) ← readHour l
  let l ← expect ':' l
  let (mi, l) ← readFixed 2 l
  let l ← expect ':' l
  let (s, l) ← readFixed 2 l
  let (ns, l) := readFraction l
  if h < 24 ∧ mi < 60 ∧ s < 60 then
    some ((((h * 60 + mi) * 60 + s) * 1000000000 + ns : Nat), l)
  else none

/-- Read an instant. -/
def parse (l : List Char) : Option Int := do
  let ((y, m, d), l) ← readDate l
  let l ← expect 'T' l
  let (clock, l) ← readClock l
  let (zone, l) ← readZone l
  if l.isEmpty then some (ofCivil y m d * nanosPerDay + clock - zone * 60 * nanosPerSecond)
  else none

/-! ### Reading what was written -/

theorem readFixed_padded {w n : Nat} (hw : 0 < w) (h : n < 10 ^ w) (rest : List Char) :
    readFixed w (padded w n ++ rest) = some (n, rest) := by
  have hlen := padded_length hw h
  unfold readFixed
  rw [if_neg (by rw [List.length_append]; omega), List.take_append_of_le_length (by omega),
    List.take_of_length_le (by omega), readNat_padded, List.drop_append_of_le_length (by omega),
    List.drop_of_length_le (by omega)]
  rfl

theorem readHour_padded {n : Nat} (h : n < 100) (rest : List Char) :
    readHour (padded 2 n ++ rest) = some (n, rest) := by
  rw [readHour, readFixed_padded (by omega) (by omega)]
  rfl

@[simp] theorem expect_self (c : Char) (l : List Char) : expect c (c :: l) = some l := by
  simp [expect]

theorem readFraction_zone (rest : List Char) : readFraction ('Z' :: rest) = (0, 'Z' :: rest) := by
  cases rest with
  | nil => rfl
  | cons d l => simp [readFraction]

/-- The digits a fraction is written with, and the zeros left off after them. -/
private theorem padded_eq_digits (nanos : Nat) : ∃ k,
    padded 9 nanos = (padded 9 nanos).rdropWhile (· = '0') ++ List.replicate k '0' := by
  refine ⟨((padded 9 nanos).rtakeWhile (· = '0')).length, ?_⟩
  have hzeros : (padded 9 nanos).rtakeWhile (· = '0')
      = List.replicate ((padded 9 nanos).rtakeWhile (· = '0')).length '0' := by
    refine List.eq_replicate_iff.mpr ⟨rfl, fun c hc => ?_⟩
    simpa using List.mem_rtakeWhile_imp hc
  rw [← hzeros, List.rdropWhile_append_rtakeWhile]

theorem readFraction_formatFraction {nanos : Nat} (h : nanos < 10 ^ 9) (rest : List Char) :
    readFraction (formatFraction nanos ++ 'Z' :: rest) = (nanos, 'Z' :: rest) := by
  obtain ⟨k, hk⟩ := padded_eq_digits nanos
  unfold formatFraction
  generalize hds : (padded 9 nanos).rdropWhile (· = '0') = digits at hk
  have hlen : digits.length + k = 9 := by
    have := congrArg List.length hk
    rw [padded_length (by omega) h, List.length_append, List.length_replicate] at this
    omega
  have hdigit : ∀ c ∈ digits, c.isDigit = true := fun c hc =>
    isDigit_of_mem_padded (w := 9) (n := nanos) (by rw [hk]; exact List.mem_append_left _ hc)
  have hval : Nat.ofDigitChars 10 digits 0 * 10 ^ k = nanos := by
    have := ofDigitChars_padded 9 nanos
    rw [hk, Nat.ofDigitChars_append, Nat.ofDigitChars_replicate_zero] at this
    rw [Nat.mul_comm]
    exact this
  cases digits with
  | nil =>
    have hz : nanos = 0 := by rw [← hval]; simp [Nat.ofDigitChars_nil]
    rw [hz]
    exact readFraction_zone rest
  | cons d ds =>
    have htake : (d :: ds ++ 'Z' :: rest).takeWhile Char.isDigit = d :: ds := by
      rw [List.takeWhile_append_of_pos hdigit]
      simp
    have hdrop : (d :: ds ++ 'Z' :: rest).dropWhile Char.isDigit = 'Z' :: rest := by
      rw [List.dropWhile_append_of_pos hdigit]
      simp
    have hd : d.isDigit = true := hdigit d (by simp)
    simp only [List.isEmpty_cons, Bool.false_eq_true, if_false, List.cons_append, readFraction,
      hd, true_or, and_self, if_true]
    rw [← List.cons_append, htake, hdrop, List.take_of_length_le (by omega)]
    rw [show 9 - (d :: ds).length = k by omega, hval]

theorem readDate_civil {n : Int} (h0 : 0 ≤ (civil n).1) (h1 : (civil n).1 ≤ 9999)
    (rest : List Char) :
    readDate (formatYear (civil n).1 ++ '-' :: (padded 2 (civil n).2.1 ++
      '-' :: (padded 2 (civil n).2.2 ++ rest))) = some (civil n, rest) := by
  obtain ⟨hm, hm', hd, hd'⟩ := civil_valid n
  have h31 := daysIn_le (isLeap (civil n).1) hm hm'
  have hy : (((civil n).1.natAbs : Nat) : Int) = (civil n).1 := Int.natAbs_of_nonneg h0
  unfold readDate formatYear
  rw [if_neg (by omega)]
  simp only [Option.bind_eq_bind, readFixed_padded (w := 4) (n := (civil n).1.natAbs) (by omega)
    (by omega), readFixed_padded (w := 2) (n := (civil n).2.1) (by omega) (by omega),
    readFixed_padded (w := 2) (n := (civil n).2.2) (by omega) (by omega), Option.bind_some,
    expect_self, hy]
  rw [if_pos ⟨hm, hm', hd, hd'⟩]

theorem readClock_padded {ns k : Nat} (h : ns < 86400000000000) {fraction rest : List Char}
    (hf : readFraction (fraction ++ rest) = (k, rest)) :
    readClock (padded 2 (ns / 3600000000000) ++ ':' :: (padded 2 (ns / 60000000000 % 60) ++
      ':' :: (padded 2 (ns / 1000000000 % 60) ++ (fraction ++ rest))))
      = some (((ns / 1000000000 * 1000000000 + k : Nat) : Int), rest) := by
  unfold readClock
  simp only [Option.bind_eq_bind, readHour_padded (n := ns / 3600000000000) (by omega),
    readFixed_padded (w := 2) (n := ns / 60000000000 % 60) (by omega) (by omega),
    readFixed_padded (w := 2) (n := ns / 1000000000 % 60) (by omega) (by omega),
    Option.bind_some, expect_self, hf]
  rw [if_pos (by omega)]
  simp only [Option.some.injEq, Prod.mk.injEq, and_true, Int.ofNat_inj]
  omega

/-- What a written instant reads as, given what its fraction reads as. -/
theorem parse_formatWith {fraction : Nat → List Char} {t : Int} {k : Nat} (h0 : 0 ≤ year t)
    (h1 : year t ≤ 9999)
    (hf : readFraction (fraction ((t % nanosPerDay).toNat % 1000000000) ++ ['Z']) = (k, ['Z'])) :
    parse (formatWith fraction t) = some (t - t % nanosPerSecond + k) := by
  unfold year at h0 h1
  have hns : (t % nanosPerDay).toNat < 86400000000000 := by unfold nanosPerDay; omega
  have hdate := ofCivil_civil (t / nanosPerDay)
  unfold parse formatWith
  simp only [List.append_assoc, List.cons_append]
  rw [readDate_civil h0 h1]
  simp only [Option.bind_eq_bind, Option.bind_some, expect_self]
  rw [readClock_padded hns hf]
  simp only [Option.bind_some, readZone, List.isEmpty_nil, if_true, Option.some.injEq]
  rw [hdate]
  unfold nanosPerDay nanosPerSecond at *
  omega

/-- **An instant of the years 0 to 9999 survives being written and read.** -/
theorem parse_formatNano {t : Int} (h0 : 0 ≤ year t) (h1 : year t ≤ 9999) :
    parse (formatNano t) = some t := by
  rw [formatNano, parse_formatWith h0 h1 (readFraction_formatFraction (by omega) [])]
  unfold nanosPerDay nanosPerSecond
  congr 1
  omega

private theorem readDate_sign (rest : List Char) : readDate ('-' :: rest) = none := by
  have hyear : readFixed 4 ('-' :: rest) = none := by
    unfold readFixed
    split_ifs
    · rfl
    · simp [readNat]
  unfold readDate
  rw [hyear]
  rfl

private theorem readDate_long {n : Nat} (h : 9999 < n) (rest : List Char) :
    readDate (padded 4 n ++ rest) = none := by
  have hlen : 4 < (padded 4 n).length := by
    have hdigits := (Nat.length_toDigits_le_iff (b := 10) (n := n) (k := 4) (by omega)
      (by omega)).not.mpr (by omega)
    simp only [padded, List.length_append]
    omega
  obtain ⟨c, tail, htail⟩ := List.exists_cons_of_ne_nil
    (List.ne_nil_of_length_pos (l := (padded 4 n).drop 4) (by rw [List.length_drop]; omega))
  have hdigit : c.isDigit = true := by
    refine isDigit_of_mem_padded (w := 4) (n := n) (List.mem_of_mem_drop (i := 4) ?_)
    rw [htail]
    exact List.mem_cons_self
  -- the year ends before a digit, not before a hyphen
  have hexpect : expect '-' (c :: (tail ++ rest)) = none := by
    refine if_neg ?_
    rintro rfl
    cases hdigit
  unfold readDate readFixed
  rw [if_neg (by rw [List.length_append]; omega), List.drop_append_of_le_length (by omega), htail,
    List.cons_append]
  cases readNat ((padded 4 n ++ rest).take 4) with
  | none => rfl
  | some y =>
    simp only [Option.map_some, Option.bind_eq_bind, Option.bind_some, hexpect, Option.bind_none]

/-- A year outside of four digits is not read back. -/
theorem parse_formatNano_eq_none {t : Int} (h : ¬(0 ≤ year t ∧ year t ≤ 9999)) :
    parse (formatNano t) = none := by
  by_cases h0 : 0 ≤ year t
  · have h1 : ¬year t ≤ 9999 := fun h1 => h ⟨h0, h1⟩
    unfold year at h0 h1
    unfold formatNano formatWith parse formatYear
    simp only [List.append_assoc, if_neg (not_lt.mpr h0)]
    rw [readDate_long (by omega)]
    rfl
  · unfold year at h0
    unfold formatNano formatWith parse formatYear
    simp only [List.append_assoc, if_pos (not_le.mp h0), List.cons_append]
    rw [readDate_sign]
    rfl

/-- **What was written is read as it was, or not at all.** -/
theorem eq_of_parse_formatNano {t u : Int} (h : parse (formatNano t) = some u) : u = t := by
  by_cases hyear : 0 ≤ year t ∧ year t ≤ 9999
  · rw [parse_formatNano hyear.1 hyear.2] at h
    exact (Option.some.inj h).symm
  · rw [parse_formatNano_eq_none hyear] at h
    cases h

end Lib.Rfc3339
