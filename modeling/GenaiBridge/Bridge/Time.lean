/-
Instants and durations, as `time.Time` and `time.Duration` compute with them.

An instant is an `Int`: nanoseconds since 0001-01-01T00:00:00Z, the zero
`time.Time`.  Every instant the bridge computes is in UTC, so the location a
`time.Time` carries plays no part.  A duration is an `Int` of nanoseconds, an
`int64` in the source: `wrap64` is the wrap of its arithmetic and `Time.sub` the
saturation of `Time.Sub`.
-/
import Mathlib.Order.Basic
import Mathlib.Algebra.Order.Ring.Int

namespace GenaiBridge

/-- `math.MaxInt64`. -/
def maxInt64 : Int := 9223372036854775807

/-- `math.MinInt64`. -/
def minInt64 : Int := -9223372036854775808

/-- The `int64` an arithmetic result wraps to. -/
def wrap64 (n : Int) : Int := (n + 9223372036854775808) % 18446744073709551616 - 9223372036854775808

theorem wrap64_of_mem {n : Int} (hlo : minInt64 ≤ n) (hhi : n ≤ maxInt64) : wrap64 n = n := by
  unfold wrap64
  unfold minInt64 at hlo
  unfold maxInt64 at hhi
  omega

theorem wrap64_eq_iff {m n : Int} : wrap64 m = wrap64 n ↔ 18446744073709551616 ∣ m - n := by
  unfold wrap64
  omega

/-- `time.Second`. -/
def second : Int := 1000000000

/-- `time.Minute`. -/
def minute : Int := 60000000000

/-- `time.Hour`. -/
def hour : Int := 3600000000000

/-- 290 years, of 366 days each: less than the longest `Duration`. -/
def years290 : Int := 290 * 366 * 24 * hour

/-- The decimals of `n` in `digits` places, without zeros at the end. -/
def fractionText (n digits : Nat) : String :=
  let decimals := (Nat.toDigits 10 (10 ^ digits + n)).tail
  let kept := (decimals.reverse.dropWhile (· = '0')).reverse
  if kept.isEmpty then "" else "." ++ String.ofList kept

/-- `time.Duration.String`. -/
def durationText (d : Int) : String :=
  let sign := if d < 0 then "-" else ""
  let u := d.natAbs
  if u = 0 then "0s"
  else if u < 1000 then sign ++ toString u ++ "ns"
  else if u < 1000000 then sign ++ toString (u / 1000) ++ fractionText (u % 1000) 3 ++ "µs"
  else if u < 1000000000 then
    sign ++ toString (u / 1000000) ++ fractionText (u % 1000000) 6 ++ "ms"
  else
    let secs := u / 1000000000
    let s := toString (secs % 60) ++ fractionText (u % 1000000000) 9 ++ "s"
    let m := toString (secs / 60 % 60) ++ "m" ++ s
    if 3600 ≤ secs then sign ++ toString (secs / 3600) ++ "h" ++ m
    else if 60 ≤ secs then sign ++ m
    else sign ++ s

namespace Time

/-- The Unix epoch, 1970-01-01T00:00:00Z, as an instant. -/
def unixEpoch : Int := 62135596800000000000

/-- `t.IsZero()`. -/
def isZero (t : Int) : Bool := t == 0

/-- `t.Sub(u)`: the difference, saturated to what a `Duration` can hold. -/
def sub (t u : Int) : Int := max minInt64 (min maxInt64 (t - u))

/-- `t.Add(-d)`.  The least duration is its own negation. -/
def addNeg (t d : Int) : Int := if d = minInt64 then t + d else t - d

theorem addNeg_le_addNeg {t u : Int} (h : t ≤ u) (d : Int) : addNeg t d ≤ addNeg u d := by
  unfold addNeg
  split <;> omega

theorem addNeg_of_ne {d : Int} (h : d ≠ minInt64) (t : Int) : addNeg t d = t - d := if_neg h

theorem addNeg_of_nonneg {d : Int} (h : 0 ≤ d) (t : Int) : addNeg t d = t - d :=
  addNeg_of_ne (by unfold minInt64; omega) t

/-- `t.Truncate(d)`: rounded down to a multiple of `d` since the zero time. -/
def truncate (t d : Int) : Int := if d ≤ 0 then t else t - t % d

/-- `t.UnixNano()`: the `int64` it wraps to outside the years 1678 to 2262. -/
def unixNano (t : Int) : Int := wrap64 (t - unixEpoch)

theorem unixNano_eq_iff {t u : Int} :
    unixNano t = unixNano u ↔ 18446744073709551616 ∣ t - u := by
  unfold unixNano
  rw [wrap64_eq_iff, sub_sub_sub_cancel_right]

/-- The instants whose `UnixNano` is the number it stands for. -/
def InUnixNanoRange (t : Int) : Prop := minInt64 ≤ t - unixEpoch ∧ t - unixEpoch ≤ maxInt64

theorem unixNano_of_inRange {t : Int} (h : InUnixNanoRange t) : unixNano t = t - unixEpoch :=
  wrap64_of_mem h.1 h.2

end Time

end GenaiBridge
