/-
Binary64 numbers and the decimals that stand for them.

A magnitude is a fraction of natural numbers.  `Binary64.ofDecimal` rounds a decimal
literal to the nearest number, ties to even, and fails beyond the largest one.
`Binary64.shortest` writes a number without an exponent, with the fewest digits that
are read as the same number.
-/
import GenaiBridge.Lib.Decimal

namespace Lib

/-- A finite binary64 number, `mantissa * 2 ^ exponent` with a sign. -/
structure Binary64 where
  negative : Bool
  mantissa : Nat
  exponent : Int
deriving DecidableEq, Repr

namespace Binary64

/-- `b ^ e` as a fraction. -/
def powFraction (b : Nat) (e : Int) : Nat × Nat :=
  if 0 ≤ e then (b ^ e.toNat, 1) else (1, b ^ (-e).toNat)

/-- A fraction to the nearest natural number, ties to even. -/
def roundEven (num den : Nat) : Nat :=
  let whole := num / den
  let rest := num % den
  if 2 * rest < den ∨ (2 * rest = den ∧ whole % 2 = 0) then whole else whole + 1

/-- The exponent of the power of two at or below a fraction that is not zero. -/
def log2 (num den : Nat) : Int :=
  let e : Int := Nat.log2 num - Nat.log2 den
  let (p, q) := powFraction 2 e
  if p * den ≤ num * q then e else e - 1

/-- The magnitude nearest to a fraction, if it is not too large. -/
def ofFraction (num den : Nat) : Option (Nat × Int) :=
  if num = 0 then some (0, -1074)
  else
    let e := max (log2 num den - 52) (-1074)
    let (p, q) := powFraction 2 e
    let m := roundEven (num * q) (den * p)
    -- a mantissa that is rounded up may need another bit
    let (m, e) := if m = 2 ^ 53 then (2 ^ 52, e + 1) else (m, e)
    if 971 < e then none else some (m, e)

/-- The digits of a decimal literal and the exponent of its last digit. -/
def digits (literal : List Char) : Nat × Int :=
  let significand := literal.takeWhile fun c => c ≠ 'e' ∧ c ≠ 'E'
  let whole := significand.takeWhile (· ≠ '.')
  let fraction := (significand.drop whole.length).drop 1
  let exponent := (readInt (literal.drop (significand.length + 1))).getD 0
  (Nat.ofDigitChars 10 (whole ++ fraction) 0, exponent - fraction.length)

/-- The number nearest to a literal of the JSON grammar. -/
def ofDecimal (literal : List Char) : Option Binary64 :=
  let negative := literal.head? = some '-'
  let (n, e) := digits (if negative then literal.tail else literal)
  let size := (Nat.toDigits 10 n).length + e
  -- far outside the range there is nothing to round
  if n = 0 ∨ size < -330 then some ⟨negative, 0, -1074⟩
  else if 310 < size then none
  else
    let (p, q) := powFraction 10 e
    (ofFraction (n * p) q).map fun r => ⟨negative, r.1, r.2⟩

/-- The decimal of `n` digits nearest to a fraction below `10 ^ (k + 1)` that is read as `r`. -/
def nearestOf (r : Nat × Int) (num den : Nat) (k : Int) (n : Nat) : Option (Nat × Int) :=
  let e := k - (n - 1)
  let (p, q) := powFraction 10 e
  let below := num * q / (den * p)
  let reads (d : Nat) : Bool := ofFraction (d * p) q = some r
  -- twice the distance to the number below, against the distance between the two
  let near := 2 * (num * q % (den * p)) ≤ den * p
  if reads below ∧ (near ∨ !reads (below + 1)) then some (below, e)
  else if reads (below + 1) then
    some (if below + 1 = 10 ^ n then (10 ^ (n - 1), e + 1) else (below + 1, e))
  else none

/-- Digits without an exponent. -/
def plain (d : Nat) (e : Int) : List Char :=
  if 0 ≤ e then Nat.toDigits 10 (d * 10 ^ e.toNat)
  else
    let scale := 10 ^ (-e).toNat
    Nat.toDigits 10 (d / scale) ++ '.' :: padded (-e).toNat (d % scale)

/-- The shortest text of a number. -/
def shortest (x : Binary64) : List Char :=
  let (p, q) := powFraction 2 x.exponent
  let (num, den) := (x.mantissa * p, q)
  let magnitude :=
    if x.mantissa = 0 then ['0']
    else
      let k : Int := ((List.range 634).find? fun i =>
        let (a, b) := powFraction 10 ((i : Int) - 323)
        num * b < den * a).getD 633 - 324
      let found := (List.range 17).findSome? fun n =>
        nearestOf (x.mantissa, x.exponent) num den k (n + 1)
      -- seventeen digits are always enough
      (found.map fun r => plain r.1 r.2).getD []
  if x.negative then '-' :: magnitude else magnitude

end Binary64

end Lib
