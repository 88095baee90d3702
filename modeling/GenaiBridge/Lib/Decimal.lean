/-
Decimal numerals as texts.

A text is a list of characters.  `decimal` writes an integer the way programs print
one, `padded` writes a natural number with leading zeros up to a width, and the
readers are their inverses: each round trip is stated once here, so that a format
built from numerals only has to cut its text at the right places.
-/
import Mathlib.Data.Nat.Digits.Defs
import Mathlib.Data.List.Basic

namespace Lib

/-! ### Natural numbers -/

/-- Read a text of digits. -/
def readNat (l : List Char) : Option Nat :=
  if l.isEmpty || !l.all Char.isDigit then none else some (Nat.ofDigitChars 10 l 0)

/-- Write `n` with leading zeros, to at least `w` digits. -/
def padded (w n : Nat) : List Char :=
  List.replicate (w - (Nat.toDigits 10 n).length) '0' ++ Nat.toDigits 10 n

theorem isDigit_of_mem_toDigits {n : Nat} {c : Char} (h : c ∈ Nat.toDigits 10 n) :
    c.isDigit = true := Nat.isDigit_of_mem_toDigits (by omega) (by omega) h

theorem isDigit_of_mem_padded {w n : Nat} {c : Char} (h : c ∈ padded w n) :
    c.isDigit = true := by
  rcases List.mem_append.mp h with h | h
  · rw [List.eq_of_mem_replicate h]
    rfl
  · exact isDigit_of_mem_toDigits h

theorem padded_length {w n : Nat} (hw : 0 < w) (h : n < 10 ^ w) : (padded w n).length = w := by
  have hle : (Nat.toDigits 10 n).length ≤ w := Nat.toDigits_length 10 n w hw h
  simp only [padded, List.length_append, List.length_replicate]
  omega

theorem padded_ne_nil (w n : Nat) : padded w n ≠ [] := by
  simp [padded, Nat.toDigits_ne_nil]

theorem ofDigitChars_padded (w n : Nat) : Nat.ofDigitChars 10 (padded w n) 0 = n := by
  rw [padded, Nat.ofDigitChars_append, Nat.ofDigitChars_replicate_zero, Nat.mul_zero]
  exact Nat.ofDigitChars_ten_toDigits

theorem readNat_padded (w n : Nat) : readNat (padded w n) = some n := by
  unfold readNat
  have hall : (padded w n).all Char.isDigit = true :=
    List.all_eq_true.mpr fun c hc => isDigit_of_mem_padded hc
  have hne : (padded w n).isEmpty = false := by simpa using padded_ne_nil w n
  simp [hall, hne, ofDigitChars_padded]

theorem readNat_toDigits (n : Nat) : readNat (Nat.toDigits 10 n) = some n := by
  simpa [padded] using readNat_padded 0 n

/-- A numeral ends at the first character that is no digit. -/
theorem toDigits_append_inj {d : Char} (hd : d.isDigit = false) {m n : Nat} {x y : List Char}
    (h : Nat.toDigits 10 m ++ d :: x = Nat.toDigits 10 n ++ d :: y) : m = n ∧ x = y := by
  have hread : ∀ k rest, (Nat.toDigits 10 k ++ d :: rest).takeWhile Char.isDigit =
      Nat.toDigits 10 k := by
    intro k rest
    rw [List.takeWhile_append_of_pos fun c hc => isDigit_of_mem_toDigits hc,
      List.takeWhile_cons_of_neg (by simp [hd]), List.append_nil]
  have hdigits : Nat.toDigits 10 m = Nat.toDigits 10 n := by
    rw [← hread m x, h, hread]
  have hmn : some m = some n := by
    rw [← readNat_toDigits, hdigits, readNat_toDigits]
  rw [hdigits, List.append_cancel_left_eq] at h
  exact ⟨Option.some.inj hmn, (List.cons.inj h).2⟩

/-! ### Integers -/

/-- Write an integer, a minus sign in front of a negative one. -/
def decimal : Int → List Char
  | .ofNat n => Nat.toDigits 10 n
  | .negSucc n => '-' :: Nat.toDigits 10 (n + 1)

/-- Read an integer with an optional sign. -/
def readInt : List Char → Option Int
  | '-' :: l => (readNat l).map fun n => -(n : Int)
  | '+' :: l => (readNat l).map fun n => (n : Int)
  | l => (readNat l).map fun n => (n : Int)

theorem readInt_of_digit {c : Char} {l : List Char} (h : c.isDigit = true) :
    readInt (c :: l) = (readNat (c :: l)).map fun n => (n : Int) := by
  unfold readInt
  split
  · rename_i heq
    obtain ⟨rfl, -⟩ := List.cons.inj heq
    exact absurd h (by decide)
  · rename_i heq
    obtain ⟨rfl, -⟩ := List.cons.inj heq
    exact absurd h (by decide)
  · rfl

theorem readInt_decimal (i : Int) : readInt (decimal i) = some i := by
  cases i with
  | ofNat n =>
    show readInt (Nat.toDigits 10 n) = some (n : Int)
    cases hd : Nat.toDigits 10 n with
    | nil => exact absurd hd Nat.toDigits_ne_nil
    | cons c l =>
      rw [readInt_of_digit (isDigit_of_mem_toDigits (n := n) (by simp [hd])), ← hd,
        readNat_toDigits]
      rfl
  | negSucc n =>
    simp only [decimal, readInt, readNat_toDigits]
    rfl

theorem decimal_injective : Function.Injective decimal := by
  intro i j h
  exact Option.some.inj ((readInt_decimal i).symm.trans ((congrArg readInt h).trans
    (readInt_decimal j)))

/-- The digits `toString` writes. -/
theorem toList_toString (i : Int) : (toString i).toList = decimal i := by
  cases i with
  | ofNat n =>
    show (Nat.repr n).toList = _
    rw [Nat.repr_eq_ofList_toDigits, String.toList_ofList]
    rfl
  | negSucc n =>
    show ("-" ++ Nat.repr (n + 1)).toList = _
    simp [Nat.repr_eq_ofList_toDigits, decimal]

theorem mem_decimal {i : Int} {c : Char} (h : c ∈ decimal i) : c.isDigit = true ∨ c = '-' := by
  cases i with
  | ofNat n => exact .inl (isDigit_of_mem_toDigits h)
  | negSucc n => exact (List.mem_cons.mp h).symm.imp_left isDigit_of_mem_toDigits

end Lib
