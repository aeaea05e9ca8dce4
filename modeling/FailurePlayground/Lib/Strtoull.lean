import Mathlib.Data.UInt
import FailurePlayground.Lib.Numeral
import FailurePlayground.Lib.Utf8

namespace FailurePlayground.Strtoull

/-!
# Reading an unsigned number

`strtoull` with base 0: white space, a sign, a prefix that decides the base,
and as many digits as there are.  Numbers that do not fit become the largest
one, and a minus sign negates in the type.
-/

/-- `isspace`, in the C locale. -/
def isSpace (c : UInt8) : Bool :=
  c == 32 || (9 ≤ c && c ≤ 13)

/-- The sign, and what follows it. -/
def sign : List UInt8 → Bool × List UInt8
  | 45 :: rest => (true, rest)
  | 43 :: rest => (false, rest)
  | rest => (false, rest)

/-- The value of a digit of the base. -/
def digitIn? (base : Nat) (c : UInt8) : Option Nat :=
  match Numeral.hexValue? c with
  | some value => if value < base then some value else none
  | none => none

/-- The base a prefix selects, and the digits after it. -/
def splitBase : List UInt8 → Nat × List UInt8
  | 48 :: x :: first :: rest =>
      if (x = 120 ∨ x = 88) ∧ (digitIn? 16 first).isSome then
        (16, first :: rest)
      else
        (8, 48 :: x :: first :: rest)
  | 48 :: rest => (8, 48 :: rest)
  | digits => (10, digits)

/-- The number that the leading digits make after `value`. -/
def scan (base : Nat) : Nat → List UInt8 → Nat
  | value, [] => value
  | value, c :: rest =>
      match digitIn? base c with
      | some digit => scan base (base * value + digit) rest
      | none => value

/-- `strtoull(s, NULL, 0)`. -/
def strtoull (s : List UInt8) : UInt64 :=
  let (negative, unsigned) := sign (s.dropWhile isSpace)
  let (base, digits) := splitBase unsigned
  let value := scan base 0 digits
  if 2 ^ 64 ≤ value then
    UInt64.ofNat (2 ^ 64 - 1)
  else if negative then
    0 - UInt64.ofNat value
  else
    UInt64.ofNat value

section Decimal

/-- A decimal digit is neither white space nor a sign. -/
theorem plain_of_isDigit :
    ∀ c : UInt8, Numeral.isDigit c = true →
      isSpace c = false ∧ c ≠ 45 ∧ c ≠ 43 :=
  Utf8.forall_byte (by decide +kernel)

/-- A decimal digit stands for a number below ten. -/
theorem lt_ten_of_isDigit :
    ∀ c : UInt8, Numeral.isDigit c = true → c.toNat - 48 < 10 :=
  Utf8.forall_byte (by decide +kernel)

/-- Decimal digits have their value in base ten. -/
theorem digitIn?_of_isDigit
    {c : UInt8}
    (digit : Numeral.isDigit c = true) :
    digitIn? 10 c = some (c.toNat - 48) := by
  simp only [digitIn?, Numeral.hexValue?, digit, if_true,
    lt_ten_of_isDigit c digit]

/-- Digits are read as the number they stand for. -/
theorem scan_digits
    {digits : List UInt8}
    (decimal : ∀ c ∈ digits, Numeral.isDigit c = true)
    (value : Nat) :
    scan 10 value digits =
      digits.foldl (fun value c => 10 * value + (c.toNat - 48)) value := by
  induction digits generalizing value with
  | nil =>
      rfl
  | cons c rest inductionHypothesis =>
      obtain ⟨first, later⟩ := List.forall_mem_cons.mp decimal
      simp only [scan, digitIn?_of_isDigit first, List.foldl_cons]
      exact inductionHypothesis later _

/-- A numeral starts at its first character, without a sign. -/
theorem sign_dropWhile_decimal (n : Nat) :
    sign ((Numeral.decimal n).dropWhile isSpace) =
      (false, Numeral.decimal n) := by
  have digits : ∀ c ∈ Numeral.decimal n, Numeral.isDigit c = true :=
    fun _ member => Numeral.isDigit_of_mem_decimal member
  cases numeral : Numeral.decimal n with
  | nil =>
      rfl
  | cons c rest =>
      rw [numeral] at digits
      obtain ⟨noSpace, noMinus, noPlus⟩ :=
        plain_of_isDigit c (digits c List.mem_cons_self)
      rw [List.dropWhile_cons_of_neg (by simp [noSpace])]
      unfold sign
      split
      · rename_i rest' same
        exact absurd (List.cons.inj same).1 noMinus
      · rename_i rest' same
        exact absurd (List.cons.inj same).1 noPlus
      · rfl

/-- A numeral other than zero has base ten. -/
theorem splitBase_digit
    {first : Nat}
    (small : first < 10)
    (nonzero : first ≠ 0)
    (rest : List UInt8) :
    splitBase (Numeral.digit first :: rest) =
      (10, Numeral.digit first :: rest) := by
  have other := Numeral.digit_ne_zero small nonzero
  unfold splitBase
  split
  · rename_i x second rest' same
    exact absurd (List.cons.inj same).1 other
  · rename_i rest' same
    exact absurd (List.cons.inj same).1 other
  · rfl

/-- A printed number is read back, or as the largest one if it is larger. -/
theorem strtoull_decimal (n : Nat) :
    strtoull (Numeral.decimal n) = UInt64.ofNat (min n (2 ^ 64 - 1)) := by
  have value :
      scan (splitBase (Numeral.decimal n)).1 0
          (splitBase (Numeral.decimal n)).2 = n := by
    have digits : ∀ c ∈ Numeral.decimal n, Numeral.isDigit c = true :=
      fun _ member => Numeral.isDigit_of_mem_decimal member
    have read := Numeral.ofDecimal_decimal n
    rcases Numeral.decimal_cases n with
      zero | ⟨first, rest, small, nonzero, shape⟩
    · rw [zero] at read ⊢
      rw [← read]
      rfl
    · rw [shape] at digits read ⊢
      rw [splitBase_digit small nonzero]
      exact (scan_digits digits 0).trans read
  simp only [strtoull, sign_dropWhile_decimal, value]
  split
  · rename_i large
    rw [Nat.min_eq_right (by omega)]
  · rename_i fits
    rw [Nat.min_eq_left (by omega)]
    rfl

end Decimal

end FailurePlayground.Strtoull
