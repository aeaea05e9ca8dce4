import Mathlib.Data.Nat.Digits.Lemmas
import FailurePlayground.Lib.Bytes

namespace FailurePlayground.Numeral

/-!
# Printed numbers

The bytes that `printf` produces for the integer conversions, and how a reader
gets the numbers back.
-/

/-- The digit characters `0` to `9` and `a` to `f`. -/
def digit (value : Nat) : UInt8 :=
  if value < 10 then
    UInt8.ofNat (48 + value)
  else
    UInt8.ofNat (87 + value)

/-- `%u`, `%llu`: the decimal numeral without leading zeros. -/
def decimal (value : Nat) : List UInt8 :=
  if value = 0 then
    [digit 0]
  else
    (Nat.digits 10 value).reverse.map digit

/-- `%lld`: a minus sign before the numeral of a negative number. -/
def signed (value : Int) : List UInt8 :=
  if value < 0 then
    Bytes.ascii "-" ++ decimal value.natAbs
  else
    decimal value.natAbs

/-- `%04x`: the last four hexadecimal digits, with leading zeros. -/
def hex4 (value : Nat) : List UInt8 :=
  [digit (value / 4096 % 16), digit (value / 256 % 16),
    digit (value / 16 % 16), digit (value % 16)]

/-- A left-justified field such as `%-8s`. -/
def padRight (width : Nat) (bytes : List UInt8) : List UInt8 :=
  bytes ++ List.replicate (width - bytes.length) 32

/-- The characters `0` to `9`. -/
def isDigit (byte : UInt8) : Bool :=
  48 ≤ byte && byte ≤ 57

/-- The number a decimal numeral stands for. -/
def ofDecimal (numeral : List UInt8) : Nat :=
  numeral.foldl (fun value byte => 10 * value + (byte.toNat - 48)) 0

/-- The value of a hexadecimal digit of either case. -/
def hexValue? (byte : UInt8) : Option Nat :=
  if isDigit byte then
    some (byte.toNat - 48)
  else if 97 ≤ byte ∧ byte ≤ 102 then
    some (byte.toNat - 87)
  else if 65 ≤ byte ∧ byte ≤ 70 then
    some (byte.toNat - 55)
  else
    none

section Digits

variable {value : Nat}

theorem isDigit_digit : value < 10 → isDigit (digit value) = true := by
  revert value
  decide

theorem toNat_digit : value < 10 → (digit value).toNat - 48 = value := by
  revert value
  decide

theorem hexValue?_digit :
    value < 16 → hexValue? (digit value) = some value := by
  revert value
  decide

theorem digit_ne_zero :
    value < 10 → value ≠ 0 → digit value ≠ 48 := by
  revert value
  decide

end Digits

/-- A numeral is `0`, or its first digit is not. -/
theorem decimal_cases (value : Nat) :
    decimal value = [48] ∨
      ∃ first rest,
        first < 10 ∧ first ≠ 0 ∧ decimal value = digit first :: rest := by
  unfold decimal
  split
  · exact Or.inl rfl
  · rename_i nonzero
    right
    have nonempty : Nat.digits 10 value ≠ [] :=
      Nat.digits_ne_nil_iff_ne_zero.mpr nonzero
    rw [← List.dropLast_append_getLast nonempty, List.reverse_append,
      List.reverse_singleton, List.singleton_append, List.map_cons]
    exact ⟨_, _,
      Nat.digits_lt_base (by decide) (List.getLast_mem nonempty),
      Nat.getLast_digit_ne_zero 10 nonzero, rfl⟩

/-- A numeral consists of digits. -/
theorem isDigit_of_mem_decimal
    {value : Nat}
    {byte : UInt8}
    (member : byte ∈ decimal value) :
    isDigit byte = true := by
  unfold decimal at member
  split at member
  · rw [List.mem_singleton] at member
    rw [member]
    exact isDigit_digit (by decide)
  · obtain ⟨place, within, rfl⟩ := List.mem_map.mp member
    exact isDigit_digit
      (Nat.digits_lt_base (by decide) (List.mem_reverse.mp within))

/-- A signed numeral consists of digits, and of a minus sign. -/
theorem forall_mem_signed
    {good : UInt8 → Prop}
    (minus : good 45)
    (digits : ∀ byte, isDigit byte = true → good byte)
    {value : Int} :
    ∀ byte ∈ signed value, good byte := by
  have magnitude :
      ∀ byte ∈ decimal value.natAbs, good byte := by
    intro byte member
    exact digits byte (isDigit_of_mem_decimal member)
  have sign : Bytes.ascii "-" = [45] := by
    decide +kernel
  unfold signed
  split
  · rw [sign, List.singleton_append, List.forall_mem_cons]
    exact ⟨minus, magnitude⟩
  · exact magnitude

/-- Digits read from the last one up make the number they are digits of. -/
theorem foldr_digit
    {places : List Nat}
    (small : ∀ place ∈ places, place < 10) :
    places.foldr
        (fun place value => 10 * value + ((digit place).toNat - 48)) 0 =
      Nat.ofDigits 10 places := by
  induction places with
  | nil =>
      rfl
  | cons place rest inductionHypothesis =>
      rw [List.foldr_cons, Nat.ofDigits_cons,
        inductionHypothesis fun other member =>
          small other (List.mem_cons_of_mem place member),
        toNat_digit (small place List.mem_cons_self)]
      exact Nat.add_comm _ _

/-- Reading a numeral gives the number it was printed from. -/
@[simp] theorem ofDecimal_decimal (value : Nat) :
    ofDecimal (decimal value) = value := by
  unfold ofDecimal decimal
  split
  · rename_i zero
    rw [zero]
    rfl
  · rw [List.foldl_map, List.foldl_reverse,
      foldr_digit fun place member =>
        Nat.digits_lt_base (by decide) member,
      Nat.ofDigits_digits]

/-- The four hexadecimal digits of a 16-bit number read back as it. -/
theorem hex4_digits
    {value : Nat}
    (fits : value < 65536) :
    4096 * (value / 4096 % 16) + 256 * (value / 256 % 16) +
        16 * (value / 16 % 16) + value % 16 =
      value := by
  omega

end FailurePlayground.Numeral
