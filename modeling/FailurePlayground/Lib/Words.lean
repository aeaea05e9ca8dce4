import Mathlib.Data.UInt
import Mathlib.Data.Fintype.EquivFin
import Mathlib.Data.Nat.Prime.Basic
import Mathlib.Tactic.Ring

namespace FailurePlayground.Words

/-!
# Invertible operations on 64-bit words

The steps that mixing functions are made of: adding a constant, multiplying by
an odd one, combining a word with its own shift, and rotating.  None of them
loses information.
-/

instance finiteUInt64 : Finite UInt64 :=
  Finite.of_injective UInt64.toFin fun _ _ same => UInt64.toFin_inj.mp same

/-- A word with an inverse can be divided by. -/
theorem mul_injective
    {factor inverse : UInt64}
    (inverts : factor * inverse = 1) :
    Function.Injective fun x : UInt64 => x * factor := by
  intro x y same
  have cancelled := congrArg (· * inverse) same
  simpa only [UInt64.mul_assoc, inverts, UInt64.mul_one] using cancelled

/-- Only zero is its own shift to the right. -/
theorem eq_zero_of_shiftRight
    {d k : UInt64}
    (positive : 0 < k.toNat % 64)
    (fixed : d >>> k = d) :
    d = 0 := by
  have shifted := congrArg UInt64.toNat fixed
  rw [UInt64.toNat_shiftRight, Nat.shiftRight_eq_div_pow] at shifted
  apply UInt64.toNat_inj.mp
  rw [UInt64.toNat_zero]
  by_contra nonzero
  have lower :=
    Nat.div_lt_self (Nat.pos_of_ne_zero nonzero)
      (Nat.one_lt_two_pow (Nat.ne_of_gt positive))
  omega

/-- Only zero is its own shift to the left. -/
theorem eq_zero_of_shiftLeft
    {d k : UInt64}
    (positive : 0 < k.toNat % 64)
    (fixed : d <<< k = d) :
    d = 0 := by
  have shifted := congrArg UInt64.toNat fixed
  rw [UInt64.toNat_shiftLeft, Nat.shiftLeft_eq] at shifted
  have grows : 1 ≤ 2 ^ (k.toNat % 64) := Nat.one_le_two_pow
  -- `d * (2 ^ k - 1)` is a multiple of `2 ^ 64`, and the factor is odd.
  have multiple : 2 ^ 64 ∣ d.toNat * (2 ^ (k.toNat % 64) - 1) := by
    have congruent :
        d.toNat * 2 ^ (k.toNat % 64) ≡ d.toNat [MOD 2 ^ 64] := by
      rw [Nat.ModEq, shifted, Nat.mod_eq_of_lt d.toNat_lt]
    have larger :
        d.toNat ≤ d.toNat * 2 ^ (k.toNat % 64) :=
      Nat.le_mul_of_pos_right _ grows
    rw [Nat.mul_sub_one]
    exact (Nat.modEq_iff_dvd' larger).mp congruent.symm
  have odd : Odd (2 ^ (k.toNat % 64) - 1) := by
    obtain ⟨half, exponent⟩ :=
      Nat.exists_eq_succ_of_ne_zero (Nat.ne_of_gt positive)
    rw [exponent, Nat.pow_succ]
    exact ⟨2 ^ half - 1, by
      have := Nat.one_le_two_pow (n := half)
      omega⟩
  have coprime : Nat.Coprime (2 ^ 64) (2 ^ (k.toNat % 64) - 1) :=
    Nat.Coprime.pow_left 64 (Nat.coprime_two_left.mpr odd)
  have divides := coprime.dvd_of_dvd_mul_right multiple
  apply UInt64.toNat_inj.mp
  exact Nat.eq_zero_of_dvd_of_lt divides d.toNat_lt

/-- Equal combinations of words with their images have equal differences. -/
theorem xor_swap
    {x y imageX imageY : UInt64}
    (same : x ^^^ imageX = y ^^^ imageY) :
    imageX ^^^ imageY = x ^^^ y := by
  apply UInt64.xor_eq_zero_iff.mp
  rw [← UInt64.xor_eq_zero_iff.mpr same]
  ac_rfl

/-- A word is determined by its combination with its shift to the right. -/
theorem xor_shiftRight_injective
    {k : UInt64}
    (positive : 0 < k.toNat % 64) :
    Function.Injective fun x : UInt64 => x ^^^ (x >>> k) := by
  intro x y same
  have fixed : (x ^^^ y) >>> k = x ^^^ y := by
    rw [UInt64.shiftRight_xor]
    exact xor_swap same
  exact UInt64.xor_eq_zero_iff.mp (eq_zero_of_shiftRight positive fixed)

/-- A word is determined by its combination with its shift to the left. -/
theorem xor_shiftLeft_injective
    {k : UInt64}
    (positive : 0 < k.toNat % 64) :
    Function.Injective fun x : UInt64 => x ^^^ (x <<< k) := by
  intro x y same
  have fixed : (x ^^^ y) <<< k = x ^^^ y := by
    rw [UInt64.shiftLeft_xor]
    exact xor_swap same
  exact UInt64.xor_eq_zero_iff.mp (eq_zero_of_shiftLeft positive fixed)

section Rotation

variable
  {k : UInt64}
  (positive : 0 < k)
  (below : k < 64)

include below

/-- A rotation splits a word into its high and its low bits. -/
theorem two_pow_split :
    2 ^ 64 = 2 ^ k.toNat * 2 ^ (64 - k.toNat) := by
  have belowNat : k.toNat < 64 := below
  rw [← Nat.pow_add]
  congr 1
  omega

/-- The high bits of a word fit into the rotated amount. -/
theorem highBits_lt (x : UInt64) :
    x.toNat / 2 ^ (64 - k.toNat) < 2 ^ k.toNat := by
  apply Nat.div_lt_of_lt_mul
  rw [Nat.mul_comm, ← two_pow_split below]
  exact x.toNat_lt

include positive

/-- A rotation puts the high bits of a word below its low bits. -/
theorem toNat_rotation (x : UInt64) :
    ((x <<< k) ||| (x >>> (64 - k))).toNat =
      2 ^ k.toNat * (x.toNat % 2 ^ (64 - k.toNat)) +
        x.toNat / 2 ^ (64 - k.toNat) := by
  have positiveNat : 0 < k.toNat := positive
  have belowNat : k.toNat < 64 := below
  have rest : (64 - k).toNat = 64 - k.toNat :=
    UInt64.toNat_sub_of_le 64 k (UInt64.le_of_lt below)
  rw [UInt64.toNat_or, UInt64.toNat_shiftLeft, UInt64.toNat_shiftRight,
    rest, Nat.mod_eq_of_lt belowNat,
    Nat.mod_eq_of_lt (by omega : 64 - k.toNat < 64),
    Nat.shiftLeft_eq, Nat.shiftRight_eq_div_pow,
    Nat.mul_comm x.toNat, two_pow_split below, Nat.mul_mod_mul_left]
  exact (Nat.two_pow_add_eq_or_of_lt (highBits_lt below x) _).symm

/-- A rotation loses nothing. -/
theorem rotation_injective :
    Function.Injective fun x : UInt64 =>
      (x <<< k) ||| (x >>> (64 - k)) := by
  intro x y same
  have words := congrArg UInt64.toNat same
  simp only [toNat_rotation positive below] at words
  -- The low `k` bits of a rotation are the word's high bits.
  have quotients := congrArg (· % 2 ^ k.toNat) words
  simp only [Nat.mul_add_mod,
    Nat.mod_eq_of_lt (highBits_lt below _)] at quotients
  have remainders := congrArg (· / 2 ^ k.toNat) words
  simp only [Nat.mul_add_div (Nat.two_pow_pos k.toNat),
    Nat.div_eq_of_lt (highBits_lt below _), Nat.add_zero] at remainders
  apply UInt64.toNat_inj.mp
  rw [← Nat.div_add_mod x.toNat (2 ^ (64 - k.toNat)), quotients,
    remainders, Nat.div_add_mod]

end Rotation

end FailurePlayground.Words
