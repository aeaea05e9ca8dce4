import Mathlib.Data.UInt

namespace FailurePlayground

/-!
# The seeded generator

xoshiro256** with splitmix64 seeding, on 64-bit words with C's wrap-around.
Every source of randomness in a run is one of these generators.
-/

/-- `pg_xosh_t`. -/
structure PgXosh where
  s0 : UInt64
  s1 : UInt64
  s2 : UInt64
  s3 : UInt64
  deriving Repr, DecidableEq

/-- Rotate a word left. -/
def rotl (x k : UInt64) : UInt64 :=
  (x <<< k) ||| (x >>> (64 - k))

/-- One splitmix64 output and the advanced state. -/
def splitmix64 (st : UInt64) : UInt64 × UInt64 :=
  let st := st + 0x9E3779B97F4A7C15
  let z := (st ^^^ (st >>> 30)) * 0xBF58476D1CE4E5B9
  let z := (z ^^^ (z >>> 27)) * 0x94D049BB133111EB
  (z ^^^ (z >>> 31), st)

/-- `pg_xosh_seed`; seed zero is replaced by a fixed constant. -/
def pgXoshSeed (seed : UInt64) : PgXosh :=
  let sm := if seed = 0 then 0xDEADBEEFDEADBEEF else seed
  let (s0, sm) := splitmix64 sm
  let (s1, sm) := splitmix64 sm
  let (s2, sm) := splitmix64 sm
  let (s3, _) := splitmix64 sm
  { s0 := s0, s1 := s1, s2 := s2, s3 := s3 }

/-- `pg_xosh_next`: the next word and the advanced generator. -/
def pgXoshNext (r : PgXosh) : UInt64 × PgXosh :=
  let result := rotl (r.s1 * 5) 7 * 9
  let t := r.s1 <<< 17
  let s2 := r.s2 ^^^ r.s0
  let s3 := r.s3 ^^^ r.s1
  let s1 := r.s1 ^^^ s2
  let s0 := r.s0 ^^^ s3
  let s2 := s2 ^^^ t
  let s3 := rotl s3 45
  (result, { s0 := s0, s1 := s1, s2 := s2, s3 := s3 })

/-- The top 53 bits of the next word, which `rand_unit` scales to [0, 1). -/
def top53 (r : PgXosh) : Nat :=
  ((pgXoshNext r).1 >>> 11).toNat

/-- Eleven bits are shifted out. -/
theorem top53_lt (r : PgXosh) : top53 r < 2 ^ 53 := by
  have bounded := (pgXoshNext r).1.toNat_lt
  have shifted :
      ((pgXoshNext r).1 >>> 11).toNat =
        (pgXoshNext r).1.toNat / 2 ^ 11 := by
    rw [UInt64.toNat_shiftRight, Nat.shiftRight_eq_div_pow]
    rfl
  rw [top53, shifted]
  omega

end FailurePlayground
