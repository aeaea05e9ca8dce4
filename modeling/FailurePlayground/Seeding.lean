import Mathlib.Data.Finite.Prod
import FailurePlayground.ChaosNet
import FailurePlayground.Lib.Words

namespace FailurePlayground

/-!
# Seeding

A run derives four generators from its seed.  Seeding and stepping are made of
invertible operations on words, so distinct seeds give distinct states, and
generators in distinct states never meet.
-/

section Invertible

/-- The finaliser of `splitmix64`. -/
def finalise (z : UInt64) : UInt64 :=
  let z := (z ^^^ (z >>> 30)) * 0xBF58476D1CE4E5B9
  let z := (z ^^^ (z >>> 27)) * 0x94D049BB133111EB
  z ^^^ (z >>> 31)

/-- The step of the counter of `splitmix64`. -/
def gamma : UInt64 := 0x9E3779B97F4A7C15

/-- `splitmix64` finalises its advanced counter. -/
theorem splitmix64_eq (st : UInt64) :
    splitmix64 st = (finalise (st + gamma), st + gamma) := rfl

/-- The finaliser is made of three shifts and two invertible factors. -/
theorem finalise_injective : Function.Injective finalise := by
  have first := Words.xor_shiftRight_injective (k := 30) (by decide)
  have second := Words.xor_shiftRight_injective (k := 27) (by decide)
  have third := Words.xor_shiftRight_injective (k := 31) (by decide)
  have factor :
      Function.Injective fun z : UInt64 => z * 0xBF58476D1CE4E5B9 :=
    Words.mul_injective
      (by decide : 0xBF58476D1CE4E5B9 * (0x96DE1B173F119089 : UInt64) = 1)
  have lastFactor :
      Function.Injective fun z : UInt64 => z * 0x94D049BB133111EB :=
    Words.mul_injective
      (by decide : 0x94D049BB133111EB * (0x319642B2D24D8EC3 : UInt64) = 1)
  exact third.comp
    (lastFactor.comp (second.comp (factor.comp first)))

/-- The seed after the remapping of zero. -/
def effectiveSeed (seed : UInt64) : UInt64 :=
  if seed = 0 then 0xDEADBEEFDEADBEEF else seed

/-- The first two words of a seeded generator. -/
theorem pgXoshSeed_words (seed : UInt64) :
    (pgXoshSeed seed).s0 = finalise (effectiveSeed seed + gamma) ∧
      (pgXoshSeed seed).s1 =
        finalise (effectiveSeed seed + gamma + gamma) := by
  simp only [pgXoshSeed, splitmix64_eq, effectiveSeed, and_self]

/-- Seeds that stay distinct after the remapping give distinct states. -/
theorem effectiveSeed_of_pgXoshSeed
    {first second : UInt64}
    (same : pgXoshSeed first = pgXoshSeed second) :
    effectiveSeed first = effectiveSeed second := by
  have words := congrArg PgXosh.s0 same
  rw [(pgXoshSeed_words first).1, (pgXoshSeed_words second).1] at words
  exact (UInt64.add_left_inj gamma).mp (finalise_injective words)

/-- The state no generator may be in. -/
def zeroState : PgXosh where
  s0 := 0
  s1 := 0
  s2 := 0
  s3 := 0

/-- Two successive counters are not both finalised to zero. -/
theorem pgXoshSeed_ne_zeroState (seed : UInt64) :
    pgXoshSeed seed ≠ zeroState := by
  intro zero
  have first := congrArg PgXosh.s0 zero
  have second := congrArg PgXosh.s1 zero
  rw [(pgXoshSeed_words seed).1] at first
  rw [(pgXoshSeed_words seed).2] at second
  have counters := finalise_injective (first.trans second.symm)
  have moved : gamma = 0 := by
    have shifted :
        effectiveSeed seed + gamma + 0 =
          effectiveSeed seed + gamma + gamma := by
      rw [UInt64.add_zero]
      exact counters
    exact ((UInt64.add_right_inj _).mp shifted).symm
  exact absurd moved (by decide)

/-- The advanced generator. -/
def advance (r : PgXosh) : PgXosh :=
  (pgXoshNext r).2

/-- The words of the advanced generator. -/
theorem advance_words (r : PgXosh) :
    (advance r).s0 = r.s0 ^^^ (r.s3 ^^^ r.s1) ∧
      (advance r).s1 = r.s1 ^^^ (r.s2 ^^^ r.s0) ∧
      (advance r).s2 = (r.s2 ^^^ r.s0) ^^^ (r.s1 <<< 17) ∧
      (advance r).s3 = rotl (r.s3 ^^^ r.s1) 45 :=
  ⟨rfl, rfl, rfl, rfl⟩

/-- The update of `pg_xosh_next` can be undone word by word. -/
theorem advance_injective : Function.Injective advance := by
  intro first second same
  obtain ⟨firstS0, firstS1, firstS2, firstS3⟩ := advance_words first
  obtain ⟨secondS0, secondS1, secondS2, secondS3⟩ :=
    advance_words second
  have words0 := firstS0.symm.trans (same ▸ secondS0)
  have words1 := firstS1.symm.trans (same ▸ secondS1)
  have words2 := firstS2.symm.trans (same ▸ secondS2)
  have words3 := firstS3.symm.trans (same ▸ secondS3)
  have mixed : first.s3 ^^^ first.s1 = second.s3 ^^^ second.s1 :=
    Words.rotation_injective (k := 45) (by decide) (by decide) words3
  rw [mixed, UInt64.xor_left_inj] at words0
  -- The words `s1` and `s2` differ from `s1 ^ (s1 << 17)` by the same word.
  have shifted :
      first.s1 ^^^ (first.s1 <<< 17) =
        second.s1 ^^^ (second.s1 <<< 17) := by
    calc
      first.s1 ^^^ (first.s1 <<< 17) =
          (first.s1 ^^^ (first.s2 ^^^ first.s0)) ^^^
            ((first.s2 ^^^ first.s0) ^^^ (first.s1 <<< 17)) := by
        rw [UInt64.xor_assoc, ← UInt64.xor_assoc (first.s2 ^^^ first.s0),
          UInt64.xor_self, UInt64.zero_xor]
      _ =
          (second.s1 ^^^ (second.s2 ^^^ second.s0)) ^^^
            ((second.s2 ^^^ second.s0) ^^^ (second.s1 <<< 17)) := by
        rw [words1, words2]
      _ = second.s1 ^^^ (second.s1 <<< 17) := by
        rw [UInt64.xor_assoc,
          ← UInt64.xor_assoc (second.s2 ^^^ second.s0),
          UInt64.xor_self, UInt64.zero_xor]
  have sameS1 : first.s1 = second.s1 :=
    Words.xor_shiftLeft_injective (k := 17) (by decide) shifted
  rw [sameS1, UInt64.xor_right_inj, words0, UInt64.xor_left_inj] at words1
  rw [sameS1, UInt64.xor_left_inj] at mixed
  cases first
  cases second
  simp only [PgXosh.mk.injEq]
  exact ⟨words0, sameS1, words1, mixed⟩

instance finitePgXosh : Finite PgXosh :=
  Finite.of_injective
    (fun r => ((r.s0, r.s1), (r.s2, r.s3)))
    (by
      rintro ⟨a0, a1, a2, a3⟩ ⟨b0, b1, b2, b3⟩ same
      simp only [Prod.mk.injEq] at same
      obtain ⟨⟨rfl, rfl⟩, rfl, rfl⟩ := same
      rfl)

/-- The update permutes the states. -/
theorem advance_bijective : Function.Bijective advance :=
  Function.Injective.bijective_of_finite advance_injective

/-- The zero state stays where it is, so no other state leads to it. -/
theorem advance_iterate_ne_zeroState
    {r : PgXosh}
    (nonzero : r ≠ zeroState)
    (steps : Nat) :
    advance^[steps] r ≠ zeroState := by
  intro zero
  have fixed : advance^[steps] zeroState = zeroState :=
    Function.iterate_fixed rfl steps
  exact nonzero (advance_injective.iterate steps (zero.trans fixed.symm))

end Invertible

section Run

/-- The generators of a run. -/
inductive Generator where
  | context
  | clock
  | proxy (x : ChaosNet.End)
  deriving Repr, DecidableEq

namespace Generator

/-- The mask a generator's seed is derived with. -/
def mask : Generator → UInt64
  | .context => 0
  | .clock => 0xC10CC10CC10CC10C
  | .proxy x => x.seedMask

/-- The generator as `pg_run_start` and `chaos_net_pair` seed it. -/
def seeded (seed : UInt64) : Generator → PgXosh
  | .context => pgXoshSeed seed
  | .clock => pgXoshSeed (seed ^^^ 0xC10CC10CC10CC10C)
  | .proxy x => ChaosNet.Pair.rngOf seed x

/-- Every generator's seed is the run's seed under its mask. -/
theorem seeded_eq (seed : UInt64) (g : Generator) :
    g.seeded seed = pgXoshSeed (seed ^^^ g.mask) := by
  cases g with
  | context =>
      rw [mask, UInt64.xor_zero]
      rfl
  | clock | proxy x =>
      rfl

/-- The masks differ, and no two differ by the replacement for zero. -/
theorem mask_apart
    {g h : Generator}
    (different : g ≠ h) :
    g.mask ≠ h.mask ∧ g.mask ^^^ h.mask ≠ 0xDEADBEEFDEADBEEF := by
  rcases g with _ | _ | _ | _ <;> rcases h with _ | _ | _ | _
  all_goals
    first
    | exact absurd rfl different
    | exact ⟨by decide, by decide⟩

end Generator

/-- Seeds under two such masks stay distinct after the remapping. -/
theorem effectiveSeed_apart
    {first second : UInt64}
    (different : first ≠ second)
    (apart : first ^^^ second ≠ 0xDEADBEEFDEADBEEF)
    (seed : UInt64) :
    effectiveSeed (seed ^^^ first) ≠ effectiveSeed (seed ^^^ second) := by
  intro same
  have distinct : seed ^^^ first ≠ seed ^^^ second :=
    fun equal => different ((UInt64.xor_right_inj _).mp equal)
  unfold effectiveSeed at same
  by_cases firstZero : seed ^^^ first = 0
  · obtain rfl := UInt64.xor_eq_zero_iff.mp firstZero
    have secondNonzero : seed ^^^ second ≠ 0 :=
      fun zero => distinct (firstZero.trans zero.symm)
    rw [if_pos firstZero, if_neg secondNonzero] at same
    exact apart same.symm
  · by_cases secondZero : seed ^^^ second = 0
    · obtain rfl := UInt64.xor_eq_zero_iff.mp secondZero
      rw [if_neg firstZero, if_pos secondZero,
        UInt64.xor_comm] at same
      exact apart same
    · rw [if_neg firstZero, if_neg secondZero] at same
      exact distinct same

/-- A run's generators are never in one state, and never in the zero state. -/
structure Sound (seed : UInt64) : Prop where
  apart :
    ∀ (g h : Generator) (steps : Nat),
      g ≠ h →
      advance^[steps] (g.seeded seed) ≠ advance^[steps] (h.seeded seed)
  nonzero :
    ∀ (g : Generator) (steps : Nat),
      advance^[steps] (g.seeded seed) ≠ zeroState

/--
For every run seed the derived generators start apart and stay apart; distinct
non-zero seeds give distinct states, and the update permutes the states.
-/
theorem seedingSound (seed : UInt64) :
    Sound seed ∧
      (∀ first second : UInt64,
        first ≠ 0 → second ≠ 0 → first ≠ second →
        pgXoshSeed first ≠ pgXoshSeed second) ∧
      Function.Bijective fun r => (pgXoshNext r).2 := by
  refine ⟨⟨?_, ?_⟩, ?_, advance_bijective⟩
  · intro g h steps different same
    have states := advance_injective.iterate steps same
    rw [g.seeded_eq, h.seeded_eq] at states
    obtain ⟨masks, apart⟩ := Generator.mask_apart different
    exact effectiveSeed_apart masks apart seed
      (effectiveSeed_of_pgXoshSeed states)
  · intro g steps
    rw [g.seeded_eq]
    exact advance_iterate_ne_zeroState (pgXoshSeed_ne_zeroState _) steps
  · intro first second firstNonzero secondNonzero different same
    have seeds := effectiveSeed_of_pgXoshSeed same
    rw [effectiveSeed, effectiveSeed, if_neg firstNonzero,
      if_neg secondNonzero] at seeds
    exact different seeds

end Run

end FailurePlayground
