import FailurePlayground.EmitHelpers
import FailurePlayground.Lib.Numeral
import FailurePlayground.Rand

namespace FailurePlayground.ClockJump

/-!
# The clock that jumps backward

`cj_run` waits 100 ms by a clock that is set back 30 s while it waits.  Both
readings are unsigned, so the elapsed time after the jump is not negative: it
is larger than any timeout.
-/

/-- `struct timespec`. -/
structure Timespec where
  tvSec : Int64
  tvNsec : Int64
  deriving Repr, DecidableEq

/-- The nanoseconds that a reading stands for. -/
def Timespec.ns (reading : Timespec) : Int :=
  reading.tvSec.toInt * 1000000000 + reading.tvNsec.toInt

/-- `g_clock_skew_ns`, `g_clock_jitter_max_ns` and `g_clock_rng`. -/
structure ChaosClock where
  skewNs : Int64
  jitterMaxNs : UInt64
  rng : PgXosh
  deriving Repr, DecidableEq

/-- `chaos_clock_now_ns`, given what `clock_gettime` reads. -/
def chaosClockNowNs
    (clock : ChaosClock)
    (reading : Timespec) : UInt64 × ChaosClock :=
  let base := reading.tvSec * 1000000000 + reading.tvNsec
  let base := base + clock.skewNs
  if clock.jitterMaxNs > 0 then
    let (word, rng) := pgXoshNext clock.rng
    let j := (word % clock.jitterMaxNs).toInt64
    ((base + j).toUInt64, { clock with rng := rng })
  else
    (base.toUInt64, clock)

/-- `chaos_clock_skew_set`. -/
def chaosClockSkewSet (clock : ChaosClock) (offsetNs : Int64) : ChaosClock :=
  { clock with skewNs := offsetNs }

@[simp] theorem jitterMaxNs_chaosClockSkewSet
    (clock : ChaosClock)
    (offsetNs : Int64) :
    (chaosClockSkewSet clock offsetNs).jitterMaxNs = clock.jitterMaxNs :=
  rfl

@[simp] theorem skewNs_chaosClockSkewSet
    (clock : ChaosClock)
    (offsetNs : Int64) :
    (chaosClockSkewSet clock offsetNs).skewNs = offsetNs :=
  rfl

/-- `chaos_clock_seed`. -/
def chaosClockSeed (clock : ChaosClock) (seed : UInt64) : ChaosClock :=
  { clock with rng := pgXoshSeed seed }

/-- The clock of a child that has just been forked and seeded. -/
def childClock (seed : UInt64) : ChaosClock :=
  chaosClockSeed
    { skewNs := 0
      jitterMaxNs := 0
      rng := { s0 := 1, s1 := 2, s2 := 3, s3 := 4 } }
    (seed ^^^ 0xC10CC10CC10CC10C)

/-- `chaos_clock_now_ns() - start < 100ULL * 1000000ULL`. -/
def timeoutTest
    (clock : ChaosClock)
    (start : UInt64)
    (reading : Timespec) : Bool × ChaosClock :=
  let (now, clock) := chaosClockNowNs clock reading
  (now - start < 100 * 1000000, clock)

/-- The skew that the scenario applies. -/
def jump : Int64 := -30 * 1000000000

/-- `"loop_terminated"`. -/
def loopTerminated : Option (List UInt8) :=
  some (Bytes.ascii "loop_terminated")

/-- The message of the fault. -/
def didNotTerminate : Option (List UInt8) :=
  some (Bytes.ascii
    "loop did NOT terminate -- skew broke the timeout math")

/-- What the timeout loop leaves: its counter, the clock and its reports. -/
structure LoopEnd where
  iters : Nat
  clock : ChaosClock
  emits : List Emit
  deriving Repr, DecidableEq

variable (readings : Nat → Timespec) (start : UInt64)

/-- The timeout loop of `cj_run`, from a numbered reading of the clock on. -/
def timeoutLoop :
    (fuel test : Nat) → ChaosClock → (iters : Nat) → (bumped : Bool) →
      Option LoopEnd
  | 0, _, _, _, _ => none
  | fuel + 1, test, clock, iters, bumped =>
      let (goesOn, clock) := timeoutTest clock start (readings test)
      if goesOn then
        let iters := iters + 1
        if iters = 1000 ∧ ¬ bumped then do
          let left ←
            timeoutLoop fuel (test + 1) (chaosClockSkewSet clock jump)
              iters true
          some { left with
            emits :=
              .logf (Bytes.ascii
                "  ...someone bumps the clock backward 30s mid-loop") ::
                left.emits }
        else if iters > 100000000 then
          some { iters := iters, clock := clock, emits := [] }
        else
          timeoutLoop fuel (test + 1) clock iters bumped
      else
        some { iters := iters, clock := clock, emits := [] }

/-- What `cj_run` reports around the loop. -/
def cjReports (iters : Nat) (mid : List Emit) : List Emit :=
  let terminated : Int64 := if iters ≤ 100000000 then 1 else 0
  let verdict : List Emit :=
    if terminated = 0 then
      [.sutFault didNotTerminate,
        .logf (Bytes.ascii
          "the timeout used `now - start`. After the skew, now < start,"),
        .logf (Bytes.ascii
          "so the elapsed time is negative and the loop runs forever.")]
    else
      [.logf (Bytes.ascii "loop terminated after " ++
        Numeral.decimal iters ++
        Bytes.ascii " iterations (safety net engaged)")]
  [.phase (some (Bytes.ascii
      "naive timeout: while (now - start < 100ms)")),
    .logf (Bytes.ascii
      "we'll start the loop, then have someone jump the clock " ++
      Bytes.ascii "backward 30s."),
    .expect loopTerminated 1] ++
    mid ++
    [.actual loopTerminated terminated,
      .count (some (Bytes.ascii "iterations")) (Int64.ofNat iters)] ++
    verdict

/-- `cj_run`: its reports and the clock it leaves. -/
def cjRun (fuel : Nat) (clock : ChaosClock) :
    Option (List Emit × ChaosClock) := do
  let (start, clock) := chaosClockNowNs clock (readings 0)
  let left ← timeoutLoop readings start fuel 1 clock 0 false
  some (cjReports left.iters left.emits, chaosClockSkewSet left.clock 0)

/-- The readings of a clock that only goes forward, in a run of under 30 s. -/
structure Orderly : Prop where
  wellFormed :
    ∀ i, 0 ≤ (readings i).tvNsec ∧ (readings i).tvNsec < 1000000000
  forward : ∀ i, (readings i).ns ≤ (readings (i + 1)).ns
  late : 30 * 1000000000 ≤ (readings 0).ns
  /-- The thousandth iteration starts within 100 ms. -/
  reached : (readings 1000).ns < (readings 0).ns + 100 * 1000000
  short : ∀ i, (readings i).ns < (readings 0).ns + 30 * 1000000000

/--
The run demonstrates the hang: after the jump the loop's test holds for ever,
so that only the safety net ends the loop and the fault is reported.
-/
structure DemonstratesHang (clock : ChaosClock) : Prop where
  goesOn :
    ∀ i, 1000 < i →
      (timeoutTest (chaosClockSkewSet clock jump)
        (chaosClockNowNs clock (readings 0)).1 (readings i)).1 = true
  reported :
    ∃ fuel emits after,
      cjRun readings fuel clock = some (emits, after) ∧
        .actual loopTerminated 0 ∈ emits ∧
        .sutFault didNotTerminate ∈ emits

section Elapsed

variable {clock : ChaosClock}

/-- Without jitter a reading is the time and the skew, modulo 2^64. -/
theorem chaosClockNowNs_eq
    (still : clock.jitterMaxNs = 0)
    (reading : Timespec) :
    (((chaosClockNowNs clock reading).1.toNat : Int) =
        (reading.ns + clock.skewNs.toInt) % 2 ^ 64) ∧
      (chaosClockNowNs clock reading).2 = clock := by
  have base :
      reading.tvSec * 1000000000 + reading.tvNsec + clock.skewNs =
        Int64.ofInt (reading.ns + clock.skewNs.toInt) := by
    rw [Timespec.ns, Int64.ofInt_add, Int64.ofInt_add, Int64.ofInt_mul,
      Int64.ofInt_toInt, Int64.ofInt_toInt, Int64.ofInt_toInt]
    rfl
  unfold chaosClockNowNs
  rw [still, if_neg (by decide), base]
  refine ⟨?_, rfl⟩
  change (((Int64.ofInt _).toBitVec.toNat : Nat) : Int) = _
  rw [Int64.toBitVec_ofInt, BitVec.toNat_ofInt]
  omega

/-- The test compares the elapsed time and the skew, modulo 2^64. -/
theorem timeoutTest_eq
    (still : clock.jitterMaxNs = 0)
    {start : UInt64}
    {first : Int}
    (started : (start.toNat : Int) = first % 2 ^ 64)
    (reading : Timespec) :
    timeoutTest clock start reading =
      (decide
        ((reading.ns + clock.skewNs.toInt - first) % 2 ^ 64 < 100000000),
        clock) := by
  obtain ⟨now, same⟩ := chaosClockNowNs_eq still reading
  have elapsed :
      ((chaosClockNowNs clock reading).1 - start <
          (100 * 1000000 : UInt64)) ↔
        (reading.ns + clock.skewNs.toInt - first) % 2 ^ 64 < 100000000 := by
    have small := (chaosClockNowNs clock reading).1.toNat_lt
    have limit : (100 * 1000000 : UInt64).toNat = 100000000 := by decide
    rw [UInt64.lt_iff_toNat_lt, UInt64.toNat_sub, limit]
    omega
  unfold timeoutTest
  simp only [same, elapsed]

end Elapsed

section Run

variable
  {readings : Nat → Timespec}
  {start : UInt64}
  {clock : ChaosClock}

/-- Later readings are no earlier. -/
theorem Orderly.mono
    (orderly : Orderly readings)
    {i j : Nat}
    (before : i ≤ j) :
    (readings i).ns ≤ (readings j).ns := by
  induction before with
  | refl =>
      exact Int.le_refl _
  | step _ inductionHypothesis =>
      exact Int.le_trans inductionHypothesis (orderly.forward _)

/-- The start of the scenario on a clock without skew. -/
structure Started
    (readings : Nat → Timespec)
    (clock : ChaosClock)
    (start : UInt64) : Prop where
  still : clock.jitterMaxNs = 0
  unskewed : clock.skewNs = 0
  start : (start.toNat : Int) = (readings 0).ns % 2 ^ 64

/-- The first reading of a clock without skew or jitter. -/
theorem started_of_unskewed
    (readings : Nat → Timespec)
    (still : clock.jitterMaxNs = 0)
    (unskewed : clock.skewNs = 0) :
    Started readings clock (chaosClockNowNs clock (readings 0)).1 where
  still := still
  unskewed := unskewed
  start := by
    have zero : clock.skewNs.toInt = 0 := by
      rw [unskewed]
      rfl
    rw [(chaosClockNowNs_eq still (readings 0)).1, zero, Int.add_zero]

/-- Until the thousandth iteration the test holds. -/
theorem Started.goesOn
    (started : Started readings clock start)
    (orderly : Orderly readings)
    {i : Nat}
    (early : i ≤ 1000) :
    timeoutTest clock start (readings i) = (true, clock) := by
  have low := orderly.mono (Nat.zero_le i)
  have high := Int.lt_of_le_of_lt (orderly.mono early) orderly.reached
  have unskewed : clock.skewNs.toInt = 0 := by
    rw [started.unskewed]
    rfl
  have elapsed :
      ((readings i).ns + clock.skewNs.toInt - (readings 0).ns) % 2 ^ 64 <
        100000000 := by
    omega
  rw [timeoutTest_eq started.still started.start, decide_eq_true elapsed]

/-- A time of under 30 s, set back by 30 s, wraps to one above 100 ms. -/
theorem elapsed_wraps
    {first now : Int}
    (low : first ≤ now)
    (high : now < first + 30 * 1000000000) :
    ¬ (now + -30 * 1000000000 - first) % 2 ^ 64 < 100000000 := by
  omega

/-- After the jump the elapsed time has wrapped, and the test fails. -/
theorem Started.stops
    (started : Started readings clock start)
    (orderly : Orderly readings)
    (i : Nat) :
    timeoutTest (chaosClockSkewSet clock jump) start (readings i) =
      (false, chaosClockSkewSet clock jump) := by
  have skew :
      (chaosClockSkewSet clock jump).skewNs.toInt = -30 * 1000000000 := by
    rw [skewNs_chaosClockSkewSet]
    rfl
  have still : (chaosClockSkewSet clock jump).jitterMaxNs = 0 := by
    rw [jitterMaxNs_chaosClockSkewSet, started.still]
  have wrapped :=
    elapsed_wraps (orderly.mono (Nat.zero_le i)) (orderly.short i)
  rw [timeoutTest_eq still started.start, skew, decide_eq_false wrapped]

/-- The iterations before the jump only count. -/
theorem Started.counts
    (started : Started readings clock start)
    (orderly : Orderly readings)
    (fuel : Nat)
    {iters : Nat}
    (early : iters < 1000) :
    timeoutLoop readings start (fuel + iters) 1 clock 0 false =
      timeoutLoop readings start fuel (iters + 1) clock iters false := by
  induction iters generalizing fuel with
  | zero =>
      rfl
  | succ iters inductionHypothesis =>
      have next : iters + 1 ≠ 1000 := Nat.ne_of_lt early
      have net : ¬ iters + 1 > 100000000 := by omega
      have fuels : fuel + (iters + 1) = fuel + 1 + iters := by omega
      rw [fuels, inductionHypothesis (fuel + 1) (by omega), timeoutLoop,
        started.goesOn orderly (by omega)]
      simp only [↓reduceIte, next, false_and, net]

/-- The loop ends at the first test after the jump. -/
theorem Started.ends
    (started : Started readings clock start)
    (orderly : Orderly readings)
    {fuel : Nat}
    (enough : 1001 ≤ fuel) :
    timeoutLoop readings start fuel 1 clock 0 false =
      some {
        iters := 1000
        clock := chaosClockSkewSet clock jump
        emits :=
          [.logf (Bytes.ascii
            "  ...someone bumps the clock backward 30s mid-loop")] } := by
  obtain ⟨more, rfl⟩ := Nat.exists_eq_add_of_le enough
  have split : 1001 + more = more + 2 + 999 := by omega
  rw [split, started.counts orderly (more + 2) (by decide), timeoutLoop,
    started.goesOn orderly (by decide)]
  simp only [↓reduceIte, Bool.false_eq_true, not_false_eq_true, and_self]
  rw [timeoutLoop, started.stops orderly]
  simp

/-- The run reports a loop that ended after a thousand iterations. -/
theorem cjRun_eq
    (orderly : Orderly readings)
    (still : clock.jitterMaxNs = 0)
    (unskewed : clock.skewNs = 0)
    {fuel : Nat}
    (enough : 1001 ≤ fuel) :
    cjRun readings fuel clock =
      some
        (cjReports 1000
          [.logf (Bytes.ascii
            "  ...someone bumps the clock backward 30s mid-loop")],
          clock) := by
  have started := started_of_unskewed readings still unskewed
  have same := (chaosClockNowNs_eq still (readings 0)).2
  have reset :
      chaosClockSkewSet (chaosClockSkewSet clock jump) 0 = clock := by
    rw [← unskewed, chaosClockSkewSet, chaosClockSkewSet]
  simp only [cjRun, same, started.ends orderly enough,
    Option.bind_eq_bind, Option.bind_some, reset]

end Run

/-- A freshly seeded clock has no jitter. -/
theorem jitterMaxNs_childClock (seed : UInt64) :
    (childClock seed).jitterMaxNs = 0 :=
  rfl

/-- A freshly seeded clock has no skew. -/
theorem skewNs_childClock (seed : UInt64) :
    (childClock seed).skewNs = 0 :=
  rfl

/--
Whatever the clock reads, the loop ends at its first test after the jump: the
test fails from then on, a terminated loop of a thousand iterations is
reported and no fault, and so the hang is never demonstrated.
-/
theorem cjRun_never_hangs
    (readings : Nat → Timespec)
    (orderly : Orderly readings)
    (seed : UInt64) :
    (∀ i, 1000 < i →
      (timeoutTest (chaosClockSkewSet (childClock seed) jump)
        (chaosClockNowNs (childClock seed) (readings 0)).1
        (readings i)).1 = false) ∧
      (∀ fuel, 1001 ≤ fuel →
        ∃ emits,
          cjRun readings fuel (childClock seed) =
              some (emits, childClock seed) ∧
            .actual loopTerminated 1 ∈ emits ∧
            .count (some (Bytes.ascii "iterations")) 1000 ∈ emits ∧
            .actual loopTerminated 0 ∉ emits ∧
            .sutFault didNotTerminate ∉ emits) ∧
      ¬ DemonstratesHang readings (childClock seed) := by
  have still := jitterMaxNs_childClock seed
  have unskewed := skewNs_childClock seed
  have started := started_of_unskewed readings still unskewed
  refine ⟨?_, ?_, ?_⟩
  · intro i _
    rw [started.stops orderly]
  · intro fuel enough
    exact
      ⟨_, cjRun_eq orderly still unskewed enough, by decide +kernel⟩
  · intro demonstrates
    have holds := demonstrates.goesOn 1001 (by decide)
    rw [started.stops orderly] at holds
    exact absurd holds Bool.false_ne_true

/-- A clock that reads 30 s all the time. -/
def steadyClock (_ : Nat) : Timespec where
  tvSec := 30
  tvNsec := 0

theorem cjRun_never_hangs_steady :
    ∃ emits,
      cjRun steadyClock 1001 (childClock 7) =
          some (emits, childClock 7) ∧
        .actual loopTerminated 1 ∈ emits := by
  have steady : ∀ i, steadyClock i = steadyClock 0 := fun _ => rfl
  have orderly : Orderly steadyClock := {
    wellFormed := by
      intro i
      rw [steady i]
      decide
    forward := fun _ => Int.le_refl _
    late := by decide
    reached := by decide
    short := by
      intro i
      rw [steady i]
      decide
  }
  obtain ⟨emits, ran, terminated, _⟩ :=
    (cjRun_never_hangs steadyClock orderly 7).2.1 1001 (by decide)
  exact ⟨emits, ran, terminated⟩

/-- On that clock the test fails as soon as the clock has jumped. -/
theorem jump_ends_loop :
    ¬ DemonstratesHang steadyClock (childClock 7) := by
  intro demonstrates
  exact absurd (demonstrates.goesOn 1001 (by decide)) (by decide +kernel)

end FailurePlayground.ClockJump
