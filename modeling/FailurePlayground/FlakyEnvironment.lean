import FailurePlayground.ClockJump
import FailurePlayground.IoPrepared
import FailurePlayground.Lib.Transition

namespace FailurePlayground.FlakyEnvironment

/-!
# The heartbeat in a flaky environment

A loop works, syncs slowly, and sleeps until its next deadline, by a clock
that is ahead of the time by up to 2 ms, by another amount at every reading.
After a sleep the clock may say that the deadline is still to come; the loop
then sleeps once more.  A signal whose handler was inherited ends a sleep
early, which a sync does not notice.

The sockets have room for one byte a tick, read or not, so nothing else is
waited for until everything is taken down; the pair and its drainer are beside
this thread.
-/

open ClockJump
open ChaosIo (Client)

/-- The constants of `run`. -/
structure Setup where
  ticks : Nat
  targetMs : Nat
  fsyncDelay : UInt64
  jitter : UInt64
  ticksPositive : 0 < ticks
  /-- A sync takes longer than the clock can be wrong. -/
  slow : jitter.toNat ≤ fsyncDelay.toNat
  small : ticks * targetMs * 1000000 + jitter.toNat < 2 ^ 62

/-- `TICKS`, `TARGET_MS`, `FSYNC_DELAY_MS` and `JITTER_MS`. -/
def flaky : Setup where
  ticks := 20
  targetMs := 100
  fsyncDelay := 15 * 1000000
  jitter := 2 * 1000000
  ticksPositive := by decide
  slow := by decide
  small := by decide

/-- Where the main thread stands in `run`. -/
inductive Stage where
  | pairing
  | opening
  | settingDelay
  | settingJitter
  | announcing
  | starting
  | writing (i : Nat)
  | syncing (i : Nat)
  | sleepingSync (i wakeAt : Nat)
  | checking (i : Nat)
  | sleeping (i wakeAt : Nat)
  | stamping (i : Nat)
  | reporting
  | calming
  | closing (rc : Int)
  | returned (rc : Int)
  deriving Repr, DecidableEq

/-- The loop of `run` before iteration `i`; it counts from one. -/
def Stage.loopHead (ticks i : Nat) : Stage :=
  if i ≤ ticks then .writing i else .reporting

/-- The monotonic clock, the chaos clock, the file, and the variables of `run`. -/
structure State where
  now : Nat
  clock : ChaosClock
  client : Client
  main : Stage
  start : UInt64
  prev : UInt64
  minMs : Int
  maxMs : Int
  sumMs : Int
  reports : List Emit

/--
The next step, with what its call answers; a signal ends a sleep; time passes.
-/
inductive Label where
  | main (answer : Option Nat)
  | cutSync
  | cutSleep
  | tick (ns : Nat)
  deriving Repr, DecidableEq

section Reports

/-- `"max_tick_ms"`. -/
def maxKey : Option (List UInt8) :=
  some (Bytes.ascii "max_tick_ms")

/-- What `run` reports before its loop. -/
def flakyPreamble (setup : Setup) : List Emit :=
  [.phase (some (Bytes.ascii
      "20 'heartbeats' supposed to fire every 100ms")),
    .logf (Bytes.ascii
      "each tick: net write (~3ms delay) + fsync (~15ms) + sleep to deadline"),
    .expect maxKey (Int64.ofNat setup.targetMs)]

/-- What `run` reports after its loop. -/
def flakyReport (setup : Setup) (minMs maxMs sumMs : Int) : List Emit :=
  let meanMs := sumMs.tdiv setup.ticks
  [.actual maxKey (Int64.ofInt maxMs),
    .gauge (some (Bytes.ascii "min_tick_ms")) (Int64.ofInt minMs),
    .gauge maxKey (Int64.ofInt maxMs),
    .gauge (some (Bytes.ascii "mean_tick_ms")) (Int64.ofInt meanMs),
    .logf (Bytes.ascii "target=" ++ Numeral.signed setup.targetMs ++
      Bytes.ascii " ms  min=" ++ Numeral.signed minMs ++
      Bytes.ascii "  mean=" ++ Numeral.signed meanMs ++
      Bytes.ascii "  max=" ++ Numeral.signed maxMs),
    .logf (Bytes.ascii
      "naive heartbeat code assumes jitter <= budget; " ++
      Bytes.ascii "in prod the outliers will timeout you.")]

end Reports

/-- `CLOCK_MONOTONIC` after so many nanoseconds. -/
def monotonic (ns : Nat) : Timespec where
  tvSec := Int64.ofNat (ns / 1000000000)
  tvNsec := Int64.ofNat (ns % 1000000000)

/-- `chaos_clock_jitter_set`. -/
def chaosClockJitterSet (clock : ChaosClock) (maxNs : UInt64) : ChaosClock :=
  { clock with jitterMaxNs := maxNs }

/-- The bytes that iteration `i` writes. -/
def payload (i : Nat) : List UInt8 :=
  List.replicate 64 (65 + UInt8.ofNat (i % 26))

/-- `deadline`. -/
def deadline (setup : Setup) (start : UInt64) (i : Nat) : UInt64 :=
  start + UInt64.ofNat i * UInt64.ofNat setup.targetMs * 1000000

/-- `dt`. -/
def tickMs (now prev : UInt64) : Int :=
  ((now - prev) / 1000000).toInt64.toInt

namespace State

/-- A failed call ends `run`. -/
def giveUp (state : State) (main : Stage) (what : String) : State :=
  { state with
    main := main
    reports := state.reports ++ [.sutFault (some (Bytes.ascii what))] }

/-- What `chaos_clock_now_ns` returns now. -/
def reading (state : State) : UInt64 × ChaosClock :=
  chaosClockNowNs state.clock (monotonic state.now)

/-- A step of `run`. -/
def mainStep?
    (setup : Setup)
    (state : State)
    (answer : Option Nat) : Option State :=
  match state.main with
  | .pairing =>
      if answer.isSome then
        some { state with main := .opening }
      else
        some (state.giveUp (.returned 1) "chaos_net_pair failed")
  | .opening =>
      let fd : Int := answer.elim (-1) Nat.cast
      match ChaosIo.chaosIoOpen state.client.slots fd with
      | (slots, .opened fd) =>
          some { state with
            main := .settingDelay
            client := Client.start slots fd }
      | (_, .failed) | (_, .emfile) =>
          some (state.giveUp (.closing 1) "chaos_io_open failed")
  | .settingDelay =>
      let slots :=
        ChaosIo.chaosIoSetFsyncDelay state.client.slots
          state.client.fd setup.fsyncDelay
      some { state with
        main := .settingJitter
        client := { state.client with slots := slots } }
  | .settingJitter =>
      some { state with
        main := .announcing
        clock := chaosClockJitterSet state.clock setup.jitter }
  | .announcing =>
      some { state with
        main := .starting
        reports := state.reports ++ flakyPreamble setup }
  | .starting =>
      some { state with
        main := Stage.loopHead setup.ticks 1
        clock := state.reading.2
        start := state.reading.1
        prev := state.reading.1
        minMs := 2 ^ 62
        maxMs := 0
        sumMs := 0 }
  | .writing i =>
      let kernel := fun want =>
        answer.map fun room => min want (UInt64.ofNat room)
      some { state with
        main := .syncing i
        client := (state.client.write (payload i) kernel).1 }
  | .syncing i =>
      let delay :=
        ChaosIo.chaosIoFsyncDelay state.client.slots state.client.fd
      if delay > 0 then
        some { state with
          main := .sleepingSync i (state.now + delay.toNat) }
      else
        some { state with main := .checking i }
  | .sleepingSync i wakeAt =>
      if wakeAt ≤ state.now then
        some { state with main := .checking i }
      else
        none
  | .checking i =>
      let due := deadline setup state.start i
      if state.reading.1 ≥ due then
        some { state with
          main := .stamping i
          clock := state.reading.2 }
      else
        let remaining := due - state.reading.1
        some { state with
          main := .sleeping i (state.now + remaining.toNat)
          clock := state.reading.2 }
  | .sleeping i wakeAt =>
      if wakeAt ≤ state.now then
        some { state with main := .checking i }
      else
        none
  | .stamping i =>
      let dt := tickMs state.reading.1 state.prev
      some { state with
        main := Stage.loopHead setup.ticks (i + 1)
        clock := state.reading.2
        prev := state.reading.1
        minMs := if dt < state.minMs then dt else state.minMs
        maxMs := if dt > state.maxMs then dt else state.maxMs
        sumMs := state.sumMs + dt }
  | .reporting =>
      some { state with
        main := .calming
        reports :=
          state.reports ++
            flakyReport setup state.minMs state.maxMs state.sumMs }
  | .calming =>
      some { state with
        main := .closing 0
        clock := chaosClockJitterSet state.clock 0 }
  | .closing _ | .returned _ =>
      none

/-- Execute one enabled label. -/
def step? (setup : Setup) (state : State) : Label → Option State
  | .main answer =>
      state.mainStep? setup answer
  | .cutSync =>
      match state.main with
      | .sleepingSync i _ => some { state with main := .checking i }
      | _ => none
  | .cutSleep =>
      match state.main with
      | .sleeping i _ => some { state with main := .checking i }
      | _ => none
  | .tick ns =>
      some { state with now := state.now + ns }

/-- Execute a finite run. -/
abbrev run? (setup : Setup) : State → List Label → Option State :=
  Transition.run? (step? setup)

/-- `run` before its first step, in a child with a seed. -/
def init (seed : UInt64) (now : Nat) : State where
  now := now
  clock := childClock seed
  client := Client.start (fun _ => ChaosIo.zeroSlot) 0
  main := .pairing
  start := 0
  prev := 0
  minMs := 2 ^ 62
  maxMs := 0
  sumMs := 0
  reports := []

end State

section Moves

variable {setup : Setup} {state next : State} {answer : Option Nat}

/-- The steps of `run`. -/
inductive Move (setup : Setup) (state : State) : State → Prop where
  | fails
      (main : Stage)
      (what : String)
      (stage : state.main = .pairing ∧ main = .returned 1 ∨
        state.main = .opening ∧ main = .closing 1) :
      Move setup state (state.giveUp main what)
  | pairs (stage : state.main = .pairing) :
      Move setup state { state with main := .opening }
  | opens
      (given : Int)
      (slots : ChaosIo.Slots)
      (fd : Int)
      (stage : state.main = .opening)
      (opened :
        ChaosIo.chaosIoOpen state.client.slots given =
          (slots, .opened fd)) :
      Move setup state
        { state with
          main := .settingDelay
          client := Client.start slots fd }
  | setsDelay (stage : state.main = .settingDelay) :
      Move setup state
        { state with
          main := .settingJitter
          client := {
            state.client with
            slots :=
              ChaosIo.chaosIoSetFsyncDelay state.client.slots
                state.client.fd setup.fsyncDelay } }
  | setsJitter (stage : state.main = .settingJitter) :
      Move setup state
        { state with
          main := .announcing
          clock := chaosClockJitterSet state.clock setup.jitter }
  | announces (stage : state.main = .announcing) :
      Move setup state
        { state with
          main := .starting
          reports := state.reports ++ flakyPreamble setup }
  | starts (stage : state.main = .starting) :
      Move setup state
        { state with
          main := Stage.loopHead setup.ticks 1
          clock := state.reading.2
          start := state.reading.1
          prev := state.reading.1
          minMs := 2 ^ 62
          maxMs := 0
          sumMs := 0 }
  | writes
      (i : Nat)
      (kernel : UInt64 → Option UInt64)
      (stage : state.main = .writing i) :
      Move setup state
        { state with
          main := .syncing i
          client := (state.client.write (payload i) kernel).1 }
  | syncs (i : Nat) (stage : state.main = .syncing i) :
      Move setup state
        { state with
          main := .sleepingSync i
            (state.now +
              (ChaosIo.chaosIoFsyncDelay state.client.slots
                state.client.fd).toNat) }
  | syncsAtOnce
      (i : Nat)
      (stage : state.main = .syncing i)
      (fast :
        ¬ ChaosIo.chaosIoFsyncDelay state.client.slots
          state.client.fd > 0) :
      Move setup state { state with main := .checking i }
  | wakesSync
      (i wakeAt : Nat)
      (stage : state.main = .sleepingSync i wakeAt)
      (due : wakeAt ≤ state.now) :
      Move setup state { state with main := .checking i }
  | meets
      (i : Nat)
      (stage : state.main = .checking i)
      (due : state.reading.1 ≥ deadline setup state.start i) :
      Move setup state
        { state with
          main := .stamping i
          clock := state.reading.2 }
  | naps
      (i : Nat)
      (stage : state.main = .checking i)
      (early : ¬ state.reading.1 ≥ deadline setup state.start i) :
      Move setup state
        { state with
          main := .sleeping i
            (state.now +
              (deadline setup state.start i - state.reading.1).toNat)
          clock := state.reading.2 }
  | wakes
      (i wakeAt : Nat)
      (stage : state.main = .sleeping i wakeAt)
      (due : wakeAt ≤ state.now) :
      Move setup state { state with main := .checking i }
  | stamps (i : Nat) (stage : state.main = .stamping i) :
      Move setup state
        { state with
          main := Stage.loopHead setup.ticks (i + 1)
          clock := state.reading.2
          prev := state.reading.1
          minMs :=
            if tickMs state.reading.1 state.prev < state.minMs then
              tickMs state.reading.1 state.prev
            else
              state.minMs
          maxMs :=
            if tickMs state.reading.1 state.prev > state.maxMs then
              tickMs state.reading.1 state.prev
            else
              state.maxMs
          sumMs :=
            state.sumMs + tickMs state.reading.1 state.prev }
  | reports (stage : state.main = .reporting) :
      Move setup state
        { state with
          main := .calming
          reports :=
            state.reports ++
              flakyReport setup state.minMs state.maxMs state.sumMs }
  | calms (stage : state.main = .calming) :
      Move setup state
        { state with
          main := .closing 0
          clock := chaosClockJitterSet state.clock 0 }

/-- Every step of `run` is one of these. -/
theorem move_of_mainStep?
    (taken : state.mainStep? setup answer = some next) :
    Move setup state next := by
  unfold State.mainStep? at taken
  cases stage : state.main with
  | pairing =>
      simp only [stage] at taken
      split at taken
      · simp only [Option.some.injEq] at taken
        exact taken ▸ .pairs stage
      · simp only [Option.some.injEq] at taken
        exact taken ▸ .fails _ _ (Or.inl ⟨stage, rfl⟩)
  | opening =>
      simp only [stage] at taken
      split at taken
      · rename_i slots fd opened
        simp only [Option.some.injEq] at taken
        exact taken ▸ .opens _ slots fd stage opened
      · simp only [Option.some.injEq] at taken
        exact taken ▸ .fails _ _ (Or.inr ⟨stage, rfl⟩)
      · simp only [Option.some.injEq] at taken
        exact taken ▸ .fails _ _ (Or.inr ⟨stage, rfl⟩)
  | settingDelay =>
      simp only [stage, Option.some.injEq] at taken
      exact taken ▸ .setsDelay stage
  | settingJitter =>
      simp only [stage, Option.some.injEq] at taken
      exact taken ▸ .setsJitter stage
  | announcing =>
      simp only [stage, Option.some.injEq] at taken
      exact taken ▸ .announces stage
  | starting =>
      simp only [stage, Option.some.injEq] at taken
      exact taken ▸ .starts stage
  | writing i =>
      simp only [stage, Option.some.injEq] at taken
      exact taken ▸ .writes i _ stage
  | syncing i =>
      simp only [stage] at taken
      split at taken
      · simp only [Option.some.injEq] at taken
        exact taken ▸ .syncs i stage
      · rename_i fast
        simp only [Option.some.injEq] at taken
        exact taken ▸ .syncsAtOnce i stage fast
  | sleepingSync i wakeAt =>
      simp only [stage, Option.ite_none_right_eq_some,
        Option.some.injEq] at taken
      obtain ⟨due, rfl⟩ := taken
      exact .wakesSync i wakeAt stage due
  | checking i =>
      simp only [stage] at taken
      split at taken
      · rename_i due
        simp only [Option.some.injEq] at taken
        exact taken ▸ .meets i stage due
      · rename_i early
        simp only [Option.some.injEq] at taken
        exact taken ▸ .naps i stage early
  | sleeping i wakeAt =>
      simp only [stage, Option.ite_none_right_eq_some,
        Option.some.injEq] at taken
      obtain ⟨due, rfl⟩ := taken
      exact .wakes i wakeAt stage due
  | stamping i =>
      simp only [stage, Option.some.injEq] at taken
      exact taken ▸ .stamps i stage
  | reporting =>
      simp only [stage, Option.some.injEq] at taken
      exact taken ▸ .reports stage
  | calming =>
      simp only [stage, Option.some.injEq] at taken
      exact taken ▸ .calms stage
  | closing rc | returned rc =>
      simp [stage] at taken

end Moves

section Clock

variable {clock : ChaosClock} {now : Nat}

/-- The time that `clock_gettime` reads. -/
theorem base_monotonic (now : Nat) :
    (monotonic now).tvSec * 1000000000 + (monotonic now).tvNsec =
      Int64.ofNat now := by
  have parts : now / 1000000000 * 1000000000 + now % 1000000000 = now := by
    omega
  rw [← congrArg Int64.ofNat parts, Int64.ofNat_add, Int64.ofNat_mul]
  rfl

/-- The clock is never behind the time, and ahead by less than the jitter. -/
theorem chaosClockNowNs_jitter
    (unskewed : clock.skewNs = 0)
    (early : now + clock.jitterMaxNs.toNat < 2 ^ 63) :
    ∃ j,
      j ≤ clock.jitterMaxNs.toNat - 1 ∧
        (chaosClockNowNs clock (monotonic now)).1.toNat = now + j := by
  have time : (UInt64.ofNat now).toNat = now := by
    rw [UInt64.toNat_ofNat']
    exact Nat.mod_eq_of_lt (by omega)
  simp only [chaosClockNowNs, base_monotonic, unskewed, Int64.add_zero]
  split
  · rename_i positive
    have bound : 0 < clock.jitterMaxNs.toNat :=
      UInt64.lt_iff_toNat_lt.mp positive
    have less :
        ((pgXoshNext clock.rng).1 % clock.jitterMaxNs).toNat <
          clock.jitterMaxNs.toNat := by
      rw [UInt64.toNat_mod]
      exact Nat.mod_lt _ bound
    refine ⟨((pgXoshNext clock.rng).1 % clock.jitterMaxNs).toNat,
      by omega, ?_⟩
    simp only [Int64.toUInt64_add, Int64.toUInt64_ofNat',
      UInt64.toUInt64_toInt64, UInt64.toNat_add, time]
    omega
  · exact ⟨0, Nat.zero_le _, time⟩

/-- Reading the clock changes neither its skew nor its jitter. -/
theorem chaosClockNowNs_clock (reading : Timespec) :
    (chaosClockNowNs clock reading).2.skewNs = clock.skewNs ∧
      (chaosClockNowNs clock reading).2.jitterMaxNs =
        clock.jitterMaxNs := by
  unfold chaosClockNowNs
  split <;> exact ⟨rfl, rfl⟩

end Clock

end FailurePlayground.FlakyEnvironment
