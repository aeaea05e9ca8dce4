import FailurePlayground.FlakyEnvironment

namespace FailurePlayground.FlakyEnvironment

/-!
# The cadence of the heartbeat

Every tick is stamped with a reading that is at most a jitter ahead of the
time, after its sync and not before its deadline less a jitter.  So no tick
wraps around, and the ticks do not drift: together they take the time of as
many deadlines.
-/

open ClockJump
open ChaosIo (Client Prepared)

section Arithmetic

variable {setup : Setup}

/-- The nanoseconds up to the deadline of a tick. -/
def dueNs (setup : Setup) (i : Nat) : Nat :=
  i * setup.targetMs * 1000000

/-- The furthest that the clock is ahead. -/
def ahead (setup : Setup) : Nat :=
  setup.jitter.toNat - 1

/-- No tick is shorter than a sync, less the jitter. -/
def shortestMs (setup : Setup) : Nat :=
  (setup.fsyncDelay.toNat - setup.jitter.toNat) / 1000000

/-- Deadlines of the loop do not wrap around. -/
theorem toNat_deadline
    {start : UInt64}
    {i : Nat}
    (inside : i ≤ setup.ticks)
    (early : start.toNat < 2 ^ 63) :
    (deadline setup start i).toNat = start.toNat + dueNs setup i := by
  have most : dueNs setup i ≤ dueNs setup setup.ticks :=
    Nat.mul_le_mul_right _ (Nat.mul_le_mul_right _ inside)
  have small : dueNs setup setup.ticks < 2 ^ 62 :=
    Nat.lt_of_le_of_lt (Nat.le_add_right _ _) setup.small
  have product :
      UInt64.ofNat i * UInt64.ofNat setup.targetMs * 1000000 =
        UInt64.ofNat (dueNs setup i) := by
    rw [dueNs, UInt64.ofNat_mul, UInt64.ofNat_mul]
    rfl
  rw [deadline, UInt64.toNat_add, product, UInt64.toNat_ofNat']
  omega

/-- A tick that is stamped after the one before it is counted in full. -/
theorem tickMs_eq
    {now prev : UInt64}
    (after : prev.toNat ≤ now.toNat) :
    tickMs now prev = ((now.toNat - prev.toNat) / 1000000 : Nat) := by
  have value :
      (now - prev) / 1000000 =
        UInt64.ofNat ((now.toNat - prev.toNat) / 1000000) := by
    apply UInt64.toNat.inj
    have bound := now.toNat_lt
    rw [UInt64.toNat_div,
      UInt64.toNat_sub_of_le _ _ (UInt64.le_iff_toNat_le.mpr after),
      UInt64.toNat_ofNat', Nat.mod_eq_of_lt (by omega)]
    rfl
  have bound := now.toNat_lt
  rw [tickMs, value, UInt64.toInt64_ofNat',
    Int64.toInt_ofNat_of_lt (by omega)]

end Arithmetic

section Beats

/-- The smallest and the largest of some ticks, as the loop keeps them. -/
structure Extremes (dts : List Nat) (minMs maxMs : Int) : Prop where
  least : ∀ d ∈ dts, minMs ≤ d
  greatest : ∀ d ∈ dts, d ≤ maxMs
  minTick : dts = [] ∧ minMs = 2 ^ 62 ∨ ∃ d ∈ dts, minMs = d
  maxTick : dts = [] ∧ maxMs = 0 ∨ ∃ d ∈ dts, maxMs = d

/-- One more tick is compared with both. -/
theorem Extremes.snoc
    {dts : List Nat}
    {minMs maxMs : Int}
    {d : Nat}
    (extremes : Extremes dts minMs maxMs)
    (small : d < 2 ^ 62) :
    Extremes (dts ++ [d])
      (if d < minMs then d else minMs)
      (if d > maxMs then d else maxMs) := by
  obtain ⟨least, greatest, minTick, maxTick⟩ := extremes
  refine ⟨fun e member => ?_, fun e member => ?_, Or.inr ?_, Or.inr ?_⟩
  · rcases List.mem_append.mp member with earlier | last
    · have := least e earlier
      split <;> omega
    · obtain rfl := List.mem_singleton.mp last
      split <;> omega
  · rcases List.mem_append.mp member with earlier | last
    · have := greatest e earlier
      split <;> omega
    · obtain rfl := List.mem_singleton.mp last
      split <;> omega
  · split
    · exact ⟨d, by simp, rfl⟩
    · rcases minTick with ⟨_, unset⟩ | ⟨e, earlier, same⟩
      · omega
      · exact ⟨e, List.mem_append_left _ earlier, same⟩
  · split
    · exact ⟨d, by simp, rfl⟩
    · rcases maxTick with ⟨_, unset⟩ | ⟨e, earlier, same⟩
      · exact ⟨d, by simp, by omega⟩
      · exact ⟨e, List.mem_append_left _ earlier, same⟩

/--
Before tick `i` the last stamp was read at `p`, and the ticks so far took the
milliseconds `dts`.
-/
structure Beats
    (setup : Setup)
    (i p : Nat)
    (dts : List Nat)
    (state : State) : Prop where
  count : dts.length + 1 = i
  inside : i ≤ setup.ticks + 1
  stamped : p ≤ state.prev.toNat ∧ state.prev.toNat ≤ p + ahead setup
  started : state.start.toNat ≤ p + ahead setup
  elapsed :
    state.prev.toNat ≤
      state.start.toNat + (dts.sum + dts.length) * 1000000
  onTime :
    state.start.toNat + dueNs setup dts.length ≤
      state.prev.toNat + ahead setup
  long : ∀ d ∈ dts, shortestMs setup ≤ d
  extremes : Extremes dts state.minMs state.maxMs
  sum : state.sumMs = dts.sum

/-- What a report says about the ticks. -/
def Cadence (setup : Setup) (minMs maxMs sumMs : Int) : Prop :=
  ∃ dts : List Nat,
    dts.length = setup.ticks ∧ Extremes dts minMs maxMs ∧
      sumMs = dts.sum ∧ (∀ d ∈ dts, shortestMs setup ≤ d) ∧
      dueNs setup setup.ticks ≤
        (dts.sum + setup.ticks) * 1000000 + ahead setup

/-- What the clock has come to, wherever the loop stands. -/
def Timeline (setup : Setup) (state : State) : Prop :=
  match state.main with
  | .pairing | .opening | .settingDelay | .settingJitter | .announcing
  | .starting =>
      True
  | .writing i | .syncing i =>
      ∃ p dts, Beats setup i p dts state ∧ i ≤ setup.ticks ∧
        p ≤ state.now
  | .sleepingSync i wakeAt =>
      ∃ p dts, Beats setup i p dts state ∧ i ≤ setup.ticks ∧
        p + setup.fsyncDelay.toNat ≤ wakeAt
  | .checking i =>
      ∃ p dts, Beats setup i p dts state ∧ i ≤ setup.ticks ∧
        p + setup.fsyncDelay.toNat ≤ state.now
  | .sleeping i wakeAt =>
      (∃ p dts, Beats setup i p dts state ∧ i ≤ setup.ticks ∧
        p + setup.fsyncDelay.toNat ≤ state.now) ∧
        wakeAt ≤ state.start.toNat + dueNs setup i ∧
        state.start.toNat + dueNs setup i ≤ wakeAt + ahead setup
  | .stamping i =>
      ∃ p dts, Beats setup i p dts state ∧ i ≤ setup.ticks ∧
        p + setup.fsyncDelay.toNat ≤ state.now ∧
        state.start.toNat + dueNs setup i ≤ state.now + ahead setup
  | .reporting | .calming =>
      Cadence setup state.minMs state.maxMs state.sumMs
  | .closing rc =>
      rc = 0 → Cadence setup state.minMs state.maxMs state.sumMs
  | .returned _ =>
      True

end Beats

section Preparation

/-- The chaos clock has been given its jitter. -/
def Stage.jittered : Stage → Bool
  | .pairing | .opening | .settingDelay | .settingJitter
  | .closing _ | .returned _ => false
  | _ => true

/-- Nothing has been opened. -/
def Stage.unopened : Stage → Bool
  | .pairing | .opening => true
  | _ => false

/-- The delay of a sync, once it is set. -/
def Stage.slow : Stage → Bool
  | .pairing | .opening | .settingDelay | .closing _
  | .returned _ => false
  | _ => true

/-- The clock and the file are as `run` has set them up. -/
structure Prepares (setup : Setup) (state : State) : Prop where
  unskewed : state.clock.skewNs = 0
  jittered :
    state.main.jittered = true → state.clock.jitterMaxNs = setup.jitter
  fresh :
    state.main.unopened = true →
      state.client.slots = fun _ => ChaosIo.zeroSlot
  opened : state.main = .settingDelay → Prepared 0 state.client
  slow : state.main.slow = true → Prepared setup.fsyncDelay state.client

variable {setup : Setup} {state next : State} {i : Nat}

/-- The loop starts a tick, or is over. -/
theorem loopHead_cases (ticks i : Nat) :
    i ≤ ticks ∧ Stage.loopHead ticks i = .writing i ∨
      ticks < i ∧ Stage.loopHead ticks i = .reporting := by
  unfold Stage.loopHead
  split
  · rename_i inside
    exact Or.inl ⟨inside, rfl⟩
  · rename_i past
    exact Or.inr ⟨Nat.lt_of_not_le past, rfl⟩

/-- The loop runs with the jitter and with slow syncs. -/
theorem stages_loopHead (ticks i : Nat) :
    (Stage.loopHead ticks i).jittered = true ∧
      (Stage.loopHead ticks i).slow = true ∧
      (Stage.loopHead ticks i).unopened = false ∧
      Stage.loopHead ticks i ≠ .settingDelay := by
  rcases loopHead_cases ticks i with ⟨_, head⟩ | ⟨_, head⟩ <;>
    rw [head] <;> exact ⟨rfl, rfl, rfl, by simp⟩

/-- Every step keeps the clock and the file as they are set up. -/
theorem Prepares.step
    (prepares : Prepares setup state)
    (moved : Move setup state next) :
    Prepares setup next := by
  obtain ⟨unskewed, jittered, fresh, opened, slow⟩ := prepares
  obtain ⟨sameSkew, sameJitter⟩ :=
    @chaosClockNowNs_clock state.clock (monotonic state.now)
  cases moved with
  | fails main what stage =>
      rcases stage with ⟨_, rfl⟩ | ⟨_, rfl⟩
      all_goals
        exact ⟨unskewed,
          fun jittered => absurd jittered Bool.false_ne_true,
          fun unopened => absurd unopened Bool.false_ne_true,
          fun here => Stage.noConfusion here,
          fun slow => absurd slow Bool.false_ne_true⟩
  | pairs stage =>
      exact ⟨unskewed, fun jittered => absurd jittered Bool.false_ne_true,
        fun _ => fresh (by rw [stage]; rfl), fun here => Stage.noConfusion here,
        fun slow => absurd slow Bool.false_ne_true⟩
  | opens given slots fd stage answered =>
      exact ⟨unskewed, fun jittered => absurd jittered Bool.false_ne_true,
        fun unopened => absurd unopened Bool.false_ne_true,
        fun _ => ChaosIo.prepared_of_opened
          (fresh (by rw [stage]; rfl)) answered,
        fun slow => absurd slow Bool.false_ne_true⟩
  | setsDelay stage =>
      exact ⟨unskewed, fun jittered => absurd jittered Bool.false_ne_true,
        fun unopened => absurd unopened Bool.false_ne_true,
        fun here => Stage.noConfusion here,
        fun _ => (opened stage).setDelay setup.fsyncDelay⟩
  | setsJitter stage =>
      exact ⟨unskewed, fun _ => rfl,
        fun unopened => absurd unopened Bool.false_ne_true,
        fun here => Stage.noConfusion here, fun _ => slow (by rw [stage]; rfl)⟩
  | writes i kernel stage =>
      exact ⟨unskewed, fun _ => jittered (by rw [stage]; rfl),
        fun unopened => absurd unopened Bool.false_ne_true,
        fun here => Stage.noConfusion here,
        fun _ => (slow (by rw [stage]; rfl)).write (payload i) kernel⟩
  | starts stage =>
      obtain ⟨_, _, opened, unset⟩ := stages_loopHead setup.ticks 1
      exact ⟨sameSkew.trans unskewed,
        fun _ => sameJitter.trans (jittered (by rw [stage]; rfl)),
        fun unopened =>
          absurd (opened.symm.trans unopened) Bool.false_ne_true,
        fun here => absurd here unset, fun _ => slow (by rw [stage]; rfl)⟩
  | stamps i stage =>
      obtain ⟨_, _, opened, unset⟩ := stages_loopHead setup.ticks (i + 1)
      exact ⟨sameSkew.trans unskewed,
        fun _ => sameJitter.trans (jittered (by rw [stage]; rfl)),
        fun unopened =>
          absurd (opened.symm.trans unopened) Bool.false_ne_true,
        fun here => absurd here unset, fun _ => slow (by rw [stage]; rfl)⟩
  | meets i stage due | naps i stage early =>
      exact ⟨sameSkew.trans unskewed,
        fun _ => sameJitter.trans (jittered (by rw [stage]; rfl)),
        fun unopened => absurd unopened Bool.false_ne_true,
        fun here => Stage.noConfusion here, fun _ => slow (by rw [stage]; rfl)⟩
  | announces stage | syncs i stage | syncsAtOnce i stage fast
  | wakesSync i wakeAt stage due | wakes i wakeAt stage due
  | reports stage =>
      exact ⟨unskewed, fun _ => jittered (by rw [stage]; rfl),
        fun unopened => absurd unopened Bool.false_ne_true,
        fun here => Stage.noConfusion here, fun _ => slow (by rw [stage]; rfl)⟩
  | calms stage =>
      exact ⟨unskewed, fun jittered => absurd jittered Bool.false_ne_true,
        fun unopened => absurd unopened Bool.false_ne_true,
        fun here => Stage.noConfusion here,
        fun slow => absurd slow Bool.false_ne_true⟩

/-- A reading of a clock that is set up. -/
theorem reading_of_prepares
    (prepares : Prepares setup state)
    (late : state.now < 2 ^ 62)
    (stage : state.main.jittered = true) :
    ∃ j, j ≤ ahead setup ∧ state.reading.1.toNat = state.now + j := by
  have same := prepares.jittered stage
  have small : setup.jitter.toNat < 2 ^ 62 :=
    Nat.lt_of_le_of_lt (Nat.le_add_left _ _) setup.small
  obtain ⟨j, near, read⟩ :=
    @chaosClockNowNs_jitter state.clock state.now prepares.unskewed
      (by rw [same]; omega)
  exact ⟨j, by rw [same] at near; exact near, read⟩

end Preparation

section Ticks

variable
  {setup : Setup}
  {state next : State}
  {i p : Nat}
  {dts : List Nat}

/-- The first tick starts where the loop starts. -/
theorem timeline_starts
    (prepares : Prepares setup state)
    (late : state.now < 2 ^ 62)
    (stage : state.main = .starting) :
    Timeline setup
      { state with
        main := Stage.loopHead setup.ticks 1
        clock := state.reading.2
        start := state.reading.1
        prev := state.reading.1
        minMs := 2 ^ 62
        maxMs := 0
        sumMs := 0 } := by
  obtain ⟨j, near, read⟩ :=
    reading_of_prepares prepares late (by rw [stage]; rfl)
  have first : Stage.loopHead setup.ticks 1 = .writing 1 := by
    unfold Stage.loopHead
    exact if_pos setup.ticksPositive
  unfold Timeline
  rw [first]
  refine ⟨state.now, [], ?_, setup.ticksPositive, Nat.le_refl _⟩
  constructor
  · rfl
  · omega
  · change _ ≤ state.reading.1.toNat ∧ state.reading.1.toNat ≤ _
    omega
  · change state.reading.1.toNat ≤ _
    omega
  · change state.reading.1.toNat ≤ state.reading.1.toNat + _
    omega
  · change state.reading.1.toNat + _ ≤ state.reading.1.toNat + _
    simp [dueNs]
  · intro d member
    cases member
  · exact ⟨fun _ member => absurd member List.not_mem_nil,
      fun _ member => absurd member List.not_mem_nil,
      Or.inl ⟨rfl, rfl⟩, Or.inl ⟨rfl, rfl⟩⟩
  · rfl

/-- A tick is stamped after its sync and not before its deadline. -/
theorem Beats.stamp
    (beats : Beats setup i p dts state)
    (inside : i ≤ setup.ticks)
    (synced : p + setup.fsyncDelay.toNat ≤ state.now)
    (met : state.start.toNat + dueNs setup i ≤ state.now + ahead setup)
    {now : UInt64}
    {j : Nat}
    (near : j ≤ ahead setup)
    (read : now.toNat = state.now + j)
    (clock : ChaosClock)
    (main : Stage) :
    Beats setup (i + 1) state.now
      (dts ++ [(now.toNat - state.prev.toNat) / 1000000])
      { state with
        main := main
        clock := clock
        prev := now
        minMs :=
          if tickMs now state.prev < state.minMs then
            tickMs now state.prev
          else
            state.minMs
        maxMs :=
          if tickMs now state.prev > state.maxMs then
            tickMs now state.prev
          else
            state.maxMs
        sumMs := state.sumMs + tickMs now state.prev } := by
  obtain ⟨count, _, stamped, started, elapsed, onTime, long, extremes,
    sum⟩ := beats
  have slow := setup.slow
  have span : ahead setup ≤ setup.fsyncDelay.toNat := by
    unfold ahead
    omega
  have after : state.prev.toNat ≤ now.toNat := by
    omega
  have bound := now.toNat_lt
  have dt := tickMs_eq after
  constructor
  · simp [count]
  · omega
  · change state.now ≤ now.toNat ∧ now.toNat ≤ _
    omega
  · change state.start.toNat ≤ _
    omega
  · change now.toNat ≤ state.start.toNat + _
    simp only [List.sum_append, List.sum_singleton, List.length_append,
      List.length_singleton]
    omega
  · change state.start.toNat + _ ≤ now.toNat + _
    simp only [List.length_append, List.length_singleton, count]
    omega
  · intro d member
    rcases List.mem_append.mp member with earlier | last
    · exact long d earlier
    · obtain rfl := List.mem_singleton.mp last
      refine Nat.div_le_div_right ?_
      unfold ahead at stamped
      omega
  · rw [dt]
    exact extremes.snoc (by omega)
  · change state.sumMs + tickMs now state.prev = _
    rw [dt, sum, List.sum_append, List.sum_singleton]
    rfl

/-- After the last tick the ticks are a cadence. -/
theorem Beats.cadence
    (beats : Beats setup i p dts state)
    (last : i = setup.ticks + 1) :
    Cadence setup state.minMs state.maxMs state.sumMs := by
  have ticks : dts.length = setup.ticks := by
    have := beats.count
    omega
  refine ⟨dts, ticks, beats.extremes, beats.sum, beats.long, ?_⟩
  have onTime := beats.onTime
  have elapsed := beats.elapsed
  rw [ticks] at onTime elapsed
  omega

/-- Before a deadline is checked the loop has started early enough. -/
theorem Beats.toNat_deadline
    (beats : Beats setup i p dts state)
    (inside : i ≤ setup.ticks)
    (late : state.now < 2 ^ 62)
    (synced : p + setup.fsyncDelay.toNat ≤ state.now) :
    (deadline setup state.start i).toNat =
      state.start.toNat + dueNs setup i := by
  have started := beats.started
  have slow := setup.slow
  refine FlakyEnvironment.toNat_deadline inside ?_
  unfold ahead at started
  omega

/-- Every step keeps the timeline. -/
theorem Timeline.step
    (prepares : Prepares setup state)
    (late : state.now < 2 ^ 62)
    (timeline : Timeline setup state)
    (moved : Move setup state next) :
    Timeline setup next := by
  cases moved with
  | fails main what stage =>
      rcases stage with ⟨_, rfl⟩ | ⟨_, rfl⟩
      · trivial
      · exact fun zero => absurd zero (by decide)
  | pairs stage | opens given slots fd stage answered | setsDelay stage
  | setsJitter stage | announces stage =>
      trivial
  | starts stage =>
      exact timeline_starts prepares late stage
  | writes i kernel stage =>
      rw [Timeline, stage] at timeline
      obtain ⟨p, dts, beats, inside, before⟩ := timeline
      exact ⟨p, dts, { beats with }, inside, before⟩
  | syncs i stage =>
      rw [Timeline, stage] at timeline
      obtain ⟨p, dts, beats, inside, before⟩ := timeline
      refine ⟨p, dts, { beats with }, inside, ?_⟩
      rw [(prepares.slow (by rw [stage]; rfl)).fsyncDelay]
      omega
  | syncsAtOnce i stage fast =>
      rw [Timeline, stage] at timeline
      obtain ⟨p, dts, beats, inside, before⟩ := timeline
      refine ⟨p, dts, { beats with }, inside, ?_⟩
      rw [(prepares.slow (by rw [stage]; rfl)).fsyncDelay] at fast
      have none : setup.fsyncDelay.toNat = 0 := by
        have := UInt64.le_iff_toNat_le.mp (UInt64.not_lt.mp fast)
        exact Nat.le_zero.mp this
      change p + _ ≤ state.now
      omega
  | wakesSync i wakeAt stage due =>
      rw [Timeline, stage] at timeline
      obtain ⟨p, dts, beats, inside, before⟩ := timeline
      exact ⟨p, dts, { beats with }, inside, before.trans due⟩
  | meets i stage due =>
      rw [Timeline, stage] at timeline
      obtain ⟨p, dts, beats, inside, synced⟩ := timeline
      obtain ⟨j, near, read⟩ :=
        reading_of_prepares prepares late (by rw [stage]; rfl)
      have exact := beats.toNat_deadline inside late synced
      refine ⟨p, dts, { beats with }, inside, synced, ?_⟩
      have reached := UInt64.le_iff_toNat_le.mp due
      change state.start.toNat + _ ≤ state.now + _
      omega
  | naps i stage early =>
      rw [Timeline, stage] at timeline
      obtain ⟨p, dts, beats, inside, synced⟩ := timeline
      obtain ⟨j, near, read⟩ :=
        reading_of_prepares prepares late (by rw [stage]; rfl)
      have exact := beats.toNat_deadline inside late synced
      have before := UInt64.lt_iff_toNat_lt.mp (UInt64.not_le.mp early)
      have remaining :
          (deadline setup state.start i - state.reading.1).toNat =
            (deadline setup state.start i).toNat -
              state.reading.1.toNat :=
        UInt64.toNat_sub_of_le _ _
          (UInt64.le_iff_toNat_le.mpr before.le)
      refine ⟨⟨p, dts, { beats with }, inside, synced⟩, ?_, ?_⟩
      · change _ ≤ state.start.toNat + _
        omega
      · change state.start.toNat + _ ≤ _
        omega
  | wakes i wakeAt stage due =>
      rw [Timeline, stage] at timeline
      obtain ⟨⟨p, dts, beats, inside, before⟩, _⟩ := timeline
      exact ⟨p, dts, { beats with }, inside, before⟩
  | stamps i stage =>
      rw [Timeline, stage] at timeline
      obtain ⟨p, dts, beats, inside, synced, met⟩ := timeline
      obtain ⟨j, near, read⟩ :=
        reading_of_prepares prepares late (by rw [stage]; rfl)
      have stamped :=
        beats.stamp inside synced met near read state.reading.2
      unfold Timeline
      rcases loopHead_cases setup.ticks (i + 1) with
        ⟨more, head⟩ | ⟨past, head⟩
      · rw [head]
        exact ⟨state.now, _, stamped _, more, Nat.le_refl _⟩
      · rw [head]
        exact (stamped .reporting).cadence (by omega)
  | reports stage =>
      rw [Timeline, stage] at timeline
      exact timeline
  | calms stage =>
      rw [Timeline, stage] at timeline
      exact fun _ => timeline

end Ticks

section Report

variable
  {setup : Setup}
  {seed : UInt64}
  {now : Nat}
  {labels : List Label}
  {state next final : State}
  {label : Label}

/-- What `run` has reported where it stands. -/
def Reported (setup : Setup) (state : State) : Prop :=
  match state.main with
  | .pairing | .opening | .settingDelay | .settingJitter | .announcing =>
      state.reports = []
  | .starting | .writing _ | .syncing _ | .sleepingSync _ _ | .checking _
  | .sleeping _ _ | .stamping _ | .reporting =>
      state.reports = flakyPreamble setup
  | .calming =>
      state.reports =
        flakyPreamble setup ++
          flakyReport setup state.minMs state.maxMs state.sumMs
  | .closing rc =>
      rc = 0 →
        state.reports =
          flakyPreamble setup ++
            flakyReport setup state.minMs state.maxMs state.sumMs
  | .returned _ =>
      True

/-- In its loop `run` has reported only its preamble. -/
theorem reported_loopHead
    {i : Nat}
    (head : state.main = Stage.loopHead setup.ticks i)
    (reports : state.reports = flakyPreamble setup) :
    Reported setup state := by
  unfold Reported
  rcases loopHead_cases setup.ticks i with ⟨_, here⟩ | ⟨_, here⟩ <;>
    rw [head, here] <;> exact reports

/-- Every step reports what is due. -/
theorem Reported.step
    (reported : Reported setup state)
    (moved : Move setup state next) :
    Reported setup next := by
  cases moved with
  | fails main what stage =>
      rcases stage with ⟨_, rfl⟩ | ⟨_, rfl⟩
      · trivial
      · exact fun zero => absurd zero (by decide)
  | announces stage =>
      rw [Reported, stage] at reported
      change state.reports ++ flakyPreamble setup = _
      rw [reported]
      rfl
  | starts stage =>
      rw [Reported, stage] at reported
      exact reported_loopHead rfl reported
  | stamps i stage =>
      rw [Reported, stage] at reported
      exact reported_loopHead rfl reported
  | reports stage =>
      rw [Reported, stage] at reported
      exact congrArg (· ++ flakyReport setup state.minMs state.maxMs
        state.sumMs) reported
  | calms stage =>
      rw [Reported, stage] at reported
      exact fun _ => reported
  | pairs stage | opens given slots fd stage answered | setsDelay stage
  | setsJitter stage | writes i kernel stage | syncs i stage
  | syncsAtOnce i stage fast | wakesSync i wakeAt stage due
  | meets i stage due | naps i stage early | wakes i wakeAt stage due =>
      rw [Reported, stage] at reported
      exact reported

/-- What a run has kept, for as long as the clock has not run for 146 years. -/
structure Sound (setup : Setup) (state : State) : Prop where
  prepares : Prepares setup state
  reported : Reported setup state
  timeline : state.now < 2 ^ 62 → Timeline setup state

/-- Time that passes disturbs nothing. -/
theorem Timeline.tick
    (timeline : Timeline setup state)
    (ns : Nat) :
    Timeline setup { state with now := state.now + ns } := by
  unfold Timeline at timeline ⊢
  cases stage : state.main with
  | writing i | syncing i =>
      simp only [stage] at timeline ⊢
      obtain ⟨p, dts, beats, inside, before⟩ := timeline
      exact ⟨p, dts, { beats with }, inside, by omega⟩
  | sleepingSync i wakeAt =>
      simp only [stage] at timeline ⊢
      obtain ⟨p, dts, beats, inside, before⟩ := timeline
      exact ⟨p, dts, { beats with }, inside, before⟩
  | checking i =>
      simp only [stage] at timeline ⊢
      obtain ⟨p, dts, beats, inside, synced⟩ := timeline
      exact ⟨p, dts, { beats with }, inside, by omega⟩
  | sleeping i wakeAt =>
      simp only [stage] at timeline ⊢
      obtain ⟨⟨p, dts, beats, inside, synced⟩, met⟩ := timeline
      exact ⟨⟨p, dts, { beats with }, inside, by omega⟩, met⟩
  | stamping i =>
      simp only [stage] at timeline ⊢
      obtain ⟨p, dts, beats, inside, synced, met⟩ := timeline
      exact ⟨p, dts, { beats with }, inside, by omega, by omega⟩
  | pairing | opening | settingDelay | settingJitter | announcing
  | starting | returned rc =>
      trivial
  | reporting | calming | closing rc =>
      simp only [stage] at timeline ⊢
      exact timeline

/-- A step of `run` takes no time. -/
theorem now_of_move (moved : Move setup state next) :
    next.now = state.now := by
  cases moved <;> rfl

/-- A sleep before a deadline may end early. -/
theorem Sound.cutSleep
    {i wakeAt : Nat}
    (sound : Sound setup state)
    (stage : state.main = .sleeping i wakeAt) :
    Sound setup { state with main := .checking i } := by
  obtain ⟨prepares, reported, timeline⟩ := sound
  have jittered := prepares.jittered (by rw [stage]; rfl)
  have slow := prepares.slow (by rw [stage]; rfl)
  refine ⟨⟨prepares.unskewed, fun _ => jittered,
    fun unopened => absurd unopened Bool.false_ne_true,
    fun here => Stage.noConfusion here, fun _ => slow⟩, ?_, fun late => ?_⟩
  · rw [Reported, stage] at reported
    exact reported
  · have before := timeline late
    rw [Timeline, stage] at before
    obtain ⟨⟨p, dts, beats, inside, synced⟩, _⟩ := before
    exact ⟨p, dts, { beats with }, inside, synced⟩

/-- Every step that does not end a sync early keeps all of it. -/
theorem Sound.step
    (sound : Sound setup state)
    (kind : label ≠ .cutSync)
    (taken : state.step? setup label = some next) :
    Sound setup next := by
  cases label with
  | cutSync =>
      exact absurd rfl kind
  | cutSleep =>
      simp only [State.step?] at taken
      split at taken
      · rename_i i wakeAt stage
        exact Option.some.inj taken ▸ sound.cutSleep stage
      · cases taken
  | main answer =>
      obtain ⟨prepares, reported, timeline⟩ := sound
      have moved := move_of_mainStep? taken
      refine ⟨prepares.step moved, reported.step moved, fun late => ?_⟩
      rw [now_of_move moved] at late
      exact (timeline late).step prepares late moved
  | tick ns =>
      obtain ⟨prepares, reported, timeline⟩ := sound
      simp only [State.step?, Option.some.injEq] at taken
      subst taken
      refine ⟨{ prepares with }, reported, fun late => ?_⟩
      have before : state.now < 2 ^ 62 :=
        Nat.lt_of_le_of_lt (Nat.le_add_right _ ns) late
      exact (timeline before).tick ns

/-- It holds before the first step. -/
theorem Sound.init (seed : UInt64) (now : Nat) :
    Sound setup (State.init seed now) where
  prepares := ⟨rfl, fun jittered => absurd jittered Bool.false_ne_true,
    fun _ => rfl, fun here => Stage.noConfusion here,
    fun slow => absurd slow Bool.false_ne_true⟩
  reported := rfl
  timeline := fun _ => trivial

/-- A run whose syncs last keeps all of it. -/
theorem sound_of_run
    (kind : ∀ label ∈ labels, label ≠ .cutSync)
    (ran : State.run? setup (State.init seed now) labels = some final) :
    Sound setup final := by
  have kept :
      ∀ {before : State} {label : Label} {after : State},
        Sound setup before →
          label ≠ .cutSync →
            before.step? setup label = some after → Sound setup after :=
    fun sound kind taken => sound.step kind taken
  exact Transition.run?_invariant_of_eachStep kept ran
    (Transition.eachStep_of_forall kind _) (Sound.init seed now)

/-- The mean of the ticks lies between the smallest and the largest. -/
theorem mean_of_cadence
    {minMs maxMs sumMs : Int}
    (cadence : Cadence setup minMs maxMs sumMs) :
    minMs ≤ sumMs.tdiv setup.ticks ∧ sumMs.tdiv setup.ticks ≤ maxMs := by
  obtain ⟨dts, ticks, ⟨least, greatest, minTick, maxTick⟩, rfl, _, _⟩ :=
    cadence
  have positive := setup.ticksPositive
  have some : dts ≠ [] := by
    rintro rfl
    simp at ticks
    omega
  obtain ⟨low, _, rfl⟩ := minTick.resolve_left fun none => some none.1
  obtain ⟨high, _, rfl⟩ := maxTick.resolve_left fun none => some none.1
  have below : setup.ticks * low ≤ dts.sum := by
    rw [← ticks]
    exact List.card_nsmul_le_sum dts low fun d member =>
      Int.ofNat_le.mp (least d member)
  have above : dts.sum ≤ setup.ticks * high := by
    rw [← ticks]
    exact List.sum_le_card_nsmul dts high fun d member =>
      Int.ofNat_le.mp (greatest d member)
  have mean :
      (dts.sum : Int).tdiv setup.ticks =
        (dts.sum / setup.ticks : Nat) :=
    (Int.ofNat_tdiv dts.sum setup.ticks).symm
  rw [mean]
  constructor
  · rw [Int.ofNat_le, Nat.le_div_iff_mul_le positive, Nat.mul_comm]
    exact below
  · rw [Int.ofNat_le]
    exact Nat.div_le_of_le_mul above

/-- A heartbeat that works, syncs for 15 ms and sleeps for 87 ms. -/
def beat : List Label :=
  [.main (some 64), .main none, .tick 15000000, .main none, .main none,
    .tick 87000000, .main none, .main none, .main none]

/-- Twenty heartbeats; a signal comes while the first one sleeps. -/
def twentyBeats : List Label :=
  [[.main (some 0), .main (some 3), .main none, .main none, .main none,
      .main none],
    beat.take 5, [.cutSleep], beat.drop 4,
    (List.replicate 19 beat).flatten,
    [.main none, .main none]].flatten

end Report

end FailurePlayground.FlakyEnvironment
