import FailurePlayground.FlakyRun

namespace FailurePlayground.FlakyEnvironment

/-!
# The heartbeat reaches its deadlines

A sleep lasts until the deadline less what the clock was ahead.  If the clock
then still says that the deadline is to come it is ahead by less than before,
so the sleeps before one deadline are at most as many as the nanoseconds of
jitter.  A sleep that a signal ends may be slept again as often as one comes.
-/

section Measure

variable
  {setup : Setup}
  {state next : State}
  {label : Label}

/-- The steps of a tick. -/
def tickCost (setup : Setup) : Nat :=
  2 * (ahead setup + 1) + 6

/-- What the ticks from `i` on and the report still take. -/
def loopCost (setup : Setup) (i : Nat) : Nat :=
  2 + (setup.ticks + 1 - i) * tickCost setup

/-- What `run` has still to do. -/
def State.measure (setup : Setup) (state : State) : Nat :=
  match state.main with
  | .pairing => loopCost setup 1 + 6
  | .opening => loopCost setup 1 + 5
  | .settingDelay => loopCost setup 1 + 4
  | .settingJitter => loopCost setup 1 + 3
  | .announcing => loopCost setup 1 + 2
  | .starting => loopCost setup 1 + 1
  | .writing i => loopCost setup (i + 1) + 2 * (ahead setup + 1) + 5
  | .syncing i => loopCost setup (i + 1) + 2 * (ahead setup + 1) + 4
  | .sleepingSync i _ =>
      loopCost setup (i + 1) + 2 * (ahead setup + 1) + 3
  | .checking i =>
      loopCost setup (i + 1) + 2 +
        2 * min (ahead setup + 1)
          (state.start.toNat + dueNs setup i - state.now)
  | .sleeping i wakeAt =>
      loopCost setup (i + 1) + 3 +
        2 * (state.start.toNat + dueNs setup i - wakeAt)
  | .stamping i => loopCost setup (i + 1) + 1
  | .reporting => 2
  | .calming => 1
  | .closing _ | .returned _ => 0

/-- A step of `run`. -/
def Label.acts : Label → Bool
  | .main _ | .cutSync | .cutSleep => true
  | .tick _ => false

/-- A signal ends a sleep. -/
def Label.Cuts : Label → Prop
  | .cutSync | .cutSleep => True
  | .main _ | .tick _ => False

/-- A tick has its cost. -/
theorem loopCost_succ
    {i : Nat}
    (inside : i ≤ setup.ticks) :
    loopCost setup i = loopCost setup (i + 1) + tickCost setup := by
  have split : setup.ticks + 1 - i = setup.ticks + 1 - (i + 1) + 1 := by
    omega
  rw [loopCost, split, Nat.add_mul, Nat.one_mul, loopCost]
  omega

/-- The loop takes no more than its ticks do. -/
theorem measure_loopHead
    {i : Nat}
    (head : state.main = Stage.loopHead setup.ticks i) :
    state.measure setup ≤ loopCost setup i := by
  unfold State.measure
  rcases loopHead_cases setup.ticks i with ⟨inside, here⟩ | ⟨_, here⟩
  · rw [head, here, loopCost_succ inside, tickCost]
    simp only
    omega
  · have least : 2 ≤ loopCost setup i := Nat.le_add_right _ _
    rw [head, here]
    exact least

/-- A sleep ends `j` before the deadline, and `j` is less than what was left. -/
theorem nap_shortens
    {due now j most : Nat}
    (cost : Nat)
    (near : j ≤ most)
    (before : now + j < due) :
    cost + 3 + 2 * (due - (now + (due - (now + j)))) <
      cost + 2 + 2 * min (most + 1) (due - now) := by
  omega

/-- Every step of `run` lowers what is left. -/
theorem measure_lt
    (sound : Sound setup state)
    (late : state.now < 2 ^ 62)
    (moved : Move setup state next) :
    next.measure setup < state.measure setup := by
  have timeline := sound.timeline late
  cases moved with
  | fails main what stage =>
      rcases stage with ⟨stage, rfl⟩ | ⟨stage, rfl⟩ <;>
        simp [State.measure, State.giveUp, stage]
  | starts stage =>
      refine Nat.lt_of_le_of_lt (measure_loopHead rfl) ?_
      simp only [State.measure, stage]
      omega
  | stamps i stage =>
      refine Nat.lt_of_le_of_lt (measure_loopHead rfl) ?_
      simp only [State.measure, stage]
      omega
  | meets i stage due =>
      simp only [State.measure, stage]
      omega
  | naps i stage early =>
      rw [Timeline, stage] at timeline
      obtain ⟨p, dts, beats, inside, synced⟩ := timeline
      obtain ⟨j, near, read⟩ :=
        reading_of_prepares sound.prepares late (by rw [stage]; rfl)
      have exact := beats.toNat_deadline inside late synced
      have before := UInt64.lt_iff_toNat_lt.mp (UInt64.not_le.mp early)
      have remaining :
          (deadline setup state.start i - state.reading.1).toNat =
            (deadline setup state.start i).toNat -
              state.reading.1.toNat :=
        UInt64.toNat_sub_of_le _ _
          (UInt64.le_iff_toNat_le.mpr before.le)
      rw [exact, read] at before remaining
      simp only [State.measure, stage, remaining]
      exact nap_shortens _ near before
  | wakes i wakeAt stage due =>
      simp only [State.measure, stage]
      omega
  | wakesSync i wakeAt stage due | syncsAtOnce i stage fast =>
      simp only [State.measure, stage]
      omega
  | pairs stage | opens given slots fd stage answered | setsDelay stage
  | setsJitter stage | announces stage | writes i kernel stage
  | syncs i stage | reports stage | calms stage =>
      simp only [State.measure, stage]
      omega

end Measure

section Progress

variable {setup : Setup} {state : State}

/-- `run` goes on without a failing call, if need be after a sleep. -/
def Moves (setup : Setup) (state : State) : Prop :=
  ∃ ns answer,
    ({ state with now := state.now + ns }.mainStep? setup
      (some answer)).isSome = true

/-- Until `run` gives up or has reported it can go on. -/
theorem moves_of_unfinished
    (unfinished : ∀ rc, state.main ≠ .closing rc ∧ state.main ≠ .returned rc) :
    Moves setup state := by
  cases stage : state.main with
  | pairing =>
      exact ⟨0, 0, by simp [State.mainStep?, stage]⟩
  | opening =>
      refine ⟨0, 3, ?_⟩
      simp only [State.mainStep?, stage]
      split <;> rfl
  | syncing i =>
      refine ⟨0, 0, ?_⟩
      simp only [State.mainStep?, stage]
      split <;> rfl
  | checking i =>
      refine ⟨0, 0, ?_⟩
      simp only [State.mainStep?, stage]
      split <;> rfl
  | sleepingSync i wakeAt | sleeping i wakeAt =>
      exact ⟨wakeAt, 0, by simp [State.mainStep?, stage]⟩
  | settingDelay | settingJitter | announcing | starting | writing i
  | stamping i | reporting | calming =>
      exact ⟨0, 0, by simp [State.mainStep?, stage]⟩
  | closing rc =>
      exact absurd stage (unfinished rc).1
  | returned rc =>
      exact absurd stage (unfinished rc).2

/-- Time does not go back. -/
theorem now_le_of_step?
    {label : Label}
    {next : State}
    (taken : state.step? setup label = some next) :
    state.now ≤ next.now := by
  cases label with
  | main answer =>
      exact (now_of_move (move_of_mainStep? taken)).ge
  | cutSync | cutSleep =>
      simp only [State.step?] at taken
      split at taken
      · exact Option.some.inj taken ▸ Nat.le_refl _
      · cases taken
  | tick ns =>
      simp only [State.step?, Option.some.injEq] at taken
      subst taken
      exact Nat.le_add_right _ _

/-- What is left does not grow while time passes. -/
theorem measure_tick (setup : Setup) (state : State) (ns : Nat) :
    { state with now := state.now + ns }.measure setup ≤
      state.measure setup := by
  unfold State.measure
  cases stage : state.main <;> simp only <;> omega

/-- More steps than these the main thread does not make. -/
def stepBound (setup : Setup) : Nat :=
  8 + setup.ticks * tickCost setup

/-- A run begins with everything to be done. -/
theorem measure_init (setup : Setup) (seed : UInt64) (now : Nat) :
    (State.init seed now).measure setup = stepBound setup := by
  simp only [State.measure, State.init, loopCost, stepBound,
    Nat.add_sub_cancel]
  omega

end Progress

end FailurePlayground.FlakyEnvironment
