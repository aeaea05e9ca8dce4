import FailurePlayground.CancelMidwrite

namespace FailurePlayground.CancelMidwrite

/-!
# When the cancelled copy is joined

`tcm_run` does not look at what `chaos_thread_cancel_at_ns` returns.  Without
a timer nothing cancels the copier, and the join waits for ever; in every other
state the run can still come to its end.
-/

section Stranded

variable {state next : State} {label : Label}

/-- The main thread waits for a copier that nobody is going to cancel. -/
def Stranded (state : State) : Prop :=
  state.main = .joining ∧ state.handle ≠ none ∧ state.timer = .absent

/-- A thread that waits for ever goes on waiting. -/
theorem stranded_step
    (sound : Sound state)
    (stranded : Stranded state)
    (taken : state.step? label = some next) :
    Stranded next := by
  obtain ⟨stage, held, unarmed⟩ := stranded
  have notRequested : state.cancelRequested = false := by
    refine Bool.eq_false_iff.mpr fun requested => ?_
    rw [sound.requested requested] at unarmed
    cases unarmed
  cases label with
  | main =>
      simp only [State.step?, State.mainStep?, stage] at taken
      split at taken
      · rename_i none
        exact absurd none held
      · simp only [Option.ite_none_right_eq_some] at taken
        have requested := sound.exited taken.1
        rw [notRequested] at requested
        cases requested
  | spawnFails =>
      simp [State.step?, stage] at taken
  | armFails =>
      simp [State.step?, stage] at taken
  | copier =>
      simp only [State.step?, State.copierStep?] at taken
      split at taken
      · cases taken
      · cases taken
      · simp only [Option.some.injEq] at taken
        subst taken
        exact ⟨stage, held, unarmed⟩
      · simp only [notRequested, Bool.false_eq_true, if_false,
          Option.some.injEq] at taken
        subst taken
        exact ⟨stage, held, unarmed⟩
      · simp only [Option.ite_none_right_eq_some,
          Option.some.injEq] at taken
        obtain ⟨_, rfl⟩ := taken
        exact ⟨stage, held, unarmed⟩
  | copierDies =>
      simp only [State.step?, notRequested, Bool.false_eq_true,
        if_false] at taken
      split at taken <;> cases taken
  | timer =>
      simp [State.step?, State.timerStep?, unarmed] at taken
  | tick ns =>
      simp only [State.step?, Option.some.injEq] at taken
      subst taken
      exact ⟨stage, held, unarmed⟩

end Stranded

section Progress

variable {state : State}

/-- What the main thread has still to do. -/
def MainStage.rank : MainStage → Nat
  | .zeroing => 7
  | .announcing => 6
  | .spawning => 5
  | .arming => 4
  | .joining => 3
  | .freeing => 2
  | .reporting => 1
  | .returned => 0

/-- What the timer thread has still to do. -/
def Timer.rank (now : Nat) : Timer → Nat
  | .absent => 6
  | .created => 5
  | .sleeping wakeAt => if wakeAt ≤ now then 3 else 4
  | .woken => 2
  | .flagSet => 1
  | .finished => 0

/-- What a copier that is cancelled has still to do. -/
def Copier.rank : Copier → Nat
  | .absent => 3
  | .storing _ => 2
  | .napping _ | .asleep _ _ => 1
  | .exited => 0

/-- What the three threads have still to do. -/
def State.measure (state : State) : Nat :=
  state.main.rank + state.timer.rank state.now + state.copier.rank

/-- A copier that has been cancelled ends, and is joined. -/
theorem moves_of_finished
    (sound : Sound state)
    (stage : state.main = .joining)
    (held : state.handle ≠ none)
    (finished : state.timer = .finished) :
    ∃ label next,
      state.step? label = some next ∧ ¬ Stranded next ∧
        next.measure < state.measure := by
  have requested := sound.finished finished
  cases copier : state.copier with
  | absent =>
      exact absurd (sound.absent.mp copier) held
  | storing field =>
      refine ⟨.copier, _, by
        simp only [State.step?, State.copierStep?, copier]
        rfl, ?_, ?_⟩
      · simp [Stranded, finished]
      · simp only [State.measure, copier, Copier.rank]
        omega
  | napping field =>
      refine ⟨.copier, _, by
        simp only [State.step?, State.copierStep?, copier, requested,
          if_true]
        rfl, ?_, ?_⟩
      · simp [Stranded, finished]
      · simp only [State.measure, copier, Copier.rank]
        omega
  | asleep field wakeAt =>
      refine ⟨.copierDies, _, by
        simp only [State.step?, copier, requested, if_true]
        rfl, ?_, ?_⟩
      · simp [Stranded, finished]
      · simp only [State.measure, copier, Copier.rank]
        omega
  | exited =>
      obtain ⟨handle, here⟩ := Option.ne_none_iff_exists'.mp held
      refine ⟨.main, _, by
        simp only [State.step?, State.mainStep?, stage, here, copier,
          if_true]
        rfl, ?_, ?_⟩
      · simp [Stranded]
      · simp only [State.measure, stage, copier, MainStage.rank]
        omega

/-- With a timer that was created the copier is cancelled. -/
theorem moves_of_joining
    (sound : Sound state)
    (stage : state.main = .joining)
    (held : state.handle ≠ none)
    (armed : state.timer ≠ .absent) :
    ∃ label next,
      state.step? label = some next ∧ ¬ Stranded next ∧
        next.measure < state.measure := by
  cases timer : state.timer with
  | absent =>
      exact absurd timer armed
  | finished =>
      exact moves_of_finished sound stage held timer
  | created =>
      refine ⟨.timer, _, by
        simp only [State.step?, State.timerStep?, timer]
        rfl, ?_, ?_⟩
      · simp [Stranded]
      · simp only [State.measure, timer, Timer.rank]
        split <;> omega
  | woken | flagSet =>
      refine ⟨.timer, _, by
        simp only [State.step?, State.timerStep?, timer]
        rfl, ?_, ?_⟩
      · simp [Stranded]
      · simp only [State.measure, timer, Timer.rank]
        omega
  | sleeping wakeAt =>
      by_cases due : wakeAt ≤ state.now
      · refine ⟨.timer, _, by
          simp only [State.step?, State.timerStep?, timer, due, if_true]
          rfl, ?_, ?_⟩
        · simp [Stranded]
        · simp only [State.measure, timer, Timer.rank, due, if_true]
          omega
      · refine ⟨.tick wakeAt, _, rfl, ?_, ?_⟩
        · simp [Stranded, timer]
        · have later : wakeAt ≤ state.now + wakeAt := by
            omega
          simp only [State.measure, timer, Timer.rank, due, later,
            if_true, if_false]
          omega

/-- Some step keeps the thread from waiting for ever and brings it on. -/
theorem progress
    (sound : Sound state)
    (fine : ¬ Stranded state)
    (unfinished : state.main ≠ .returned) :
    ∃ label next,
      state.step? label = some next ∧
        (Sound next ∧ ¬ Stranded next) ∧
        (next.main = .returned ∨ next.measure < state.measure) := by
  suffices moves :
      ∃ label next,
        state.step? label = some next ∧ ¬ Stranded next ∧
          next.measure < state.measure by
    obtain ⟨label, next, taken, kept, lower⟩ := moves
    exact ⟨label, next, taken, ⟨sound.step taken, kept⟩, Or.inr lower⟩
  cases stage : state.main with
  | returned =>
      exact absurd stage unfinished
  | zeroing | announcing | freeing | reporting =>
      refine ⟨.main, _, by
        simp only [State.step?, State.mainStep?, stage]
        rfl, ?_, ?_⟩
      · simp [Stranded]
      · simp only [State.measure, stage, MainStage.rank]
        omega
  | spawning =>
      refine ⟨.main, _, by
        simp only [State.step?, State.mainStep?, stage]
        rfl, ?_, ?_⟩
      · simp [Stranded]
      · have none := sound.unspawned (by rw [stage]; rfl)
        simp only [State.measure, stage, MainStage.rank,
          sound.absent.mpr none, Copier.rank]
        omega
  | arming =>
      have unarmed := sound.early (by rw [stage]; rfl)
      cases held : state.handle with
      | none =>
          refine ⟨.main, _, by
            simp only [State.step?, State.mainStep?, stage, held]
            rfl, ?_, ?_⟩
          · simp [Stranded]
          · simp only [State.measure, stage, MainStage.rank]
            omega
      | some handle =>
          refine ⟨.main, _, by
            simp only [State.step?, State.mainStep?, stage, held]
            rfl, ?_, ?_⟩
          · simp [Stranded]
          · simp only [State.measure, stage, MainStage.rank, unarmed,
              Timer.rank]
            omega
  | joining =>
      by_cases none : state.handle = none
      · refine ⟨.main, _, by
          simp only [State.step?, State.mainStep?, stage, none]
          rfl, ?_, ?_⟩
        · simp [Stranded]
        · simp only [State.measure, stage, MainStage.rank]
          omega
      · exact moves_of_joining sound stage none fun unarmed =>
          fine ⟨stage, none, unarmed⟩

end Progress

/--
A run can come to its end from exactly the states in which the main thread
does not wait for a copier without a timer; from those it never returns.
-/
theorem midwrite_returns_iff
    {now : Nat}
    {old : List Int}
    {labels : List Label}
    {state : State}
    (ran : (State.start now old).run? labels = some state) :
    (∃ later final,
        state.run? later = some final ∧ final.main = .returned) ↔
      ¬ (state.main = .joining ∧ state.handle ≠ none ∧
        state.timer = .absent) := by
  have sound := sound_of_run ran
  constructor
  · rintro ⟨later, final, ranLater, returned⟩ stranded
    have kept :
        ∀ {before : State} {label : Label} {after : State},
          Sound before ∧ Stranded before →
            before.step? label = some after →
              Sound after ∧ Stranded after :=
      fun holds taken =>
        ⟨holds.1.step taken, stranded_step holds.1 holds.2 taken⟩
    have still :=
      Transition.run?_invariant kept ranLater ⟨sound, stranded⟩
    rw [still.2.1] at returned
    cases returned
  · intro fine
    obtain ⟨later, final, ranLater, _, returned⟩ :
        ∃ later final,
          state.run? later = some final ∧
            (Sound final ∧ ¬ Stranded final) ∧
            final.main = .returned :=
      Transition.exists_run_to_goal State.measure
        (fun _ holds unfinished =>
          progress holds.1 holds.2 unfinished) ⟨sound, fine⟩
    exact ⟨later, final, ranLater, returned⟩

/-- The copier runs and its timer was not created. -/
theorem midwrite_returns_iff_stranded :
    ∃ state,
      (State.start 0 zeroRecord).run?
          [.main, .main, .main, .armFails, .copier] = some state ∧
        ((∃ later final,
            state.run? later = some final ∧ final.main = .returned) ↔
          ¬ (state.main = .joining ∧ state.handle ≠ none ∧
            state.timer = .absent)) := by
  have enabled :
      ((State.start 0 zeroRecord).run?
        [.main, .main, .main, .armFails, .copier]).isSome = true := by
    decide +kernel
  obtain ⟨state, ran⟩ := Option.isSome_iff_exists.mp enabled
  exact ⟨state, ran, midwrite_returns_iff ran⟩

end FailurePlayground.CancelMidwrite
