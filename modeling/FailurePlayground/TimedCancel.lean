import Mathlib.Data.UInt
import FailurePlayground.Lib.Transition

namespace FailurePlayground.ChaosThread

/-!
# A timed cancel and the handle it holds

`chaos_thread_cancel_at_ns` starts a detached timer thread that sleeps and
then touches the target's handle twice: it sets the stop flag and reads the
thread id for `pthread_cancel`.  `chaos_thread_join` waits for the target, not
for the timer, and then frees the handle.
-/

/-- The memory behind a `chaos_thread_t *`. -/
inductive Handle where
  | live (stopFlag : Bool)
  | freed
  deriving Repr, DecidableEq

/-- `atomic_store_explicit` on the stop flag; a freed handle stays freed. -/
def Handle.setStopFlag : Handle → Handle
  | .live _ => .live true
  | .freed => .freed

/-- Where the target thread stands. -/
inductive Target where
  | running
  | exited
  deriving Repr, DecidableEq

/-- Where the timer thread stands in `cancel_after_fn`. -/
inductive Timer where
  | created
  | sleeping (since : Nat)
  | woken
  | flagSet
  | finished
  deriving Repr, DecidableEq

/-- Where the caller stands: using the handle, in `pthread_join`, or past it. -/
inductive Caller where
  | holding
  | joining
  | joined
  deriving Repr, DecidableEq

/-- The clock, the handle, the three threads, and a cancel request. -/
structure State where
  now : Nat
  armedAt : Nat
  afterNs : UInt64
  handle : Handle
  cancelRequested : Bool
  target : Target
  timer : Timer
  caller : Caller
  deriving Repr, DecidableEq

/-- One step of a thread, or of the clock. -/
inductive Label where
  | tick (ns : Nat)
  | timerStarts
  | timerWakes
  | timerInterrupted
  | timerSetsFlag
  | timerCancels
  | targetPolls
  | targetFinishes
  | targetCancelled
  | callerCancels
  | join
  | free
  deriving Repr, DecidableEq

namespace State

/-- The caller's `after_ns` has elapsed since it armed the timer. -/
def elapsed (state : State) : Prop :=
  state.armedAt + state.afterNs.toNat ≤ state.now

instance (state : State) : Decidable state.elapsed :=
  inferInstanceAs (Decidable (_ ≤ _))

/--
Execute one enabled label.  The caller obeys the header: it calls
`chaos_thread_join` only after `after_ns` has elapsed.
-/
def step? (state : State) : Label → Option State
  | .tick ns =>
      some { state with now := state.now + ns }
  | .timerStarts =>
      if state.timer = .created then
        some { state with timer := .sleeping state.now }
      else
        none
  | .timerWakes =>
      match state.timer with
      | .sleeping since =>
          if since + state.afterNs.toNat ≤ state.now then
            some { state with timer := .woken }
          else
            none
      | _ => none
  | .timerInterrupted =>
      match state.timer with
      | .sleeping _ => some { state with timer := .woken }
      | _ => none
  | .timerSetsFlag =>
      if state.timer = .woken then
        some { state with
          timer := .flagSet
          handle := state.handle.setStopFlag }
      else
        none
  | .timerCancels =>
      if state.timer = .flagSet then
        some { state with timer := .finished, cancelRequested := true }
      else
        none
  | .targetPolls =>
      match state.target, state.handle with
      | .running, .live true => some { state with target := .exited }
      | .running, .live false => some state
      | _, _ => none
  | .targetFinishes =>
      if state.target = .running then
        some { state with target := .exited }
      else
        none
  | .targetCancelled =>
      if state.target = .running ∧ state.cancelRequested then
        some { state with target := .exited }
      else
        none
  | .callerCancels =>
      if state.caller = .holding then
        some { state with
          handle := state.handle.setStopFlag
          cancelRequested := true }
      else
        none
  | .join =>
      if state.caller = .holding ∧ state.elapsed then
        some { state with caller := .joining }
      else
        none
  | .free =>
      if state.caller = .joining ∧ state.target = .exited then
        some { state with caller := .joined, handle := .freed }
      else
        none

/-- Execute a finite interleaving. -/
abbrev run? : State → List Label → Option State :=
  Transition.run? step?

/-- `chaos_thread_cancel_at_ns` has just returned on a running target. -/
def start (armedAt : Nat) (afterNs : UInt64) : State where
  now := armedAt
  armedAt := armedAt
  afterNs := afterNs
  handle := .live false
  cancelRequested := false
  target := .running
  timer := .created
  caller := .holding

/-- The timer thread touches only a handle that has not been freed. -/
def TouchesLive (state : State) : Label → Prop
  | .timerSetsFlag | .timerCancels => state.handle ≠ .freed
  | _ => True

instance (state : State) : (label : Label) →
    Decidable (state.TouchesLive label)
  | .timerSetsFlag | .timerCancels =>
      inferInstanceAs (Decidable (state.handle ≠ .freed))
  | .tick _ | .timerStarts | .timerWakes | .timerInterrupted
  | .targetPolls | .targetFinishes | .targetCancelled | .callerCancels
  | .join | .free =>
      inferInstanceAs (Decidable True)

/-- The steps that end the target: its return, a poll, a cancellation. -/
def EndsTarget (state : State) : Label → Prop
  | .targetFinishes | .targetCancelled => True
  | .targetPolls => state.handle = .live true
  | .tick _ | .timerStarts | .timerWakes | .timerInterrupted
  | .timerSetsFlag | .timerCancels | .callerCancels | .join
  | .free => False

instance (state : State) : (label : Label) →
    Decidable (state.EndsTarget label)
  | .targetFinishes | .targetCancelled =>
      inferInstanceAs (Decidable True)
  | .targetPolls => inferInstanceAs (Decidable (_ = _))
  | .tick _ | .timerStarts | .timerWakes | .timerInterrupted
  | .timerSetsFlag | .timerCancels | .callerCancels | .join
  | .free =>
      inferInstanceAs (Decidable False)

/--
The target runs until the timer's `pthread_cancel`: it neither returns, nor
leaves on the flag, nor falls to another cancellation before that call.
-/
def RunsUntilCancel (state : State) (label : Label) : Prop :=
  state.EndsTarget label → state.timer = .finished

instance (state : State) (label : Label) :
    Decidable (state.RunsUntilCancel label) :=
  inferInstanceAs (Decidable (_ → _))

variable
  {state next : State}
  {label : Label}

/-- Setting the flag frees nothing. -/
theorem freed_of_setStopFlag
    {handle : Handle}
    (freed : handle.setStopFlag = .freed) :
    handle = .freed := by
  cases handle with
  | live stopFlag =>
      exact absurd freed (by simp [Handle.setStopFlag])
  | freed =>
      exact rfl

/-- What one step can do to the target, the handle and the timer. -/
theorem step_cases
    (stepped : state.step? label = some next) :
    (next.target = .exited →
        state.target = .exited ∨ state.EndsTarget label) ∧
      (next.handle = .freed →
        state.handle = .freed ∨ state.target = .exited) ∧
      (state.target = .exited → next.target = .exited) ∧
      (state.timer = .finished → next.timer = .finished) := by
  cases label with
  | tick ns =>
      simp only [step?, Option.some.injEq] at stepped
      subst stepped
      exact ⟨Or.inl, Or.inl, id, id⟩
  | timerStarts =>
      simp only [step?, Option.ite_none_right_eq_some,
        Option.some.injEq] at stepped
      obtain ⟨created, rfl⟩ := stepped
      refine ⟨Or.inl, Or.inl, id, fun finished => ?_⟩
      rw [finished] at created
      exact absurd created (by simp)
  | timerWakes =>
      simp only [step?] at stepped
      split at stepped
      · rename_i since sleeping
        simp only [Option.ite_none_right_eq_some,
          Option.some.injEq] at stepped
        obtain ⟨_, rfl⟩ := stepped
        refine ⟨Or.inl, Or.inl, id, fun finished => ?_⟩
        rw [finished] at sleeping
        exact absurd sleeping (by simp)
      · exact absurd stepped (by simp)
  | timerInterrupted =>
      simp only [step?] at stepped
      split at stepped
      · rename_i since sleeping
        simp only [Option.some.injEq] at stepped
        subst stepped
        refine ⟨Or.inl, Or.inl, id, fun finished => ?_⟩
        rw [finished] at sleeping
        exact absurd sleeping (by simp)
      · exact absurd stepped (by simp)
  | timerSetsFlag =>
      simp only [step?, Option.ite_none_right_eq_some,
        Option.some.injEq] at stepped
      obtain ⟨woken, rfl⟩ := stepped
      refine ⟨Or.inl, fun freed => Or.inl (freed_of_setStopFlag freed),
        id, fun finished => ?_⟩
      rw [finished] at woken
      exact absurd woken (by simp)
  | timerCancels =>
      simp only [step?, Option.ite_none_right_eq_some,
        Option.some.injEq] at stepped
      obtain ⟨_, rfl⟩ := stepped
      exact ⟨Or.inl, Or.inl, id, fun _ => rfl⟩
  | targetPolls =>
      simp only [step?] at stepped
      split at stepped
      · rename_i running flagged
        simp only [Option.some.injEq] at stepped
        subst stepped
        exact ⟨fun _ => Or.inr flagged, Or.inl, fun _ => rfl, id⟩
      · simp only [Option.some.injEq] at stepped
        subst stepped
        exact ⟨Or.inl, Or.inl, id, id⟩
      · exact absurd stepped (by simp)
  | targetFinishes | targetCancelled =>
      simp only [step?, Option.ite_none_right_eq_some,
        Option.some.injEq] at stepped
      obtain ⟨_, rfl⟩ := stepped
      exact ⟨fun _ => Or.inr trivial, Or.inl, fun _ => rfl, id⟩
  | callerCancels =>
      simp only [step?, Option.ite_none_right_eq_some,
        Option.some.injEq] at stepped
      obtain ⟨_, rfl⟩ := stepped
      exact ⟨Or.inl, fun freed => Or.inl (freed_of_setStopFlag freed),
        id, id⟩
  | join =>
      simp only [step?, Option.ite_none_right_eq_some,
        Option.some.injEq] at stepped
      obtain ⟨_, rfl⟩ := stepped
      exact ⟨Or.inl, Or.inl, id, id⟩
  | free =>
      simp only [step?, Option.ite_none_right_eq_some,
        Option.some.injEq] at stepped
      obtain ⟨⟨_, exited⟩, rfl⟩ := stepped
      exact ⟨Or.inl, fun _ => Or.inr exited, id, id⟩

/--
`chaos_thread_join` frees the handle of a target that has exited, and a target
that runs until the timer's `pthread_cancel` exits after the timer's accesses.
-/
structure Outlived (state : State) : Prop where
  freed : state.handle = .freed → state.target = .exited
  exited : state.target = .exited → state.timer = .finished

/-- A guarded step keeps the handle alive for the timer. -/
theorem Outlived.step
    (outlived : state.Outlived)
    (guarded : state.RunsUntilCancel label)
    (stepped : state.step? label = some next) :
    next.Outlived := by
  obtain ⟨ends, frees, exits, finishes⟩ := step_cases stepped
  constructor
  · intro freed
    exact exits ((frees freed).elim outlived.freed id)
  · intro exited
    exact finishes ((ends exited).elim outlived.exited guarded)

/-- A handle that outlived the timer is not touched after its end. -/
theorem Outlived.touchesLive
    (outlived : state.Outlived)
    (stepped : state.step? label = some next) :
    state.TouchesLive label := by
  cases label with
  | timerSetsFlag =>
      simp only [step?, Option.ite_none_right_eq_some] at stepped
      intro freed
      rw [outlived.exited (outlived.freed freed)] at stepped
      exact absurd stepped.1 (by simp)
  | timerCancels =>
      simp only [step?, Option.ite_none_right_eq_some] at stepped
      intro freed
      rw [outlived.exited (outlived.freed freed)] at stepped
      exact absurd stepped.1 (by simp)
  | _ =>
      exact trivial

/-- The steps a timer still takes before it has read the thread id. -/
def Timer.left (timer : Timer) (afterNs : UInt64) : List Label :=
  match timer with
  | .created =>
      [.timerStarts, .tick afterNs.toNat, .timerWakes, .timerSetsFlag]
  | .sleeping _ => [.timerInterrupted, .timerSetsFlag]
  | .woken => [.timerSetsFlag]
  | .flagSet => [.timerCancels]
  | .finished => []

/-- A timer that still has a step to take touches the handle it was given. -/
theorem touches_of_not_finished
    (freed : state.handle = .freed)
    (busy : state.timer ≠ .finished) :
    ∃ final,
      state.run? (Timer.left state.timer state.afterNs) = some final ∧
        ¬ Transition.EachStep step? TouchesLive state
            (Timer.left state.timer state.afterNs) := by
  cases here : state.timer with
  | created =>
      simp [Timer.left, Transition.run?, Transition.EachStep, step?,
        here, TouchesLive, freed]
  | sleeping since =>
      simp [Timer.left, Transition.run?, Transition.EachStep, step?,
        here, TouchesLive, freed]
  | woken =>
      simp [Timer.left, Transition.run?, Transition.EachStep, step?,
        here, TouchesLive, freed]
  | flagSet =>
      simp [Timer.left, Transition.run?, Transition.EachStep, step?,
        here, TouchesLive, freed]
  | finished =>
      exact absurd here busy

/-- The clock has not gone back, and only a joined target is freed. -/
structure Obeyed (state : State) : Prop where
  clock : state.armedAt ≤ state.now
  joined : state.caller = .joined → state.target = .exited

/-- Every step keeps the clock and the order of exit and join. -/
theorem Obeyed.step
    (obeyed : state.Obeyed)
    (stepped : state.step? label = some next) :
    next.Obeyed := by
  obtain ⟨_, _, exits, _⟩ := step_cases stepped
  cases label with
  | tick ns =>
      simp only [step?, Option.some.injEq] at stepped
      subst stepped
      exact ⟨Nat.le_trans obeyed.clock (Nat.le_add_right _ _),
        obeyed.joined⟩
  | timerWakes | timerInterrupted | targetPolls =>
      have same :
          next.armedAt = state.armedAt ∧ next.now = state.now ∧
            next.caller = state.caller := by
        simp only [step?] at stepped
        grind
      obtain ⟨armedAt, now, caller⟩ := same
      refine ⟨?_, fun joined => exits (obeyed.joined ?_)⟩
      · rw [armedAt, now]
        exact obeyed.clock
      · rw [← caller]
        exact joined
  | timerStarts | timerSetsFlag | timerCancels | targetFinishes
  | targetCancelled | callerCancels =>
      simp only [step?, Option.ite_none_right_eq_some,
        Option.some.injEq] at stepped
      obtain ⟨_, rfl⟩ := stepped
      exact ⟨obeyed.clock, fun joined => exits (obeyed.joined joined)⟩
  | join =>
      simp only [step?, Option.ite_none_right_eq_some,
        Option.some.injEq] at stepped
      obtain ⟨_, rfl⟩ := stepped
      exact ⟨obeyed.clock, fun joined => absurd joined (by simp)⟩
  | free =>
      simp only [step?, Option.ite_none_right_eq_some,
        Option.some.injEq] at stepped
      obtain ⟨⟨_, exited⟩, rfl⟩ := stepped
      exact ⟨obeyed.clock, fun _ => exited⟩

/-- What ends the target leaves the caller, the clock and the timer alone. -/
theorem step?_endsTarget
    (ends : state.EndsTarget label)
    (stepped : state.step? label = some next) :
    state.target = .running ∧
      next = { state with target := .exited } := by
  cases label with
  | targetFinishes | targetCancelled =>
      simp only [step?, Option.ite_none_right_eq_some,
        Option.some.injEq] at stepped
      grind
  | targetPolls =>
      have flagged : state.handle = .live true := ends
      simp only [step?, flagged] at stepped
      grind
  | _ =>
      exact absurd ends id

/-- The steps of a caller that obeys the header, up to the free. -/
def Caller.left (caller : Caller) (afterNs : UInt64) : List Label :=
  match caller with
  | .holding => [.tick afterNs.toNat, .join, .free]
  | .joining => [.free]
  | .joined => []

/-- Once the target has exited, a caller that obeys the header frees. -/
theorem frees_of_exited
    (clock : state.armedAt ≤ state.now)
    (exited : state.target = .exited)
    (notJoined : state.caller ≠ .joined) :
    ∃ freed,
      state.run? (Caller.left state.caller state.afterNs) = some freed ∧
        freed.handle = .freed ∧ freed.timer = state.timer := by
  cases here : state.caller with
  | holding =>
      have waited :
          state.armedAt + state.afterNs.toNat ≤
            state.now + state.afterNs.toNat := by
        omega
      simp [Caller.left, Transition.run?, step?, here, exited, elapsed,
        waited]
  | joining =>
      simp [Caller.left, Transition.run?, step?, here, exited]
  | joined =>
      exact absurd here notJoined

end State

/--
While the target runs until the timer's `pthread_cancel`, the timer never
touches a freed handle, however the caller, the target and the timer are
interleaved; a target that ends earlier can be joined and freed, by a caller
that obeys the header, before the timer touches the handle.
-/
theorem timedCancel_exact
    (armedAt : Nat)
    (afterNs : UInt64)
    (labels : List Label)
    (state : State)
    (ran : (State.start armedAt afterNs).run? labels = some state) :
    (Transition.EachStep State.step? State.RunsUntilCancel
        (State.start armedAt afterNs) labels →
      Transition.EachStep State.step? State.TouchesLive
        (State.start armedAt afterNs) labels) ∧
      ∀ label next,
        state.step? label = some next →
        ¬ state.RunsUntilCancel label →
        ∃ later final,
          next.run? later = some final ∧
            ¬ Transition.EachStep State.step? State.TouchesLive
                next later := by
  constructor
  · intro guarded
    refine Transition.eachStep_mono State.Outlived.step
      (fun outlived _ stepped => outlived.touchesLive stepped)
      ran guarded ?_
    exact {
      freed := fun freed => absurd freed (by simp [State.start])
      exited := fun exited => absurd exited (by simp [State.start])
    }
  · intro label next stepped early
    obtain ⟨ends, busy⟩ := Classical.not_imp.mp early
    have obeyed : state.Obeyed :=
      Transition.run?_invariant
        (fun holds stepped => State.Obeyed.step holds stepped) ran
        ⟨Nat.le_refl _, fun joined => absurd joined (by simp [State.start])⟩
    obtain ⟨running, rfl⟩ := State.step?_endsTarget ends stepped
    have notJoined : state.caller ≠ .joined := by
      intro joined
      rw [obeyed.joined joined] at running
      exact absurd running (by simp)
    obtain ⟨freed, ranFree, gone, timer⟩ :=
      @State.frees_of_exited { state with target := .exited }
        obeyed.clock rfl notJoined
    obtain ⟨final, ranTimer, touches⟩ :=
      State.touches_of_not_finished gone (by rw [timer]; exact busy)
    refine ⟨_, final, Transition.run?_append ranFree ranTimer, ?_⟩
    intro live
    exact touches (Transition.eachStep_later ranFree live)

/-- The target leaves on the flag once the timer has called `pthread_cancel`. -/
def patientRun : List Label :=
  [.timerStarts, .targetPolls, .tick 60, .timerWakes, .timerSetsFlag,
    .timerCancels, .targetPolls, .join, .free]

theorem timedCancel_exact_patient :
    ∃ state,
      (State.start 1000 50).run? patientRun = some state ∧
        state.handle = .freed ∧
        Transition.EachStep State.step? State.TouchesLive
          (State.start 1000 50) patientRun := by
  have ends :
      ((State.start 1000 50).run? patientRun).any
        (fun state => state.handle = .freed) = true := by
    decide
  have guarded :
      Transition.EachStep State.step? State.RunsUntilCancel
        (State.start 1000 50) patientRun := by
    decide
  obtain ⟨state, ran, freed⟩ := (Option.any_eq_true _ _).mp ends
  exact ⟨state, ran, of_decide_eq_true freed,
    (timedCancel_exact 1000 50 patientRun state ran).1 guarded⟩

/--
The time has elapsed and the target is done before the timer thread has run
at all, or between its two accesses.
-/
theorem timer_touches_freed :
    (∃ state,
      (State.start 1000 50).run?
          [.targetFinishes, .tick 50, .join, .free, .timerStarts,
            .tick 50, .timerWakes, .timerSetsFlag] = some state ∧
        ¬ Transition.EachStep State.step? State.TouchesLive
            (State.start 1000 50)
            [.targetFinishes, .tick 50, .join, .free, .timerStarts,
              .tick 50, .timerWakes, .timerSetsFlag]) ∧
      ∃ state,
        (State.start 1000 50).run?
            [.timerStarts, .tick 50, .timerWakes, .timerSetsFlag,
              .targetPolls, .join, .free, .timerCancels] = some state ∧
          ¬ Transition.EachStep State.step? State.TouchesLive
              (State.start 1000 50)
              [.timerStarts, .tick 50, .timerWakes, .timerSetsFlag,
                .targetPolls, .join, .free, .timerCancels] :=
  ⟨⟨_, rfl, by decide⟩, ⟨_, rfl, by decide⟩⟩

end FailurePlayground.ChaosThread
