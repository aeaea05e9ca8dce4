import FailurePlayground.Runner
import FailurePlayground.Lib.Transition

namespace FailurePlayground.RunLoop

/-!
# The run loop against its child

The child sends 256-byte records over a bounded pipe; the parent reads them in
`run_scenario` or `run_headless`, leaves its loop, and calls `pg_run_reap`,
which waits for the child before it closes the read end.  A signal may
interrupt `poll` at any time, and a record's header may be rejected.
-/

/-- Which loop precedes `pg_run_reap`. -/
inductive Caller where
  | runScenario
  | runHeadless
  deriving Repr, DecidableEq

/-- Where the parent stands. -/
inductive Parent where
  | looping
  | waiting
  | reaped
  deriving Repr, DecidableEq

/-- Where the child stands; it closes its write end before it exits. -/
inductive Child where
  | running
  | closed
  | exited
  deriving Repr, DecidableEq

/-- The parent, the child and the event pipe, counted in records. -/
structure State where
  caller : Caller
  capacity : Nat
  parent : Parent
  aborted : Bool
  readOpen : Bool
  child : Child
  termSent : Bool
  pending : List PgEvent
  pipe : List PgEvent

/-- One step of the parent, of the child, or of a signal. -/
inductive Label where
  | childWrites
  | childWriteFails
  | childCloses
  | childExits
  | childKilled
  | pollInterrupted
  | pollTimesOut
  | userAborts
  | innerPollInterrupted
  | pollsRecord
  | pollsEof
  | waitpidInterrupted
  | waitpidReturns
  deriving Repr, DecidableEq

/--
Both loops go on after a record other than `PG_EV_DONE`; any other result of
`pg_run_poll` ends them.
-/
def loopContinues : PollState → Bool
  | .returned (.event event) => event.kind != PgEventKind.done.code
  | _ => false

namespace State

/-- The parent's state after a result of `pg_run_poll`. -/
def settle (state : State) (poll : PollState) : State :=
  { state with
    parent := if loopContinues poll then .looping else .waiting }

/-- `poll` reports the event descriptor readable or hung up. -/
def readable (state : State) : Bool :=
  !state.pipe.isEmpty || state.child != .running

/-- Execute one enabled label. -/
def step? (state : State) : Label → Option State
  | .childWrites =>
      match state.child, state.pending with
      | .running, event :: rest =>
          if state.readOpen ∧ state.pipe.length < state.capacity then
            some { state with
              pending := rest
              pipe := state.pipe ++ [event] }
          else
            none
      | _, _ =>
          none
  | .childWriteFails =>
      match state.child, state.pending with
      | .running, _ :: rest =>
          if state.readOpen then
            none
          else
            some { state with pending := rest }
      | _, _ =>
          none
  | .childCloses =>
      if state.child = .running ∧ state.pending = [] then
        some { state with child := .closed }
      else
        none
  | .childExits =>
      if state.child = .closed then
        some { state with child := .exited }
      else
        none
  | .childKilled =>
      if state.termSent ∧ state.child ≠ .exited then
        some { state with child := .exited }
      else
        none
  | .pollInterrupted =>
      if state.parent = .looping ∧ state.caller = .runScenario then
        some { state with parent := .waiting }
      else
        none
  | .pollTimesOut =>
      if state.parent = .looping ∧ state.caller = .runScenario ∧
          ¬ state.readable then
        some state
      else
        none
  | .userAborts =>
      if state.parent = .looping ∧ state.caller = .runScenario ∧
          ¬ state.aborted then
        some { state with aborted := true, termSent := true }
      else
        none
  | .innerPollInterrupted =>
      if state.parent = .looping ∧ state.caller = .runScenario ∧
          state.readable then
        some (state.settle (pgRunPoll 0 0 .failed))
      else
        none
  | .pollsRecord =>
      match state.parent, state.pipe with
      | .looping, event :: rest =>
          some ({ state with pipe := rest }.settle
            (pgRunPollIteration [] (.bytes event.encode)))
      | _, _ =>
          none
  | .pollsEof =>
      if state.parent = .looping ∧ state.pipe = [] ∧
          state.child ≠ .running then
        some (state.settle (pgRunPollIteration [] .eof))
      else
        none
  | .waitpidInterrupted =>
      if state.parent = .waiting then
        some state
      else
        none
  | .waitpidReturns =>
      if state.parent = .waiting ∧ state.child = .exited then
        some { state with parent := .reaped, readOpen := false }
      else
        none

/-- Execute a finite interleaving. -/
abbrev run? : State → List Label → Option State :=
  Transition.run? step?

/-- The parent and child after `pg_run_start`. -/
def start
    (caller : Caller)
    (capacity : Nat)
    (events : List PgEvent) : State where
  caller := caller
  capacity := capacity
  parent := .looping
  aborted := false
  readOpen := true
  child := .running
  termSent := false
  pending := events
  pipe := []

/--
The parent is blocked in `waitpid` while the child is blocked writing to the
full pipe, with no signal on its way to either.
-/
structure Deadlocked (state : State) : Prop where
  waiting : state.parent = .waiting
  running : state.child = .running
  writing : state.pending ≠ []
  full : state.capacity ≤ state.pipe.length
  readOpen : state.readOpen = true
  noSignal : state.termSent = false

/--
With `held` records in the pipe the child can finish without a reader: it has
closed its end, it has been sent `SIGTERM`, or what it still has to send fits.
-/
def outputFits (state : State) (held : Nat) : Prop :=
  state.child ≠ .running ∨ state.termSent = true ∨
    held + state.pending.length ≤ state.capacity

/-- A step out of the loop is taken only when the child's output fits. -/
def leavesSafely (state : State) : Label → Prop
  | .pollInterrupted | .innerPollInterrupted =>
      state.outputFits state.pipe.length
  | .pollsRecord =>
      ∀ event ∈ state.pipe.head?,
        loopContinues (pgRunPollIteration [] (.bytes event.encode)) =
            true ∨
          state.outputFits state.pipe.tail.length
  | _ =>
      True

instance (state : State) (held : Nat) :
    Decidable (state.outputFits held) :=
  inferInstanceAs (Decidable (_ ∨ _ ∨ _))

instance (state : State) (label : Label) :
    Decidable (state.leavesSafely label) :=
  match label with
  | .pollInterrupted | .innerPollInterrupted =>
      inferInstanceAs (Decidable (state.outputFits state.pipe.length))
  | .pollsRecord =>
      inferInstanceAs (Decidable (∀ event ∈ state.pipe.head?, _ ∨ _))
  | .childWrites | .childWriteFails | .childCloses | .childExits
  | .childKilled | .pollTimesOut | .userAborts | .pollsEof
  | .waitpidInterrupted | .waitpidReturns =>
      inferInstanceAs (Decidable True)

end State

section Steps

variable {state next : State}

/-- The child writes a record when the pipe has room. -/
theorem step?_childWrites
    (stepped : state.step? .childWrites = some next) :
    ∃ event rest,
      state.pending = event :: rest ∧
        state.pipe.length < state.capacity ∧
        next =
          { state with
            pending := rest
            pipe := state.pipe ++ [event] } := by
  simp only [State.step?] at stepped
  split at stepped
  · rename_i event rest _ pending
    simp only [Option.ite_none_right_eq_some,
      Option.some.injEq] at stepped
    obtain ⟨⟨_, room⟩, moved⟩ := stepped
    exact ⟨event, rest, pending, room, moved.symm⟩
  · exact absurd stepped (by simp)

/-- A failed write loses its record. -/
theorem step?_childWriteFails
    (stepped : state.step? .childWriteFails = some next) :
    ∃ event rest,
      state.pending = event :: rest ∧
        next = { state with pending := rest } := by
  simp only [State.step?] at stepped
  split at stepped
  · rename_i event rest _ pending
    simp only [Option.ite_none_left_eq_some,
      Option.some.injEq] at stepped
    obtain ⟨_, moved⟩ := stepped
    exact ⟨event, rest, pending, moved.symm⟩
  · exact absurd stepped (by simp)

/-- A looping parent takes the first record from the pipe. -/
theorem step?_pollsRecord
    (stepped : state.step? .pollsRecord = some next) :
    ∃ event rest,
      state.parent = .looping ∧
        state.pipe = event :: rest ∧
        next =
          State.settle { state with pipe := rest }
            (pgRunPollIteration [] (.bytes event.encode)) := by
  simp only [State.step?] at stepped
  split at stepped
  · rename_i event rest looping pipe
    exact
      ⟨event, rest, looping, pipe, (Option.some.inj stepped).symm⟩
  · exact absurd stepped (by simp)

/-- Output that fits still fits when less is left of it. -/
theorem outputFits_of_le
    {pending pipe : List PgEvent}
    (fits : state.outputFits state.pipe.length)
    (less :
      pipe.length + pending.length ≤
        state.pipe.length + state.pending.length) :
    State.outputFits { state with pending := pending, pipe := pipe }
      pipe.length :=
  fits.imp_right (Or.imp_right (Nat.le_trans less))

end Steps

section Safety

/-- Once the loop is left, the child's output fits. -/
def LeftSafely (state : State) : Prop :=
  state.parent ≠ .looping → state.outputFits state.pipe.length

/-- A result that keeps the loop going leaves nothing to show. -/
theorem leftSafely_settle
    {state : State}
    {poll : PollState}
    (fits :
      loopContinues poll = false →
        state.outputFits state.pipe.length) :
    LeftSafely (state.settle poll) := by
  intro left
  cases continues : loopContinues poll with
  | true =>
      simp [State.settle, continues] at left
  | false =>
      exact fits continues

/-- A step that leaves the loop only when output fits keeps it so. -/
theorem LeftSafely.step
    {state next : State}
    {label : Label}
    (safely : LeftSafely state)
    (guarded : state.leavesSafely label)
    (stepped : state.step? label = some next) :
    LeftSafely next := by
  cases label with
  | childWrites =>
      obtain ⟨event, rest, pending, _, rfl⟩ := step?_childWrites stepped
      intro left
      refine outputFits_of_le (safely left) ?_
      rw [pending, List.length_cons, List.length_append,
        List.length_singleton]
      omega
  | childWriteFails =>
      obtain ⟨event, rest, pending, rfl⟩ := step?_childWriteFails stepped
      intro left
      refine outputFits_of_le (safely left) ?_
      rw [pending, List.length_cons]
      omega
  | childCloses | childExits | childKilled =>
      simp only [State.step?, Option.ite_none_right_eq_some,
        Option.some.injEq] at stepped
      obtain ⟨_, rfl⟩ := stepped
      exact fun _ => Or.inl (by simp)
  | pollInterrupted =>
      simp only [State.step?, Option.ite_none_right_eq_some,
        Option.some.injEq] at stepped
      obtain ⟨_, rfl⟩ := stepped
      exact fun _ => guarded
  | pollTimesOut | waitpidInterrupted =>
      simp only [State.step?, Option.ite_none_right_eq_some,
        Option.some.injEq] at stepped
      obtain ⟨_, rfl⟩ := stepped
      exact safely
  | userAborts =>
      simp only [State.step?, Option.ite_none_right_eq_some,
        Option.some.injEq] at stepped
      obtain ⟨_, rfl⟩ := stepped
      exact fun _ => Or.inr (Or.inl rfl)
  | innerPollInterrupted =>
      simp only [State.step?, Option.ite_none_right_eq_some,
        Option.some.injEq] at stepped
      obtain ⟨_, rfl⟩ := stepped
      exact leftSafely_settle fun _ => guarded
  | pollsRecord =>
      obtain ⟨event, rest, _, pipe, rfl⟩ := step?_pollsRecord stepped
      simp only [State.leavesSafely, pipe, List.head?_cons,
        List.tail_cons, Option.mem_some_iff,
        forall_eq'] at guarded
      exact leftSafely_settle fun ended =>
        guarded.resolve_left (by simp [ended])
  | pollsEof =>
      simp only [State.step?, Option.ite_none_right_eq_some,
        Option.some.injEq] at stepped
      obtain ⟨⟨_, _, stopped⟩, rfl⟩ := stepped
      exact leftSafely_settle fun _ => Or.inl stopped
  | waitpidReturns =>
      simp only [State.step?, Option.ite_none_right_eq_some,
        Option.some.injEq] at stepped
      obtain ⟨⟨_, exited⟩, rfl⟩ := stepped
      exact fun _ => Or.inl (by simp [exited])

/-- A child whose output fits is not stuck on the pipe. -/
theorem LeftSafely.not_deadlocked
    {state : State}
    (safely : LeftSafely state) :
    ¬ state.Deadlocked := by
  intro deadlocked
  have left : state.parent ≠ .looping := by
    simp [deadlocked.waiting]
  rcases safely left with stopped | signalled | fits
  · exact stopped deadlocked.running
  · exact absurd signalled (by simp [deadlocked.noSignal])
  · have some := List.length_pos_iff.mpr deadlocked.writing
    have full := deadlocked.full
    omega

end Safety

section Deadlock

/-- What every reachable state satisfies, however the loop was left. -/
structure Wired (state : State) : Prop where
  room : state.pipe.length ≤ state.capacity
  readOpen : state.parent ≠ .reaped → state.readOpen = true

/-- Every step keeps the pipe within its capacity and open until reaped. -/
theorem Wired.step
    {state next : State}
    {label : Label}
    (wired : Wired state)
    (stepped : state.step? label = some next) :
    Wired next := by
  cases label with
  | childWrites =>
      obtain ⟨event, rest, _, room, rfl⟩ := step?_childWrites stepped
      refine ⟨?_, wired.readOpen⟩
      rw [List.length_append, List.length_singleton]
      exact room
  | childWriteFails =>
      obtain ⟨event, rest, _, rfl⟩ := step?_childWriteFails stepped
      exact ⟨wired.room, wired.readOpen⟩
  | childCloses | childExits | childKilled | userAborts | pollTimesOut
  | waitpidInterrupted =>
      simp only [State.step?, Option.ite_none_right_eq_some,
        Option.some.injEq] at stepped
      obtain ⟨_, rfl⟩ := stepped
      exact ⟨wired.room, wired.readOpen⟩
  | pollInterrupted | innerPollInterrupted | pollsEof =>
      simp only [State.step?, Option.ite_none_right_eq_some,
        Option.some.injEq] at stepped
      obtain ⟨⟨looping, _⟩, rfl⟩ := stepped
      exact ⟨wired.room, fun _ => wired.readOpen (by simp [looping])⟩
  | pollsRecord =>
      obtain ⟨event, rest, looping, pipe, rfl⟩ :=
        step?_pollsRecord stepped
      have room := wired.room
      rw [pipe, List.length_cons] at room
      exact ⟨Nat.le_of_succ_le room,
        fun _ => wired.readOpen (by simp [looping])⟩
  | waitpidReturns =>
      simp only [State.step?, Option.ite_none_right_eq_some,
        Option.some.injEq] at stepped
      obtain ⟨_, rfl⟩ := stepped
      exact ⟨wired.room, fun notReaped => absurd rfl notReaped⟩

/-- A waiting parent whose child may still send more than fits. -/
structure Overflowing (state : State) : Prop where
  wired : Wired state
  waiting : state.parent = .waiting
  running : state.child = .running
  noSignal : state.termSent = false
  overflows :
    state.capacity < state.pipe.length + state.pending.length

/-- An overflowing child keeps writing until the pipe is full. -/
theorem Overflowing.progress
    {state : State}
    (overflowing : Overflowing state)
    (free : ¬ state.Deadlocked) :
    ∃ label next,
      state.step? label = some next ∧
        Overflowing next ∧
        (next.Deadlocked ∨
          next.pending.length < state.pending.length) := by
  have overflows := overflowing.overflows
  have room := overflowing.wired.room
  have readOpen :=
    overflowing.wired.readOpen (by simp [overflowing.waiting])
  cases pending : state.pending with
  | nil =>
      rw [pending, List.length_nil] at overflows
      omega
  | cons event rest =>
      have notFull : state.pipe.length < state.capacity := by
        refine Nat.lt_of_not_le fun full => free {
          waiting := overflowing.waiting
          running := overflowing.running
          writing := by simp [pending]
          full := full
          readOpen := readOpen
          noSignal := overflowing.noSignal
        }
      have stepped :
          state.step? .childWrites =
            some { state with
              pending := rest
              pipe := state.pipe ++ [event] } := by
        simp [State.step?, overflowing.running, pending, readOpen,
          notFull]
      refine ⟨.childWrites, _, stepped, {
        wired := overflowing.wired.step stepped
        waiting := overflowing.waiting
        running := overflowing.running
        noSignal := overflowing.noSignal
        overflows := ?_
      }, Or.inr ?_⟩
      · rw [pending, List.length_cons] at overflows
        simp only [List.length_append, List.length_singleton]
        omega
      · simp

/-- Left with too much still to send, the child can block for good. -/
theorem Overflowing.exists_run_deadlocked
    {state : State}
    (overflowing : Overflowing state) :
    ∃ labels final,
      state.run? labels = some final ∧ final.Deadlocked := by
  obtain ⟨labels, final, ran, _, deadlocked⟩ :=
    Transition.exists_run_to_goal
      (fun state : State => state.pending.length)
      (fun _ holds free => Overflowing.progress holds free)
      overflowing
  exact ⟨labels, final, ran, deadlocked⟩

/-- What does not fit overflows. -/
theorem overflowing_of_not_outputFits
    {state : State}
    (wired : Wired state)
    (waiting : state.parent = .waiting)
    (careless : ¬ state.outputFits state.pipe.length) :
    Overflowing state := by
  simp only [State.outputFits, not_or, not_not] at careless
  obtain ⟨running, notSent, overflows⟩ := careless
  exact {
    wired := wired
    waiting := waiting
    running := running
    noSignal := Bool.eq_false_of_not_eq_true notSent
    overflows := Nat.lt_of_not_le overflows
  }

/-- Leaving the loop unsafely leaves an overflowing child behind. -/
theorem overflowing_of_not_leavesSafely
    {state next : State}
    {label : Label}
    (wired : Wired state)
    (stepped : state.step? label = some next)
    (careless : ¬ state.leavesSafely label) :
    Overflowing next := by
  have wiredNext := wired.step stepped
  cases label with
  | pollInterrupted =>
      simp only [State.step?, Option.ite_none_right_eq_some,
        Option.some.injEq] at stepped
      obtain ⟨_, rfl⟩ := stepped
      exact overflowing_of_not_outputFits wiredNext rfl careless
  | innerPollInterrupted =>
      simp only [State.step?, Option.ite_none_right_eq_some,
        Option.some.injEq] at stepped
      obtain ⟨_, rfl⟩ := stepped
      exact overflowing_of_not_outputFits wiredNext rfl careless
  | pollsRecord =>
      obtain ⟨event, rest, _, pipe, rfl⟩ := step?_pollsRecord stepped
      simp only [State.leavesSafely, pipe, List.head?_cons,
        List.tail_cons, Option.mem_some_iff, forall_eq',
        Bool.not_eq_true, not_or] at careless
      refine overflowing_of_not_outputFits wiredNext ?_ careless.2
      simp [State.settle, careless.1]
  | childWrites | childWriteFails | childCloses | childExits
  | childKilled | pollTimesOut | userAborts | pollsEof
  | waitpidInterrupted | waitpidReturns =>
      exact absurd trivial careless

end Deadlock

/--
A run whose every step leaves the loop safely never reaches a deadlock, and
from any reachable state a step that leaves it unsafely can be continued to
one.
-/
theorem leavesSafely_exact
    (caller : Caller)
    (capacity : Nat)
    (events : List PgEvent)
    (labels : List Label)
    (state : State)
    (ran : (State.start caller capacity events).run? labels = some state) :
    (Transition.EachStep State.step? State.leavesSafely
        (State.start caller capacity events) labels →
      ¬ state.Deadlocked) ∧
      ∀ label next,
        state.step? label = some next →
        ¬ state.leavesSafely label →
        ∃ later final,
          next.run? later = some final ∧ final.Deadlocked := by
  constructor
  · intro guarded
    exact LeftSafely.not_deadlocked
      (Transition.run?_invariant_of_eachStep LeftSafely.step ran
        guarded (fun left => absurd rfl left))
  · intro label next stepped careless
    have wired : Wired state :=
      Transition.run?_invariant Wired.step ran
        ⟨Nat.zero_le capacity, fun _ => rfl⟩
    exact (overflowing_of_not_leavesSafely wired stepped
      careless).exists_run_deadlocked

/-- A child that sends two records to a pipe of one. -/
def twoRecords : State :=
  State.start .runScenario 1
    [pgEmitCopy { eventFdW := 3, threadTag := 0, startNs := 0 } 1 5
      (PgEvent.ofKind .log),
     pgEmitCopy { eventFdW := 3, threadTag := 0, startNs := 0 } 1 6
      (PgEvent.ofKind .done)]

/-- The child finishes before the parent reads `PG_EV_DONE`. -/
def twoRecordsRun : List Label :=
  [.pollTimesOut, .childWrites, .pollsRecord, .childWrites,
    .pollsRecord, .waitpidInterrupted, .childCloses, .childExits,
    .waitpidReturns]

theorem leavesSafely_exact_twoRecords :
    ∃ state,
      twoRecords.run? twoRecordsRun = some state ∧
        state.parent = .reaped ∧ ¬ state.Deadlocked := by
  have reaps :
      (twoRecords.run? twoRecordsRun).any
        (fun state => state.parent = .reaped) = true := by
    decide +kernel
  have guarded :
      Transition.EachStep State.step? State.leavesSafely twoRecords
        twoRecordsRun := by
    decide +kernel
  obtain ⟨state, ran, reaped⟩ := (Option.any_eq_true _ _).mp reaps
  exact ⟨state, ran, of_decide_eq_true reaped,
    (leavesSafely_exact .runScenario 1 _ twoRecordsRun state ran).1
      guarded⟩

/--
With the 64 KiB pipe of Linux, one interrupted `poll` and 257 records to send
are enough: `run_scenario` waits for a child that waits for it.
-/
theorem deadlocked_pollInterrupted :
    ∃ state,
      (State.start .runScenario 256
          (List.replicate 257 (PgEvent.ofKind .log))).run?
          (.pollInterrupted :: List.replicate 256 .childWrites) =
        some state ∧
        state.Deadlocked := by
  have reached :
      ((State.start .runScenario 256
            (List.replicate 257 (PgEvent.ofKind .log))).run?
          (.pollInterrupted :: List.replicate 256 .childWrites)).any
        (fun state =>
          state.parent = .waiting ∧ state.child = .running ∧
            state.pending ≠ [] ∧
            state.capacity ≤ state.pipe.length ∧
            state.readOpen = true ∧ state.termSent = false) =
        true := by
    decide +kernel
  obtain ⟨state, ran, stuck⟩ := (Option.any_eq_true _ _).mp reached
  obtain ⟨waiting, running, writing, full, readOpen, noSignal⟩ :=
    of_decide_eq_true stuck
  exact ⟨state, ran, waiting, running, writing, full, readOpen,
    noSignal⟩

end FailurePlayground.RunLoop
