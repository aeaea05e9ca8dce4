import Mathlib.Data.UInt
import Mathlib.Logic.Function.Basic
import FailurePlayground.Runner
import FailurePlayground.Lib.Transition

namespace FailurePlayground.EventPipe

/-!
# The event pipe between scenario threads and the parent

Any number of child threads emit through `pg_emit` into one pipe; the parent
calls `pg_run_poll` with a negative timeout.  A step is one system call of one
party.  The kernel chooses when a call happens, when a signal interrupts it
and how many bytes a read returns; a write of at most `PIPE_BUF` bytes is
all-or-nothing and waits for room.
-/

/-- The least `PIPE_BUF` POSIX allows; every pipe holds at least this much. -/
def pipeBuf : Nat := 512

/-- A scenario thread: what it still emits and the record it is writing. -/
structure Thread where
  gThreadTag : UInt32
  pending : List PgEvent
  writing : Option (List UInt8)

namespace Thread

/-- The thread has nothing left to emit or to write. -/
def finished (thread : Thread) : Bool :=
  thread.pending.isEmpty && thread.writing.isNone

/-- Adopt the state of a `pg_emit` loop. -/
def adopt (thread : Thread) : EmitState → Thread
  | .writing remaining => { thread with writing := some remaining }
  | .returned => { thread with writing := none }

end Thread

/-- The threads, the pipe, and the parent's calls of `pg_run_poll` so far. -/
structure State (n : Nat) where
  ctx : PgRunctx
  capacity : Nat
  capacityFits : pipeBuf ≤ capacity
  threads : Fin n → Thread
  pipe : List UInt8
  writersOpen : Bool
  reading : Option (List UInt8)
  results : List PollResult

/-- One system call, or one call of `pg_emit` or `pg_run_poll`. -/
inductive Label (n : Nat) where
  | emit (thread : Fin n) (nowNs : UInt64)
  | write (thread : Fin n)
  | writeInterrupted (thread : Fin n)
  | closeWriters
  | poll
  | read (count : Nat)
  | readInterrupted
  | readEof
  deriving Repr, DecidableEq

namespace Label

/-- A step other than a system call cut short by a signal. -/
def productive {n : Nat} : Label n → Bool
  | .writeInterrupted _ => false
  | .readInterrupted => false
  | _ => true

end Label

namespace State

variable {n : Nat}

/-- Replace one thread. -/
def setThread
    (state : State n)
    (index : Fin n)
    (thread : Thread) : State n :=
  { state with
    threads := Function.update state.threads index thread }

/-- Adopt the state of a `pg_run_poll` loop, recording its result. -/
def settle (state : State n) : PollState → State n
  | .reading got =>
      { state with reading := some got }
  | .returned result =>
      { state with
        reading := none
        results := state.results ++ [result] }

/-- Execute one enabled label. -/
def step? (state : State n) : Label n → Option (State n)
  | .emit index nowNs =>
      let thread := state.threads index
      match thread.writing, thread.pending with
      | none, event :: rest =>
          some (state.setThread index
            ({ thread with pending := rest }.adopt
              (pgEmit (some state.ctx) none thread.gThreadTag nowNs
                (some event))))
      | _, _ =>
          none
  | .write index =>
      let thread := state.threads index
      match thread.writing with
      | some remaining =>
          if state.pipe.length + remaining.length ≤ state.capacity then
            some { state.setThread index
                (thread.adopt
                  (pgEmitIteration remaining
                    (.wrote remaining.length))) with
              pipe := state.pipe ++ remaining }
          else
            none
      | none =>
          none
  | .writeInterrupted index =>
      let thread := state.threads index
      thread.writing.map fun remaining =>
        state.setThread index
          (thread.adopt (pgEmitIteration remaining .interrupted))
  | .closeWriters =>
      if state.writersOpen &&
          decide (∀ index, (state.threads index).finished = true) then
        some { state with writersOpen := false }
      else
        none
  | .poll =>
      match state.reading with
      | none => some (state.settle (pgRunPoll 0 (-1) .ready))
      | some _ => none
  | .read count =>
      match state.reading with
      | some got =>
          if 0 < count ∧ count ≤ state.pipe.length ∧
              got.length + count ≤ pgEventSize then
            some ({ state with pipe := state.pipe.drop count }.settle
              (pgRunPollIteration got
                (.bytes (state.pipe.take count))))
          else
            none
      | none => none
  | .readInterrupted =>
      state.reading.map fun got =>
        state.settle (pgRunPollIteration got .interrupted)
  | .readEof =>
      match state.reading with
      | some got =>
          if state.pipe.isEmpty && !state.writersOpen then
            some (state.settle (pgRunPollIteration got .eof))
          else
            none
      | none => none

/-- Execute a finite interleaving. -/
abbrev run? : State n → List (Label n) → Option (State n) :=
  Transition.run? step?

/--
The state after `pg_run_start`: threads with their emission sequences, an
empty pipe, and a context whose descriptor `pipe` returned.
-/
def start
    (fd capacity : Nat)
    (capacityFits : pipeBuf ≤ capacity)
    (startNs : UInt64)
    (gThreadTags : Fin n → UInt32)
    (emissions : Fin n → List PgEvent) : State n where
  ctx := { eventFdW := fd, threadTag := 0, startNs := startNs }
  capacity := capacity
  capacityFits := capacityFits
  threads := fun index => {
    gThreadTag := gThreadTags index
    pending := emissions index
    writing := none
  }
  pipe := []
  writersOpen := true
  reading := none
  results := []

/-- A pipe whose writers are gone, still holding some bytes. -/
def ofStream (stream : List UInt8) : State 0 where
  ctx := { eventFdW := 0, threadTag := 0, startNs := 0 }
  capacity := pipeBuf
  capacityFits := Nat.le_refl pipeBuf
  threads := fun index => index.elim0
  pipe := stream
  writersOpen := false
  reading := none
  results := []

/-- The records for which `pg_run_poll` has returned 1 so far. -/
def returned (state : State n) : List PgEvent :=
  state.results.filterMap PollResult.event?

/-- `pg_run_poll` has returned 0. -/
def atEof (state : State n) : Prop :=
  PollResult.eof ∈ state.results

instance (state : State n) : Decidable state.atEof :=
  inferInstanceAs (Decidable (PollResult.eof ∈ state.results))

/-- A read takes bytes off the pipe and runs one iteration on them. -/
theorem step?_read
    {state next : State n}
    {count : Nat}
    (stepped : state.step? (.read count) = some next) :
    ∃ got,
      state.reading = some got ∧
        0 < count ∧ count ≤ state.pipe.length ∧
        got.length + count ≤ pgEventSize ∧
        next =
          ({ state with pipe := state.pipe.drop count } : State n).settle
            (pgRunPollIteration got
              (.bytes (state.pipe.take count))) := by
  cases reading : state.reading with
  | none =>
      simp [step?, reading] at stepped
  | some got =>
      by_cases allowed :
          0 < count ∧ count ≤ state.pipe.length ∧
            got.length + count ≤ pgEventSize
      · simp only [step?, reading, allowed, and_self, ↓reduceIte,
          Option.some.injEq] at stepped
        rw [← reading] at stepped
        exact ⟨got, rfl, allowed.1, allowed.2.1, allowed.2.2,
          stepped.symm⟩
      · simp [step?, reading, allowed] at stepped

/-- End of file is read from an empty pipe without writers. -/
theorem step?_readEof
    {state next : State n}
    (stepped : state.step? .readEof = some next) :
    ∃ got,
      state.reading = some got ∧
        state.pipe = [] ∧ state.writersOpen = false ∧
        next = state.settle (pgRunPollIteration got .eof) := by
  cases reading : state.reading with
  | none =>
      simp [step?, reading] at stepped
  | some got =>
      by_cases ended : state.pipe = [] ∧ state.writersOpen = false
      · simp only [step?, reading, ended.1, ended.2, List.isEmpty_nil,
          Bool.not_false, Bool.and_self, ↓reduceIte,
          Option.some.injEq] at stepped
        exact ⟨got, rfl, ended.1, ended.2, stepped.symm⟩
      · simp only [step?, reading, Option.ite_none_right_eq_some,
          Bool.and_eq_true, List.isEmpty_iff,
          Bool.not_eq_eq_eq_not, Bool.not_true] at stepped
        exact (ended stepped.1).elim

/-- A poll starts a record window. -/
theorem step?_poll
    {state next : State n}
    (stepped : state.step? .poll = some next) :
    state.reading = none ∧ next = { state with reading := some [] } := by
  cases reading : state.reading with
  | none =>
      simp only [step?, reading, Option.some.injEq] at stepped
      exact ⟨rfl, stepped.symm⟩
  | some got =>
      simp [step?, reading] at stepped

/-- An interrupted read is retried from the same state. -/
theorem step?_readInterrupted
    {state next : State n}
    (stepped : state.step? .readInterrupted = some next) :
    next = state := by
  cases reading : state.reading with
  | none =>
      simp [step?, reading] at stepped
  | some got =>
      simp only [step?, reading, Option.map_some,
        Option.some.injEq] at stepped
      rw [← stepped]
      cases state
      simp_all [pgRunPollIteration, settle]

/-- An interrupted write is retried from the same state. -/
theorem step?_writeInterrupted
    {state next : State n}
    {index : Fin n}
    (stepped : state.step? (.writeInterrupted index) = some next) :
    next = state := by
  cases writing : (state.threads index).writing with
  | none =>
      simp [step?, writing] at stepped
  | some remaining =>
      have same :
          (state.threads index).adopt
              (pgEmitIteration remaining .interrupted) =
            state.threads index := by
        simp only [Thread.adopt, pgEmitIteration, ← writing]
      simp only [step?, writing, Option.map_some, Option.some.injEq,
        same, setThread, Function.update_eq_self] at stepped
      exact stepped.symm

/-- The writers close once every thread has finished. -/
theorem step?_closeWriters
    {state next : State n}
    (stepped : state.step? .closeWriters = some next) :
    (∀ index, (state.threads index).finished = true) ∧
      state.writersOpen = true ∧
      next = { state with writersOpen := false } := by
  simp only [step?, Option.ite_none_right_eq_some,
    Bool.and_eq_true, decide_eq_true_eq, Option.some.injEq] at stepped
  exact ⟨stepped.1.2, stepped.1.1, stepped.2.symm⟩

/-- A thread starts writing the copy of its next event. -/
theorem step?_emit
    {state next : State n}
    {index : Fin n}
    {nowNs : UInt64}
    (stepped : state.step? (.emit index nowNs) = some next) :
    ∃ event rest,
      (state.threads index).writing = none ∧
        (state.threads index).pending = event :: rest ∧
        next =
          state.setThread index
            ({ state.threads index with pending := rest }.adopt
              (pgEmit (some state.ctx) none
                (state.threads index).gThreadTag nowNs
                (some event))) := by
  cases writing : (state.threads index).writing with
  | some remaining =>
      simp [step?, writing] at stepped
  | none =>
      cases pending : (state.threads index).pending with
      | nil =>
          simp [step?, writing, pending] at stepped
      | cons event rest =>
          simp only [step?, writing, pending,
            Option.some.injEq] at stepped
          exact ⟨event, rest, rfl, rfl, stepped.symm⟩

/-- A write puts the whole record into the pipe. -/
theorem step?_write
    {state next : State n}
    {index : Fin n}
    (stepped : state.step? (.write index) = some next) :
    ∃ remaining,
      (state.threads index).writing = some remaining ∧
        next =
          { state.setThread index
              { state.threads index with writing := none } with
            pipe := state.pipe ++ remaining } := by
  cases writing : (state.threads index).writing with
  | none =>
      simp [step?, writing] at stepped
  | some remaining =>
      by_cases room :
          state.pipe.length + remaining.length ≤ state.capacity
      · simp only [step?, writing, room, ↓reduceIte,
          pgEmitIteration_all, Option.some.injEq] at stepped
        exact ⟨remaining, rfl, stepped.symm⟩
      · simp [step?, writing, room] at stepped

end State

end FailurePlayground.EventPipe
