import FailurePlayground.Consumers
import FailurePlayground.FatalEvents
import FailurePlayground.Lib.Numeral
import FailurePlayground.Overlay

namespace FailurePlayground.RunVerdict

/-!
# The verdict on a run

The parent reads records until its loop ends, waits for the child and says how
the child ended: `run_headless` when it has seen no `PG_EV_DONE`,
`run_scenario` when the child did not exit with 0.  The threads of the child,
the parent's calls and the signals that end the child come in any order.

The parent keeps the reading end open until the child is gone, so a `write` of
`pg_emit` does not fail once it has begun.  The single `write` of the crash
handler is lost when a signal interrupts it, which takes a handler: the child
of `run_scenario` has those of ncurses.  The one for `SIGTERM` exits with 1.
`waitpid` fails when the parent was started with `SIGCHLD` ignored; then the
child is gone and its status with it.  A signal from outside that kills the
child is none that the runner's crash handler is installed for.
-/

open ChildProcess (Signal Thread IsDone IsWatchdog crashEvent)

/-- What `waitpid` says of a child that is gone. -/
inductive WaitStatus where
  | exited (code : Nat)
  | signaled (signal : Nat)
  deriving Repr, DecidableEq

/-- The number of a signal. -/
def signalNumber : Signal → Nat
  | .ill => 4
  | .abrt => 6
  | .bus => 7
  | .fpe => 8
  | .segv => 11

/-- The argument of `_exit` after `pg_done`. -/
def exitCode (rc : Int) : Nat :=
  if rc = 0 then 0 else 1

/-- How the child ends through a thread that ends it. -/
def endThrough (rc : Int) (thread : Thread) : WaitStatus :=
  match thread.stage, thread.ending with
  | .afterWatchdog _, _ => .exited 2
  | .running, .crashes signal | .afterCrash _, .crashes signal =>
      .signaled (signalNumber signal)
  | _, _ => .exited (exitCode rc)

/-- The thread is in the `write` of its crash handler. -/
def handling (thread : Thread) : Bool :=
  match thread.stage, thread.inFlight with
  | .inHandler _, some _ => true
  | _, _ => false

section Lines

/-- `saw_done`. -/
def sawDone (shown : List PgEvent) : Bool :=
  shown.any fun event => decide (IsDone event)

/-- The line of `run_headless` about a signal. -/
def diedLine (signal : Nat) : List UInt8 :=
  Bytes.ascii "child died from signal " ++ Numeral.signed signal ++ [newline]

/-- The line of `run_headless` about an early exit. -/
def earlyLine (code : Nat) : List UInt8 :=
  Bytes.ascii "child exited " ++ Numeral.signed code ++
    Bytes.ascii " before PG_EV_DONE" ++ [newline]

/-- The line of `run_scenario` about a signal. -/
def killedLine (signal : Nat) : List UInt8 :=
  Bytes.ascii "child killed by signal " ++ Numeral.signed signal

/-- The line of `run_scenario` about an exit. -/
def exitedLine (code : Nat) : List UInt8 :=
  Bytes.ascii "child exited " ++ Numeral.signed code

/-- What the caller says after `pg_run_reap`; nothing is an empty text. -/
def verdict
    (caller : RunLoop.Caller)
    (shown : List PgEvent)
    (status : WaitStatus) : List UInt8 :=
  match caller, status with
  | .runHeadless, .signaled signal =>
      if sawDone shown then [] else diedLine signal
  | .runHeadless, .exited code =>
      if sawDone shown then [] else earlyLine code
  | .runScenario, .signaled signal =>
      killedLine signal
  | .runScenario, .exited code =>
      if code ≠ 0 then exitedLine code else []

end Lines

/--
The child, its status once it is gone, the parent with the pipe between them,
the status the parent is left with if `waitpid` fails, and what it has said.
-/
structure State (n : Nat) where
  child : ChildProcess.State n
  status : Option WaitStatus
  consumer : Consumers.State
  unwaited : WaitStatus
  said : Option (List UInt8)

/--
A thread of the child takes its next step, or has the `write` of its crash
handler interrupted; the child is ended by a signal that no handler takes
(from outside, `SIGPIPE`, or a fault without a stack for the handler), or by
the handler that ncurses has for `SIGTERM` and `SIGINT`; the parent makes a
call of its loop; or it waits for the child, and speaks.
-/
inductive Label (n : Nat) where
  | thread (index : Fin n) (nowNs : UInt64)
  | interrupted (index : Fin n)
  | killed (signal : Nat)
  | terminated
  | parent (label : Consumers.Label)
  | reap
  | reapFails
  deriving Repr, DecidableEq

/-- The child holds the writing end: open, or in a `write` that has begun. -/
def Attached {n : Nat} (child : ChildProcess.State n) : Bool :=
  child.alive &&
    (child.fdOpen ||
      (List.finRange n).any fun index =>
        (child.threads index).inFlight.isSome)

namespace State

variable {n : Nat}

/-- The child has moved on: the pipe has its new records, or its end. -/
def follow
    (state : State n)
    (next : ChildProcess.State n)
    (ended : WaitStatus) : State n :=
  let fresh := next.stream.drop state.child.stream.length
  { state with
    child := next
    status := if next.alive then state.status else some ended
    consumer := {
      state.consumer with
      pipe := state.consumer.pipe ++ fresh.flatMap PgEvent.encode
      writerOpen := Attached next } }

/-- What the parent says about a status. -/
def speak (state : State n) (status : WaitStatus) : State n :=
  { state with
    said :=
      some (verdict state.consumer.caller state.consumer.shown status) }

/-- Execute one enabled label. -/
def step? (rc : Int) (state : State n) : Label n → Option (State n)
  | .thread index nowNs =>
      (state.child.step? (.step index nowNs true)).map fun next =>
        state.follow next (endThrough rc (state.child.threads index))
  | .interrupted index =>
      if state.consumer.caller = .runScenario ∧
          handling (state.child.threads index) = true then
        (state.child.step? (.step index 0 false)).map fun next =>
          state.follow next (endThrough rc (state.child.threads index))
      else
        none
  | .killed signal =>
      (state.child.step? .killed).map fun next =>
        state.follow next (.signaled signal)
  | .terminated =>
      if state.consumer.caller = .runScenario then
        (state.child.step? .killed).map fun next =>
          state.follow next (.exited 1)
      else
        none
  | .parent label =>
      if label = .childWrites ∨ label = .childCloses then
        none
      else
        (state.consumer.step? label).map fun next =>
          { state with consumer := next }
  | .reap =>
      if state.consumer.parent = .left ∧ state.said = none then
        state.status.map state.speak
      else
        none
  | .reapFails =>
      if state.consumer.parent = .left ∧ state.said = none ∧
          state.child.alive = false then
        some (state.speak state.unwaited)
      else
        none

/-- Execute a finite interleaving. -/
abbrev run? (rc : Int) : State n → List (Label n) → Option (State n) :=
  Transition.run? (step? rc)

/--
A run that has just been started by one of its two callers.  `run_headless`
has `status = 0`, `run_scenario` its `g_last_exit` of the run before.
-/
def start
    (caller : RunLoop.Caller)
    (child : ChildProcess.State n)
    (gLastExit : WaitStatus) : State n where
  child := child
  status := none
  consumer := Consumers.State.start caller []
  unwaited :=
    match caller with
    | .runHeadless => .exited 0
    | .runScenario => gLastExit
  said := none

end State

section Moves

variable
  {n : Nat}
  {rc : Int}
  {child next : ChildProcess.State n}
  {index : Fin n}
  {nowNs : UInt64}
  {taken : Bool}

/-- What a thread that writes a record is, and what becomes of it. -/
inductive Writing
    (ctx : PgRunctx)
    (nowNs : UInt64)
    (landed : Bool)
    (thread : Thread) : PgEvent → Thread → Prop where
  | emits
      (event : PgEvent)
      (rest : List PgEvent)
      (stage : thread.stage = .running)
      (pending : thread.pending = event :: rest) :
      Writing ctx nowNs landed thread
        (pgEmitCopy ctx thread.gThreadTag nowNs event)
        { thread with pending := rest, inFlight := none }
  | finishes
      (stage : thread.stage = .running)
      (ending : thread.ending = .finishes) :
      Writing ctx nowNs landed thread
        (pgEmitCopy ctx thread.gThreadTag nowNs ChildProcess.doneEvent)
        { thread with stage := .afterDone landed, inFlight := none }
  | fires
      (what : List UInt8)
      (stage : thread.stage = .running)
      (ending : thread.ending = .fires what) :
      Writing ctx nowNs landed thread
        (pgEmitCopy ctx thread.gThreadTag nowNs
          (ChildProcess.watchdogEvent what))
        { thread with stage := .afterWatchdog landed, inFlight := none }
  | handles
      (signal : Signal)
      (stage : thread.stage = .inHandler signal) :
      Writing ctx nowNs landed thread (crashEvent signal)
        { thread with stage := .afterCrash landed, inFlight := none }

/-- The steps of a thread of the child. -/
inductive Move
    (child : ChildProcess.State n)
    (index : Fin n)
    (taken : Bool) : ChildProcess.State n → Prop where
  | begins (record : PgEvent) (isOpen : child.fdOpen = true) :
      Move child index taken
        (child.setThread index ((child.threads index).begun record))
  | refused
      (nowNs : UInt64)
      (record : PgEvent)
      (thread : Thread)
      (closed : child.fdOpen = false)
      (writing :
        Writing child.ctx nowNs false (child.threads index) record
          thread) :
      Move child index taken (child.setThread index thread)
  | lands
      (nowNs : UInt64)
      (record : PgEvent)
      (thread : Thread)
      (inFlight : (child.threads index).inFlight = some record)
      (writing :
        Writing child.ctx nowNs taken (child.threads index) record
          thread) :
      Move child index taken
        { child.setThread index thread with
          stream :=
            if taken then child.stream ++ [record] else child.stream }
  | closes
      (landed : Bool)
      (stage : (child.threads index).stage = .afterDone landed) :
      Move child index taken
        { child.setThread index
            { child.threads index with stage := .afterClose landed } with
          fdOpen := false }
  | faults
      (signal : Signal)
      (stage : (child.threads index).stage = .running)
      (ending : (child.threads index).ending = .crashes signal) :
      Move child index taken
        { child.setThread index
            { child.threads index with stage := .inHandler signal } with
          armed := Function.update child.armed signal false }
  | faultsAgain
      (signal : Signal)
      (stage : (child.threads index).stage = .running)
      (ending : (child.threads index).ending = .crashes signal)
      (unarmed : child.armed signal = false) :
      Move child index taken { child with alive := false }
  | dies
      (stage :
        ∃ landed,
          (child.threads index).stage = .afterClose landed ∨
            (child.threads index).stage = .afterWatchdog landed ∨
            (child.threads index).stage = .afterCrash landed) :
      Move child index taken { child with alive := false }

/-- A write is one of those. -/
theorem writing_of_intent
    {ctx : PgRunctx}
    {thread : Thread}
    {record : PgEvent}
    (landed : Bool)
    (intends : thread.intent ctx nowNs = .begin record) :
    Writing ctx nowNs landed thread record (thread.after landed) := by
  rcases thread with ⟨tag, pending, ending, stage, inFlight⟩
  cases stage with
  | running =>
      cases pending with
      | cons event rest =>
          simp only [Thread.intent,
            ChildProcess.Action.begin.injEq] at intends
          exact intends ▸ .emits event rest rfl rfl
      | nil =>
          cases ending with
          | hangs | crashes signal =>
              simp [Thread.intent] at intends
          | finishes =>
              simp only [Thread.intent,
                ChildProcess.Action.begin.injEq] at intends
              exact intends ▸ .finishes rfl rfl
          | fires what =>
              simp only [Thread.intent,
                ChildProcess.Action.begin.injEq] at intends
              exact intends ▸ .fires what rfl rfl
  | inHandler signal =>
      simp only [Thread.intent,
        ChildProcess.Action.begin.injEq] at intends
      exact intends ▸ .handles signal rfl
  | afterDone earlier | afterClose earlier | afterWatchdog earlier
  | afterCrash earlier =>
      simp [Thread.intent] at intends

/-- What a thread without a `write` in progress intends, it does. -/
theorem intent_of_action
    {ctx : PgRunctx}
    {thread : Thread}
    {action : ChildProcess.Action}
    (acts : thread.action ctx nowNs = action)
    (other : ∀ record, action ≠ .land record) :
    thread.intent ctx nowNs = action := by
  unfold Thread.action at acts
  split at acts
  · exact absurd acts.symm (other _)
  · exact acts

/-- Only after `pg_done` the pipe is closed. -/
theorem stage_of_close
    {ctx : PgRunctx}
    {thread : Thread}
    (landed : Bool)
    (intends : thread.intent ctx nowNs = .close) :
    ∃ earlier,
      thread.stage = .afterDone earlier ∧
        thread.after landed =
          { thread with stage := .afterClose earlier } := by
  rcases thread with ⟨tag, pending, ending, stage, inFlight⟩
  cases stage with
  | running =>
      cases pending <;> cases ending <;> simp [Thread.intent] at intends
  | afterDone earlier =>
      exact ⟨earlier, rfl, rfl⟩
  | inHandler signal | afterClose earlier | afterWatchdog earlier
  | afterCrash earlier =>
      simp [Thread.intent] at intends

/-- Only a thread without an event left faults. -/
theorem stage_of_fault
    {ctx : PgRunctx}
    {thread : Thread}
    {signal : Signal}
    (landed : Bool)
    (intends : thread.intent ctx nowNs = .fault signal) :
    thread.stage = .running ∧ thread.ending = .crashes signal ∧
      thread.after landed =
        { thread with stage := .inHandler signal } := by
  rcases thread with ⟨tag, pending, ending, stage, inFlight⟩
  cases stage with
  | running =>
      cases pending with
      | cons event rest =>
          simp [Thread.intent] at intends
      | nil =>
          cases ending with
          | crashes here =>
              simp only [Thread.intent,
                ChildProcess.Action.fault.injEq] at intends
              exact intends ▸ ⟨rfl, rfl, rfl⟩
          | hangs | finishes | fires what =>
              simp [Thread.intent] at intends
  | inHandler signal | afterClose earlier | afterDone earlier
  | afterWatchdog earlier | afterCrash earlier =>
      simp [Thread.intent] at intends

/-- A thread ends the child at the end of its own way. -/
theorem stage_of_die
    {ctx : PgRunctx}
    {thread : Thread}
    (intends : thread.intent ctx nowNs = .die) :
    ∃ landed,
      thread.stage = .afterClose landed ∨
        thread.stage = .afterWatchdog landed ∨
        thread.stage = .afterCrash landed := by
  rcases thread with ⟨tag, pending, ending, stage, inFlight⟩
  cases stage with
  | running =>
      cases pending <;> cases ending <;> simp [Thread.intent] at intends
  | afterClose landed =>
      exact ⟨landed, Or.inl rfl⟩
  | afterWatchdog landed =>
      exact ⟨landed, Or.inr (Or.inl rfl)⟩
  | afterCrash landed =>
      exact ⟨landed, Or.inr (Or.inr rfl)⟩
  | inHandler signal | afterDone earlier =>
      simp [Thread.intent] at intends

/-- Every step of a thread is one of these, and needs a living child. -/
theorem move_of_step?
    (linked : child.Linked)
    (stepped : child.step? (.step index nowNs taken) = some next) :
    child.alive = true ∧ Move child index taken next := by
  simp only [ChildProcess.State.step?,
    Option.ite_none_right_eq_some] at stepped
  obtain ⟨alive, stepped⟩ := stepped
  refine ⟨alive, ?_⟩
  cases acts : child.action index nowNs with
  | begin record =>
      simp only [acts, Option.some.injEq] at stepped
      subst stepped
      cases isOpen : child.fdOpen with
      | true =>
          exact .begins record isOpen
      | false =>
          have intends := intent_of_action acts (by simp)
          exact .refused nowNs record _ isOpen
            (writing_of_intent false intends)
  | land record =>
      simp only [acts, Option.some.injEq] at stepped
      have inFlight := Thread.land_of_action acts
      obtain ⟨begunAt, intends⟩ := linked.flight index record inFlight
      exact stepped ▸ .lands begunAt record _ inFlight
        (writing_of_intent taken intends)
  | close =>
      obtain ⟨landed, stage, after⟩ :=
        stage_of_close false (intent_of_action acts (by simp))
      simp only [acts, after, Option.some.injEq] at stepped
      exact stepped ▸ .closes landed stage
  | die =>
      simp only [acts, Option.some.injEq] at stepped
      exact stepped ▸ .dies (stage_of_die (intent_of_action acts (by simp)))
  | fault signal =>
      obtain ⟨stage, ending, after⟩ :=
        stage_of_fault false (intent_of_action acts (by simp))
      simp only [acts, after] at stepped
      split at stepped
      · simp only [Option.some.injEq] at stepped
        exact stepped ▸ .faults signal stage ending
      · rename_i unarmed
        simp only [Option.some.injEq] at stepped
        exact stepped ▸ .faultsAgain signal stage ending
          (Bool.eq_false_iff.mpr unarmed)
  | idle =>
      simp only [acts, reduceCtorEq] at stepped

end Moves

end FailurePlayground.RunVerdict
