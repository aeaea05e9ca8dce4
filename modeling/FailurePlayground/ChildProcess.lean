import FailurePlayground.EventPipe

namespace FailurePlayground.ChildProcess

/-!
# How a scenario child ends

Three things end a child: its main thread's `pg_done`, `close` and `_exit`, a
watchdog's record and `_exit(2)`, and a crash handler's record and re-raised
signal.  Each is more than one step, and nothing stops the other threads in
between.  A `write` looks up its descriptor when it begins and puts its record
into the pipe later, if need be after another thread has closed the descriptor.
-/

/-- The signals `install_child_handlers` catches. -/
inductive Signal where
  | segv
  | bus
  | abrt
  | fpe
  | ill
  deriving Repr, DecidableEq

namespace Signal

/-- The name `child_fault_handler` gives a signal. -/
def name : Signal → String
  | .segv => "SIGSEGV"
  | .bus => "SIGBUS"
  | .abrt => "SIGABRT"
  | .fpe => "SIGFPE"
  | .ill => "SIGILL"

end Signal

/-- The record `pg_done` emits. -/
def doneEvent : PgEvent :=
  PgEvent.ofKind .done

/-- The record a watchdog emits; `what` was cut to its 64-byte array. -/
def watchdogEvent (what : List UInt8) : PgEvent :=
  { PgEvent.ofKind .watchdog with
    text :=
      cArray pgEventTextLen
        (Bytes.ascii "watchdog: " ++ what.take 63) }

/-- The record `child_fault_handler` writes without `pg_emit`. -/
def crashEvent (signal : Signal) : PgEvent :=
  { PgEvent.ofKind .childCrash with
    magic := pgEventMagic
    version := pgEventVersion
    text :=
      cArray pgEventTextLen
        (Bytes.ascii "child crashed: " ++ Bytes.ascii signal.name) }

/-- What a thread does after its last event. -/
inductive Ending where
  | hangs
  | finishes
  | fires (what : List UInt8)
  | crashes (signal : Signal)
  deriving Repr, DecidableEq

/--
Where a thread stands; `landed` says whether the last record it wrote is in
the pipe.
-/
inductive Stage where
  | running
  | afterDone (landed : Bool)
  | afterClose (landed : Bool)
  | afterWatchdog (landed : Bool)
  | inHandler (signal : Signal)
  | afterCrash (landed : Bool)
  deriving Repr, DecidableEq

/--
A thread: its tag, the events it still emits, its ending, its stage, and the
record of a `write` that has begun.
-/
structure Thread where
  gThreadTag : UInt32
  pending : List PgEvent
  ending : Ending
  stage : Stage
  inFlight : Option PgEvent

/-- The next thing a thread does. -/
inductive Action where
  | begin (record : PgEvent)
  | land (record : PgEvent)
  | close
  | die
  | fault (signal : Signal)
  | idle

namespace Thread

/-- What a thread without a `write` does; `pg_emit` reads the clock. -/
def intent (ctx : PgRunctx) (nowNs : UInt64) (thread : Thread) : Action :=
  match thread.stage, thread.pending, thread.ending with
  | .running, event :: _, _ =>
      .begin (pgEmitCopy ctx thread.gThreadTag nowNs event)
  | .running, [], .hangs =>
      .idle
  | .running, [], .finishes =>
      .begin (pgEmitCopy ctx thread.gThreadTag nowNs doneEvent)
  | .running, [], .fires what =>
      .begin (pgEmitCopy ctx thread.gThreadTag nowNs (watchdogEvent what))
  | .running, [], .crashes signal =>
      .fault signal
  | .inHandler signal, _, _ =>
      .begin (crashEvent signal)
  | .afterDone _, _, _ =>
      .close
  | .afterClose _, _, _ | .afterWatchdog _, _, _ | .afterCrash _, _, _ =>
      .die

/-- What a thread does next. -/
def action (ctx : PgRunctx) (nowNs : UInt64) (thread : Thread) : Action :=
  match thread.inFlight with
  | some record => .land record
  | none => thread.intent ctx nowNs

/-- The thread has begun a `write`. -/
def begun (record : PgEvent) (thread : Thread) : Thread :=
  { thread with inFlight := some record }

/-- The stage and the events left once a thread has done what it intended. -/
def after (landed : Bool) (thread : Thread) : Thread :=
  match thread.stage, thread.pending, thread.ending with
  | .running, _ :: rest, _ =>
      { thread with pending := rest, inFlight := none }
  | .running, [], .hangs =>
      thread
  | .running, [], .finishes =>
      { thread with stage := .afterDone landed, inFlight := none }
  | .running, [], .fires _ =>
      { thread with stage := .afterWatchdog landed, inFlight := none }
  | .running, [], .crashes signal =>
      { thread with stage := .inHandler signal }
  | .inHandler _, _, _ =>
      { thread with stage := .afterCrash landed, inFlight := none }
  | .afterDone earlier, _, _ =>
      { thread with stage := .afterClose earlier }
  | .afterClose _, _, _ | .afterWatchdog _, _, _ | .afterCrash _, _, _ =>
      thread

/-- The thread's fatal record is in the pipe, and the child is to end. -/
def pastFatal (thread : Thread) : Bool :=
  match thread.stage with
  | .afterWatchdog landed | .afterCrash landed => landed
  | .running | .afterDone _ | .afterClose _ | .inHandler _ => false

/-- The thread's `PG_EV_DONE` is in the pipe, and the child is to end. -/
def pastDone (thread : Thread) : Bool :=
  match thread.stage with
  | .afterDone landed | .afterClose landed => landed
  | .running | .afterWatchdog _ | .inHandler _ | .afterCrash _ => false

end Thread

/--
The child: its threads, the handlers not yet reset by `SA_RESETHAND`, its end
of the pipe, and the records that have entered the pipe.
-/
structure State (n : Nat) where
  ctx : PgRunctx
  threads : Fin n → Thread
  armed : Signal → Bool
  fdOpen : Bool
  alive : Bool
  stream : List PgEvent

/--
A thread takes its next step, reading the clock at `nowNs`, or the kernel
taking its record or not; or the child is killed.
-/
inductive Label (n : Nat) where
  | step (thread : Fin n) (nowNs : UInt64) (taken : Bool)
  | killed
  deriving Repr, DecidableEq

namespace State

variable {n : Nat}

/-- Replace one thread. -/
def setThread
    (state : State n)
    (index : Fin n)
    (thread : Thread) : State n :=
  { state with
    threads := Function.update state.threads index thread }

/-- What the thread does next. -/
def action
    (state : State n)
    (index : Fin n)
    (nowNs : UInt64) : Action :=
  (state.threads index).action state.ctx nowNs

/-- Execute one enabled label; a dead child takes no steps. -/
def step? (state : State n) : Label n → Option (State n)
  | .step index nowNs taken =>
      let thread := state.threads index
      if state.alive then
        match state.action index nowNs with
        | .begin record =>
            -- A closed descriptor fails the call at once.
            some (state.setThread index
              (if state.fdOpen then thread.begun record
                else thread.after false))
        | .land record =>
            let next := state.setThread index (thread.after taken)
            some { next with
              stream :=
                if taken then state.stream ++ [record] else state.stream }
        | .close =>
            let next := state.setThread index (thread.after false)
            some { next with fdOpen := false }
        | .die =>
            some { state with alive := false }
        | .fault signal =>
            if state.armed signal then
              let next := state.setThread index (thread.after false)
              some { next with
                armed := Function.update state.armed signal false }
            else
              some { state with alive := false }
        | .idle =>
            none
      else
        none
  | .killed =>
      if state.alive then some { state with alive := false } else none

/-- Execute a finite interleaving. -/
abbrev run? : State n → List (Label n) → Option (State n) :=
  Transition.run? step?

/-- A child that has just installed its handlers. -/
def start
    (ctx : PgRunctx)
    (gThreadTags : Fin n → UInt32)
    (emissions : Fin n → List PgEvent)
    (endings : Fin n → Ending) : State n where
  ctx := ctx
  threads := fun index => {
    gThreadTag := gThreadTags index
    pending := emissions index
    ending := endings index
    stage := .running
    inFlight := none
  }
  armed := fun _ => true
  fdOpen := true
  alive := true
  stream := []

end State

section Kinds

/-- The record of a watchdog or of a crash handler. -/
def IsFatal (event : PgEvent) : Prop :=
  event.kind = PgEventKind.watchdog.code ∨
    event.kind = PgEventKind.childCrash.code

/-- A record of kind `PG_EV_DONE`. -/
def IsDone (event : PgEvent) : Prop :=
  event.kind = PgEventKind.done.code

/-- A record of kind `PG_EV_WATCHDOG`. -/
def IsWatchdog (event : PgEvent) : Prop :=
  event.kind = PgEventKind.watchdog.code

instance (event : PgEvent) : Decidable (IsFatal event) :=
  inferInstanceAs (Decidable (_ ∨ _))

instance (event : PgEvent) : Decidable (IsDone event) :=
  inferInstanceAs (Decidable (_ = _))

instance (event : PgEvent) : Decidable (IsWatchdog event) :=
  inferInstanceAs (Decidable (_ = _))

/-- A watchdog's record is fatal. -/
theorem IsWatchdog.fatal
    {event : PgEvent}
    (watchdog : IsWatchdog event) :
    IsFatal event :=
  Or.inl watchdog

/-- An event of a kind that the runner and the watchdogs keep to themselves. -/
def IsReserved (event : PgEvent) : Prop :=
  IsFatal event ∨ IsDone event

instance (event : PgEvent) : Decidable (IsReserved event) :=
  inferInstanceAs (Decidable (_ ∨ _))

/-- Filling in the header of an event keeps its kind. -/
@[simp] theorem kind_pgEmitCopy
    (ctx : PgRunctx)
    (gThreadTag : UInt32)
    (nowNs : UInt64)
    (event : PgEvent) :
    (pgEmitCopy ctx gThreadTag nowNs event).kind = event.kind := rfl

end Kinds

namespace Thread

variable
  {ctx : PgRunctx}
  {nowNs : UInt64}
  {thread : Thread}
  {landed : Bool}

/-- The thread's scenario emits no reserved kind itself. -/
def Unforged (thread : Thread) : Prop :=
  ∀ event ∈ thread.pending, ¬ IsReserved event

/-- The thread still has a watchdog's record to write, or is writing it. -/
def canFire (thread : Thread) : Bool :=
  match thread.stage, thread.ending with
  | .running, .fires _ => true
  | _, _ => false

/-- The thread has a record to write, or is writing one. -/
def canWrite (armed : Signal → Bool) (thread : Thread) : Bool :=
  match thread.inFlight, thread.stage, thread.pending, thread.ending with
  | some _, _, _, _ => true
  | none, .running, _ :: _, _ => true
  | none, .running, [], .finishes | none, .running, [], .fires _ => true
  | none, .running, [], .crashes signal => armed signal
  | none, .running, [], .hangs => false
  | none, .inHandler _, _, _ => true
  | none, .afterDone _, _, _ | none, .afterClose _, _, _
  | none, .afterWatchdog _, _, _ | none, .afterCrash _, _, _ => false

/-- What a thread that is to write a record is, and what it becomes. -/
structure Writes (record : PgEvent) (thread : Thread) : Prop where
  notPastFatal : thread.pastFatal = false
  notPastDone : thread.pastDone = false
  afterFatal :
    ∀ landed,
      (thread.after landed).pastFatal =
        (landed && decide (IsFatal record))
  afterDone :
    ∀ landed,
      (thread.after landed).pastDone = (landed && decide (IsDone record))
  fires : IsWatchdog record → thread.canFire = true
  finishes : IsDone record → thread.canFire = false
  inFlight : ∀ landed, (thread.after landed).inFlight = none

/-- A thread that writes leaves a trace exactly of its reserved records. -/
theorem writes_of_intent
    (unforged : thread.Unforged)
    {record : PgEvent}
    (intends : thread.intent ctx nowNs = .begin record) :
    thread.Writes record := by
  rcases thread with ⟨tag, pending, ending, stage, inFlight⟩
  cases stage with
  | running =>
      cases pending with
      | cons event rest =>
          simp only [intent, Action.begin.injEq] at intends
          subst intends
          have plain := unforged event List.mem_cons_self
          simp only [IsReserved, not_or] at plain
          have notFatal :
              ¬ IsFatal (pgEmitCopy ctx tag nowNs event) := plain.1
          have notDone :
              ¬ IsDone (pgEmitCopy ctx tag nowNs event) := plain.2
          exact {
            notPastFatal := rfl
            notPastDone := rfl
            afterFatal := fun landed => by
              rw [decide_eq_false notFatal, Bool.and_false]
              rfl
            afterDone := fun landed => by
              rw [decide_eq_false notDone, Bool.and_false]
              rfl
            fires := fun fired => absurd fired.fatal notFatal
            finishes := fun done => absurd done notDone
            inFlight := fun _ => rfl
          }
      | nil =>
          cases ending with
          | hangs | crashes signal =>
              simp only [intent, reduceCtorEq] at intends
          | finishes =>
              simp only [intent, Action.begin.injEq] at intends
              subst intends
              have notFatal :
                  ¬ IsFatal (pgEmitCopy ctx tag nowNs doneEvent) := by
                simp only [IsFatal, kind_pgEmitCopy]
                decide
              have isDone :
                  IsDone (pgEmitCopy ctx tag nowNs doneEvent) := rfl
              exact {
                notPastFatal := rfl
                notPastDone := rfl
                afterFatal := fun landed => by
                  rw [decide_eq_false notFatal, Bool.and_false]
                  rfl
                afterDone := fun landed => by
                  rw [decide_eq_true isDone, Bool.and_true]
                  rfl
                fires := fun fired => absurd fired.fatal notFatal
                finishes := fun _ => rfl
                inFlight := fun _ => rfl
              }
          | fires what =>
              simp only [intent, Action.begin.injEq] at intends
              subst intends
              have fatal :
                  IsFatal
                    (pgEmitCopy ctx tag nowNs (watchdogEvent what)) :=
                Or.inl rfl
              have notDone :
                  ¬ IsDone
                    (pgEmitCopy ctx tag nowNs (watchdogEvent what)) := by
                simp only [IsDone, kind_pgEmitCopy, watchdogEvent,
                  PgEvent.ofKind]
                decide
              exact {
                notPastFatal := rfl
                notPastDone := rfl
                afterFatal := fun landed => by
                  rw [decide_eq_true fatal, Bool.and_true]
                  rfl
                afterDone := fun landed => by
                  rw [decide_eq_false notDone, Bool.and_false]
                  rfl
                fires := fun _ => rfl
                finishes := fun done => absurd done notDone
                inFlight := fun _ => rfl
              }
  | inHandler signal =>
      simp only [intent, Action.begin.injEq] at intends
      subst intends
      have fatal : IsFatal (crashEvent signal) := Or.inr rfl
      have notDone : ¬ IsDone (crashEvent signal) := by
        simp only [IsDone, crashEvent, PgEvent.ofKind]
        decide
      have notFired : ¬ IsWatchdog (crashEvent signal) := by
        simp only [IsWatchdog, crashEvent, PgEvent.ofKind]
        decide
      exact {
        notPastFatal := rfl
        notPastDone := rfl
        afterFatal := fun landed => by
          rw [decide_eq_true fatal, Bool.and_true]
          rfl
        afterDone := fun landed => by
          rw [decide_eq_false notDone, Bool.and_false]
          rfl
        fires := fun fired => absurd fired notFired
        finishes := fun _ => rfl
        inFlight := fun _ => rfl
      }
  | afterDone earlier | afterClose earlier | afterWatchdog earlier
  | afterCrash earlier =>
      simp only [intent, reduceCtorEq] at intends

/-- A thread that closes or faults leaves no new trace. -/
structure Quiet (thread : Thread) : Prop where
  inFlight : thread.inFlight = none
  notPastFatal : thread.pastFatal = false
  afterFatal : (thread.after false).pastFatal = false
  afterDone : (thread.after false).pastDone = thread.pastDone
  afterFlight : (thread.after false).inFlight = none

/-- Closing and faulting are quiet. -/
theorem quiet_of_action
    (acts :
      thread.action ctx nowNs = .close ∨
        ∃ signal, thread.action ctx nowNs = .fault signal) :
    thread.Quiet := by
  rcases thread with ⟨tag, pending, ending, stage, inFlight⟩
  cases inFlight with
  | some record =>
      simp [action] at acts
  | none =>
      cases stage with
      | running =>
          cases pending with
          | cons event rest =>
              simp [action, intent] at acts
          | nil =>
              cases ending with
              | hangs | finishes | fires what =>
                  simp [action, intent] at acts
              | crashes signal =>
                  exact ⟨rfl, rfl, rfl, rfl, rfl⟩
      | afterDone earlier =>
          exact ⟨rfl, rfl, rfl, rfl, rfl⟩
      | inHandler signal =>
          simp [action, intent] at acts
      | afterClose earlier | afterWatchdog earlier
      | afterCrash earlier =>
          simp [action, intent] at acts

/-- A thread never emits more than it had to. -/
theorem Unforged.after
    (unforged : thread.Unforged) :
    (thread.after landed).Unforged := by
  rcases thread with ⟨tag, pending, ending, stage, inFlight⟩
  cases stage with
  | running =>
      cases pending with
      | cons event rest =>
          exact fun other member =>
            unforged other (List.mem_cons_of_mem event member)
      | nil =>
          cases ending with
          | hangs | finishes | fires what | crashes signal =>
              exact unforged
  | afterDone earlier | afterClose earlier | afterWatchdog earlier
  | inHandler signal | afterCrash earlier =>
      exact unforged

/-- Past its fatal record a thread has only the child's end to do. -/
theorem intent_of_pastFatal
    (past : thread.pastFatal = true) :
    thread.intent ctx nowNs = .die := by
  rcases thread with ⟨tag, pending, ending, stage, inFlight⟩
  cases stage with
  | afterWatchdog earlier | afterCrash earlier =>
      exact rfl
  | running | afterDone earlier | afterClose earlier
  | inHandler signal =>
      exact absurd past (by simp [pastFatal])

/-- A thread that is to write a record can. -/
theorem canWrite_of_intent
    {record : PgEvent}
    (armed : Signal → Bool)
    (intends : thread.intent ctx nowNs = .begin record) :
    thread.canWrite armed = true := by
  rcases thread with ⟨tag, pending, ending, stage, inFlight⟩
  cases inFlight with
  | some record =>
      rfl
  | none =>
      cases stage with
      | running =>
          cases pending with
          | cons event rest =>
              rfl
          | nil =>
              cases ending with
              | finishes | fires what =>
                  rfl
              | hangs | crashes signal =>
                  simp [intent] at intends
      | inHandler signal =>
          rfl
      | afterDone earlier | afterClose earlier | afterWatchdog earlier
      | afterCrash earlier =>
          simp [intent] at intends

/-- What a thread has done it cannot do again. -/
theorem canFire_after
    (fires : (thread.after landed).canFire = true) :
    thread.canFire = true := by
  rcases thread with ⟨tag, pending, ending, stage, inFlight⟩
  cases stage with
  | running =>
      cases pending with
      | cons event rest =>
          exact fires
      | nil =>
          cases ending with
          | fires what =>
              rfl
          | hangs | finishes | crashes signal =>
              exact absurd fires Bool.false_ne_true
  | afterDone earlier | afterClose earlier | afterWatchdog earlier
  | inHandler signal | afterCrash earlier =>
      exact absurd fires (by simp [after, canFire])

end Thread

namespace State

variable
  {n : Nat}
  {state next : State n}
  {label : Label n}

/-- What a step can change, beside the thread that takes it. -/
inductive Change (state : State n) : Label n → State n → Prop where
  | begins
      (index : Fin n)
      (nowNs : UInt64)
      (taken : Bool)
      (record : PgEvent)
      (acts : state.action index nowNs = .begin record)
      (isOpen : state.fdOpen = true) :
      Change state (.step index nowNs taken)
        (state.setThread index ((state.threads index).begun record))
  | refused
      (index : Fin n)
      (nowNs : UInt64)
      (taken : Bool)
      (record : PgEvent)
      (acts : state.action index nowNs = .begin record)
      (closed : state.fdOpen = false) :
      Change state (.step index nowNs taken)
        (state.setThread index ((state.threads index).after false))
  | lands
      (index : Fin n)
      (nowNs : UInt64)
      (taken : Bool)
      (record : PgEvent)
      (acts : state.action index nowNs = .land record) :
      Change state (.step index nowNs taken)
        { state.setThread index ((state.threads index).after taken) with
          stream :=
            if taken then state.stream ++ [record] else state.stream }
  | closes
      (index : Fin n)
      (nowNs : UInt64)
      (taken : Bool)
      (acts : state.action index nowNs = .close) :
      Change state (.step index nowNs taken)
        { state.setThread index ((state.threads index).after false) with
          fdOpen := false }
  | faults
      (index : Fin n)
      (nowNs : UInt64)
      (taken : Bool)
      (signal : Signal)
      (acts : state.action index nowNs = .fault signal)
      (armed : state.armed signal = true) :
      Change state (.step index nowNs taken)
        { state.setThread index ((state.threads index).after false) with
          armed := Function.update state.armed signal false }
  | dies
      (label : Label n)
      (silent :
        ∀ index nowNs taken record,
          label = .step index nowNs taken →
          state.action index nowNs ≠ .begin record) :
      Change state label { state with alive := false }

/-- Every step is one of these changes of a living child. -/
theorem change_of_step?
    (stepped : state.step? label = some next) :
    state.alive = true ∧ Change state label next := by
  cases label with
  | step index nowNs taken =>
      simp only [step?, Option.ite_none_right_eq_some] at stepped
      obtain ⟨alive, stepped⟩ := stepped
      refine ⟨alive, ?_⟩
      cases acts : state.action index nowNs with
      | begin record =>
          simp only [acts, Option.some.injEq] at stepped
          subst stepped
          cases isOpen : state.fdOpen with
          | true =>
              exact .begins index nowNs taken record acts isOpen
          | false =>
              exact .refused index nowNs taken record acts isOpen
      | land record =>
          simp only [acts, Option.some.injEq] at stepped
          exact stepped ▸ .lands index nowNs taken record acts
      | close =>
          simp only [acts, Option.some.injEq] at stepped
          exact stepped ▸ .closes index nowNs taken acts
      | die =>
          simp only [acts, Option.some.injEq] at stepped
          refine stepped ▸ .dies _ ?_
          rintro _ _ _ record ⟨rfl, rfl, rfl⟩
          simp [acts]
      | fault signal =>
          simp only [acts] at stepped
          split at stepped
          · rename_i armed
            simp only [Option.some.injEq] at stepped
            exact stepped ▸ .faults index nowNs taken signal acts armed
          · simp only [Option.some.injEq] at stepped
            refine stepped ▸ .dies _ ?_
            rintro _ _ _ record ⟨rfl, rfl, rfl⟩
            simp [acts]
      | idle =>
          simp only [acts, reduceCtorEq] at stepped
  | killed =>
      simp only [step?, Option.ite_none_right_eq_some,
        Option.some.injEq] at stepped
      obtain ⟨alive, rfl⟩ := stepped
      exact ⟨alive, .dies _ (by simp)⟩

end State

end FailurePlayground.ChildProcess
