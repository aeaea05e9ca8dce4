import Mathlib.Data.Fintype.Basic
import FailurePlayground.EmitHelpers
import FailurePlayground.FatalEvents
import FailurePlayground.Lib.Locks
import FailurePlayground.Lib.Numeral

namespace FailurePlayground.DeadlockClassic

/-!
# Opposite lock order

`dl_run` starts two threads that each take two mutexes, joins them, and has a
watchdog end the process should the joins never return.  The lockers are
programs over locks; `dl_run` itself is a list of calls whose results the
system chooses.
-/

/-- The mutexes of `dl_run`. -/
inductive Mutex where
  | a
  | b
  deriving Repr, DecidableEq

/-- The threads `dl_run` creates, by their tags. -/
inductive Locker where
  | t1
  | t2
  deriving Repr, DecidableEq

instance : Fintype Locker where
  elems := {.t1, .t2}
  complete := by
    intro locker
    cases locker <;> decide

/-- `locker_arg_t`. -/
structure LockerArg where
  first : Mutex
  second : Mutex
  holdMs : Int
  deriving Repr, DecidableEq

/-- What a locker does between its lock operations. -/
inductive LockerWork where
  | logf (line : List UInt8)
  | nanosleep (tvNsec : Int)
  deriving Repr, DecidableEq

/-- The program of a locker. -/
abbrev Program : Type :=
  List (Locks.Op Mutex LockerWork)

/-- `locker_fn`; `pointer` is what `%p` makes of a mutex's address. -/
def lockerFn (pointer : Mutex → List UInt8) (arg : LockerArg) : Program :=
  [.work (.logf
      (Bytes.ascii "lock first  (" ++ pointer arg.first ++
        Bytes.ascii ")")),
    .acquire arg.first,
    .work (.logf
      (Bytes.ascii "  got first; sleeping " ++
        Numeral.signed arg.holdMs ++
        Bytes.ascii " ms before grabbing second")),
    .work (.nanosleep (arg.holdMs * 1000000)),
    .work (.logf
      (Bytes.ascii "lock second (" ++ pointer arg.second ++
        Bytes.ascii ") -- this is where the deadlock bites")),
    .acquire arg.second,
    .work (.logf (Bytes.ascii "  got both; releasing")),
    .release arg.second,
    .release arg.first]

/-- The arguments `dl_run` gives its lockers. -/
def dlArgs : Locker → LockerArg
  | .t1 => { first := .a, second := .b, holdMs := 50 }
  | .t2 => { first := .b, second := .a, holdMs := 50 }

/-- A call of the main thread. -/
inductive MainCall where
  | emit (call : Emit)
  | watchdog (timeoutNs : Nat) (what : List UInt8)
  | spawn (locker : Locker)
  | join (locker : Locker)
  | done
  | exit (code : Nat)
  deriving Repr, DecidableEq

/-- `"watchdog_fired"`. -/
def watchdogFiredKey : Option (List UInt8) :=
  some (Bytes.ascii "watchdog_fired")

/-- `"classic deadlock"`. -/
def classicDeadlock : List UInt8 :=
  Bytes.ascii "classic deadlock"

/-- The report of a `dl_run` that got through its joins. -/
def notFired : Emit :=
  .actual watchdogFiredKey 0

/-- `dl_run`, and how the child ends after a scenario that returned 0. -/
def dlRun : List MainCall :=
  [.emit (.phase
      (some (Bytes.ascii "two threads, opposite lock order"))),
    .emit (.logf (Bytes.ascii
      ("T1 wants A then B; T2 wants B then A; " ++
        "small hold delay biases the race"))),
    .emit (.logf (Bytes.ascii
      ("watchdog will fire after 2s " ++
        "if both threads end up waiting forever"))),
    .emit (.expect watchdogFiredKey 1),
    .watchdog (2 * 1000000000) classicDeadlock,
    .spawn .t1,
    .spawn .t2,
    .join .t1,
    .join .t2,
    .emit notFired,
    .done,
    .exit 0]

/-- The watchdog's thread, if it was created. -/
inductive Watchdog where
  | absent
  | armed (what : List UInt8)
  | reported
  deriving Repr, DecidableEq

/-- The child: its threads, how it ended, and the events passed to `pg_emit`. -/
structure State where
  locks : Locks.State Locker Mutex LockerWork
  main : List MainCall
  watchdog : Watchdog
  status : Option Nat
  emitted : List PgEvent

/--
A thread takes its next step; `succeeds` says whether a thread that the main
thread tries to create is.  The watchdog's timer runs out at any time.
-/
inductive Label where
  | main (succeeds : Bool)
  | locker (locker : Locker)
  | fire
  | watchdogExit
  deriving Repr, DecidableEq

/-- The steps of the watchdog's thread. -/
def Label.isWatchdog : Label → Bool
  | .fire | .watchdogExit => true
  | .main _ | .locker _ => false

namespace State

/-- A child at the start of `dl_run`. -/
def start : State where
  locks := { owner := fun _ => none, code := fun _ => [] }
  main := dlRun
  watchdog := .absent
  status := none
  emitted := []

section Execution

variable (pointer : Mutex → List UInt8) (args : Locker → LockerArg)

/--
The main thread makes its next call.  `chaos_thread_join` waits for a thread
to end, and returns at once when there is none.
-/
def mainStep? (state : State) (succeeds : Bool) : Option State :=
  match state.main with
  | [] =>
      none
  | .emit call :: rest =>
      some { state with
        main := rest
        emitted := state.emitted ++ [call.event] }
  | .watchdog _ what :: rest =>
      some { state with
        main := rest
        watchdog := if succeeds then .armed what else state.watchdog }
  | .spawn locker :: rest =>
      some { state with
        main := rest
        locks :=
          if succeeds then
            state.locks.advance locker (lockerFn pointer (args locker))
          else
            state.locks }
  | .join locker :: rest =>
      if state.locks.code locker = [] then
        some { state with main := rest }
      else
        none
  | .done :: rest =>
      some { state with
        main := rest
        emitted := state.emitted ++ [ChildProcess.doneEvent] }
  | .exit code :: rest =>
      some { state with
        main := rest
        status := some code }

/-- What a locker's next operation passes to `pg_emit`. -/
def lockerEmits : Program → List PgEvent
  | .work (.logf line) :: _ => [pgLogf line]
  | _ => []

/-- Execute one enabled label; a process that has ended takes no step. -/
def step? (state : State) (label : Label) : Option State :=
  if state.status.isSome then
    none
  else
    match label with
    | .main succeeds =>
        state.mainStep? pointer args succeeds
    | .locker locker =>
        match state.locks.step? locker with
        | none => none
        | some locks =>
            some { state with
              locks := locks
              emitted :=
                state.emitted ++ lockerEmits (state.locks.code locker) }
    | .fire =>
        match state.watchdog with
        | .armed what =>
            some { state with
              watchdog := .reported
              emitted :=
                state.emitted ++ [ChildProcess.watchdogEvent what] }
        | .absent | .reported =>
            none
    | .watchdogExit =>
        match state.watchdog with
        | .reported =>
            some { state with status := some 2 }
        | .absent | .armed _ =>
            none

/-- Execute a finite interleaving. -/
abbrev run? : State → List Label → Option State :=
  Transition.run? (step? pointer args)

end Execution

/-- Each locker waits for the mutex that the other one holds. -/
def Deadlocked (state : State) : Prop :=
  state.locks.WaitsFor .t1 .t2 ∧ state.locks.WaitsFor .t2 .t1

end State

section Order

/--
What the calls after a call are for it: every thread is created once and
joined afterwards, nothing is called between the creations and the joins, the
report comes after the joins, and the child's exit is the last call.
-/
def MainCall.Precedes (rest : List MainCall) : MainCall → Prop
  | .spawn locker =>
      .spawn locker ∉ rest ∧ .join locker ∈ rest
  | .join _ =>
      rest ≠ []
  | .emit call =>
      (call.kind = .actual → ∀ locker, .join locker ∉ rest) ∧
        ((∀ locker, .join locker ∈ rest) →
          ∃ locker, .spawn locker ∈ rest) ∧
        rest ≠ []
  | .watchdog _ what =>
      what = classicDeadlock ∧ ∃ locker, .spawn locker ∈ rest
  | .done =>
      (∀ locker, .join locker ∉ rest) ∧ rest ≠ []
  | .exit code =>
      code = 0 ∧ rest = []

instance (rest : List MainCall) : (call : MainCall) →
    Decidable (call.Precedes rest)
  | .spawn _ => inferInstanceAs (Decidable (_ ∧ _))
  | .join _ => inferInstanceAs (Decidable (_ ≠ _))
  | .emit _ => inferInstanceAs (Decidable (_ ∧ _ ∧ _))
  | .watchdog _ _ => inferInstanceAs (Decidable (_ ∧ _))
  | .done => inferInstanceAs (Decidable (_ ∧ _))
  | .exit _ => inferInstanceAs (Decidable (_ ∧ _))

/-- The calls come in an order that makes sense. -/
def InOrder : List MainCall → Prop
  | [] => True
  | call :: rest => call.Precedes rest ∧ InOrder rest

instance decidableInOrder : (main : List MainCall) →
    Decidable (InOrder main)
  | [] => inferInstanceAs (Decidable True)
  | call :: rest =>
      have : Decidable (InOrder rest) := decidableInOrder rest
      inferInstanceAs (Decidable (call.Precedes rest ∧ InOrder rest))

/-- So they do in `dl_run`. -/
theorem inOrder_dlRun : InOrder dlRun := by
  decide +kernel

/-- When all threads are created and none is joined, the next call joins one. -/
theorem InOrder.joins
    {call : MainCall}
    {rest : List MainCall}
    (ordered : InOrder (call :: rest))
    (spawned : ∀ locker, .spawn locker ∉ call :: rest)
    (unjoined : ∀ locker, .join locker ∈ call :: rest) :
    ∃ locker, call = .join locker := by
  have later : ∀ locker, call ≠ .join locker → .join locker ∈ rest :=
    fun locker different =>
      (List.mem_cons.mp (unjoined locker)).resolve_left different.symm
  have noneLater : ∀ locker, .spawn locker ∉ rest :=
    fun locker member => spawned locker (List.mem_cons_of_mem _ member)
  have precedes := ordered.1
  cases call with
  | join locker =>
      exact ⟨locker, rfl⟩
  | spawn locker =>
      exact absurd List.mem_cons_self (spawned locker)
  | emit call =>
      obtain ⟨locker, member⟩ :=
        precedes.2.1 fun locker => later locker (by simp)
      exact absurd member (noneLater locker)
  | watchdog timeoutNs what =>
      obtain ⟨locker, member⟩ := precedes.2
      exact absurd member (noneLater locker)
  | done =>
      exact absurd (later .t1 (by simp)) (precedes.1 .t1)
  | exit code =>
      have last := later .t1 (by simp)
      rw [precedes.2] at last
      exact absurd last (by simp)

end Order

section Invariant

variable {pointer : Mutex → List UInt8} {args : Locker → LockerArg}
variable {rule : Set Mutex → Mutex → Prop}

/-- What holds in every state of the child, for lockers that follow a rule. -/
structure Sound
    (rule : Set Mutex → Mutex → Prop)
    (state : State) : Prop where
  /-- The main thread's next calls make sense. -/
  ordered : InOrder state.main
  /-- A thread that runs was created and is still to be joined. -/
  running : ∀ locker, state.locks.code locker ≠ [] →
    .spawn locker ∉ state.main ∧ .join locker ∈ state.main
  /-- The lockers follow the rule. -/
  disciplined : state.locks.Disciplined rule
  /-- The report is made after the joins. -/
  reported :
    (∃ event ∈ state.emitted, event.kind = PgEventKind.actual.code) →
      ∀ locker, .join locker ∉ state.main
  /-- The report is still to be made, or made. -/
  announced :
    .emit notFired ∈ state.main ∨ notFired.event ∈ state.emitted
  /-- The main thread ends with the process. -/
  active : state.status = none → state.main ≠ []
  /-- The process ends by its main thread or by its watchdog. -/
  ended : ∀ code, state.status = some code →
    (code = 0 ∧ state.main = []) ∨
      (code = 2 ∧ state.watchdog = .reported)
  /-- The watchdog is the one `dl_run` asked for. -/
  watched : ∀ what, state.watchdog = .armed what → what = classicDeadlock
  /-- Its record is among the events. -/
  fired : state.watchdog = .reported →
    ChildProcess.watchdogEvent classicDeadlock ∈ state.emitted

/-- The child starts so. -/
theorem sound_start : Sound rule State.start where
  ordered := inOrder_dlRun
  running := fun _ running => absurd rfl running
  disciplined := fun _ => Set.eq_empty_of_forall_notMem fun _ => by
    simp [Locks.State.held, State.start]
  reported := by
    simp [State.start]
  announced := Or.inl (by simp [State.start, dlRun])
  active := by
    simp [State.start, dlRun]
  ended := by
    simp [State.start]
  watched := by
    simp [State.start]
  fired := by
    simp [State.start]

/-- An event of another kind joins the events passed to `pg_emit`. -/
theorem exists_actual_append
    {emitted more : List PgEvent}
    (others : ∀ event ∈ more, event.kind ≠ PgEventKind.actual.code)
    (some : ∃ event ∈ emitted ++ more,
      event.kind = PgEventKind.actual.code) :
    ∃ event ∈ emitted, event.kind = PgEventKind.actual.code := by
  obtain ⟨event, member, actual⟩ := some
  rcases List.mem_append.mp member with earlier | later
  · exact ⟨event, earlier, actual⟩
  · exact absurd actual (others event later)

/-- The kind in the event of a helper is the helper's. -/
theorem kind_event_eq_actual
    {call : Emit}
    (actual : call.event.kind = PgEventKind.actual.code) :
    call.kind = .actual := by
  rw [Emit.kind_event] at actual
  revert actual
  cases call.kind <;> decide

/-- Lockers only log. -/
theorem kind_lockerEmits
    (program : Program) :
    ∀ event ∈ State.lockerEmits program,
      event.kind ≠ PgEventKind.actual.code := by
  intro event member
  unfold State.lockerEmits at member
  split at member
  · rw [List.mem_singleton.mp member]
    exact (by decide : PgEventKind.log.code ≠ PgEventKind.actual.code)
  · exact absurd member (by simp)

section Tail

variable {state : State} {call : MainCall} {rest : List MainCall}

/-- A thread that a call does not join is still to be joined after it. -/
theorem Sound.running_tail
    {locker : Locker}
    (sound : Sound rule state)
    (shape : state.main = call :: rest)
    (other : call ≠ .join locker)
    (runs : state.locks.code locker ≠ []) :
    .spawn locker ∉ rest ∧ .join locker ∈ rest := by
  have before := sound.running locker runs
  rw [shape] at before
  exact ⟨fun member => before.1 (List.mem_cons_of_mem _ member),
    (List.mem_cons.mp before.2).resolve_left other.symm⟩

/-- After the report nothing is left to be joined. -/
theorem Sound.reported_tail
    (sound : Sound rule state)
    (shape : state.main = call :: rest)
    (reported :
      ∃ event ∈ state.emitted, event.kind = PgEventKind.actual.code) :
    ∀ locker, .join locker ∉ rest := by
  intro locker member
  apply sound.reported reported locker
  rw [shape]
  exact List.mem_cons_of_mem _ member

/-- A call that is not the report leaves it to be made. -/
theorem Sound.announced_tail
    (sound : Sound rule state)
    (shape : state.main = call :: rest)
    (other : call ≠ .emit notFired) :
    .emit notFired ∈ rest ∨ notFired.event ∈ state.emitted := by
  have before := sound.announced
  rw [shape] at before
  exact before.imp_left fun member =>
    (List.mem_cons.mp member).resolve_left other.symm

/-- A process that goes on has no status. -/
theorem ended_of_alive
    {state : State}
    (alive : state.status = none)
    (code : Nat)
    (status : state.status = some code) :
    (code = 0 ∧ state.main = []) ∨
      (code = 2 ∧ state.watchdog = .reported) :=
  absurd (alive.symm.trans status) (by simp)

end Tail

/-- What a call of the main thread keeps. -/
theorem Sound.mainStep
    {state next : State}
    {succeeds : Bool}
    (follows : ∀ locker,
      Locks.Follows rule ∅ (lockerFn pointer (args locker)))
    (sound : Sound rule state)
    (alive : state.status = none)
    (taken : state.mainStep? pointer args succeeds = some next) :
    Sound rule next := by
  have ordered := sound.ordered
  unfold State.mainStep? at taken
  cases shape : state.main with
  | nil =>
      simp [shape] at taken
  | cons call rest =>
      rw [shape] at ordered
      cases call with
      | emit call =>
          simp only [shape, Option.some.injEq] at taken
          subst taken
          refine ⟨ordered.2,
            fun locker => sound.running_tail shape (by simp),
            sound.disciplined, ?_, ?_, fun _ => ordered.1.2.2,
            ended_of_alive alive, sound.watched,
            fun fired => List.mem_append_left _ (sound.fired fired)⟩
          · rintro ⟨event, member, actual⟩
            rcases List.mem_append.mp member with earlier | now
            · exact sound.reported_tail shape ⟨event, earlier, actual⟩
            · rw [List.mem_singleton.mp now] at actual
              exact ordered.1.1 (kind_event_eq_actual actual)
          · by_cases same : call = notFired
            · subst same
              exact Or.inr (List.mem_append_right _ List.mem_cons_self)
            · exact (sound.announced_tail shape (by simpa using same)).imp_right
                (List.mem_append_left _)
      | watchdog timeoutNs what =>
          simp only [shape, Option.some.injEq] at taken
          subst taken
          obtain ⟨locker, member⟩ := ordered.1.2
          refine ⟨ordered.2,
            fun locker => sound.running_tail shape (by simp),
            sound.disciplined, sound.reported_tail shape,
            sound.announced_tail shape (by simp),
            fun _ => List.ne_nil_of_mem member, ended_of_alive alive,
            ?_, ?_⟩
          · intro other armed
            cases succeeds with
            | true =>
                exact (Watchdog.armed.inj armed).symm.trans ordered.1.1
            | false =>
                exact sound.watched other armed
          · intro fired
            cases succeeds with
            | true =>
                exact absurd fired (by simp)
            | false =>
                exact sound.fired fired
      | spawn locker =>
          simp only [shape, Option.some.injEq] at taken
          subst taken
          refine ⟨ordered.2, fun other runs => ?_, ?_,
            sound.reported_tail shape,
            sound.announced_tail shape (by simp),
            fun _ => List.ne_nil_of_mem ordered.1.2,
            ended_of_alive alive, sound.watched, sound.fired⟩
          · by_cases same : other = locker
            · subst same
              exact ordered.1
            · refine sound.running_tail shape (by simp) ?_
              cases succeeds with
              | true =>
                  simpa [Locks.State.advance,
                    Function.update_of_ne same] using runs
              | false =>
                  exact runs
          · cases succeeds with
            | true =>
                refine sound.disciplined.assign ?_ (follows locker)
                refine Classical.byContradiction fun runs => ?_
                apply (sound.running locker runs).1
                rw [shape]
                exact List.mem_cons_self
            | false =>
                exact sound.disciplined
      | join locker =>
          simp only [shape] at taken
          split at taken
          · rename_i ended
            simp only [Option.some.injEq] at taken
            subst taken
            refine ⟨ordered.2, fun other runs => ?_, sound.disciplined,
              sound.reported_tail shape,
              sound.announced_tail shape (by simp), fun _ => ordered.1,
              ended_of_alive alive, sound.watched, sound.fired⟩
            refine sound.running_tail shape ?_ runs
            intro same
            rw [← MainCall.join.inj same] at runs
            exact runs ended
          · exact absurd taken (by simp)
      | done =>
          simp only [shape, Option.some.injEq] at taken
          subst taken
          exact ⟨ordered.2,
            fun locker => sound.running_tail shape (by simp),
            sound.disciplined, fun _ => ordered.1.1,
            (sound.announced_tail shape (by simp)).imp_right
              (List.mem_append_left _),
            fun _ => ordered.1.2, ended_of_alive alive, sound.watched,
            fun fired => List.mem_append_left _ (sound.fired fired)⟩
      | exit code =>
          simp only [shape, Option.some.injEq] at taken
          subst taken
          refine ⟨ordered.2,
            fun locker => sound.running_tail shape (by simp),
            sound.disciplined, sound.reported_tail shape,
            sound.announced_tail shape (by simp),
            fun alive => absurd alive (by simp), ?_, sound.watched,
            sound.fired⟩
          intro other status
          rw [← Option.some.inj status]
          exact Or.inl ordered.1

/-- What every step keeps. -/
theorem Sound.step
    {state next : State}
    {label : Label}
    (follows : ∀ locker,
      Locks.Follows rule ∅ (lockerFn pointer (args locker)))
    (sound : Sound rule state)
    (taken : state.step? pointer args label = some next) :
    Sound rule next := by
  unfold State.step? at taken
  split at taken
  · exact absurd taken (by simp)
  · rename_i running
    have alive : state.status = none := by
      simpa using running
    cases label with
    | main succeeds =>
        exact sound.mainStep follows alive taken
    | locker locker =>
        simp only at taken
        split at taken
        · exact absurd taken (by simp)
        · rename_i locks moved
          simp only [Option.some.injEq] at taken
          subst taken
          obtain ⟨operation, rest, shape, code⟩ :=
            Locks.State.step?_code moved
          have before : ∀ other, locks.code other ≠ [] →
              state.locks.code other ≠ [] := by
            intro other runs
            by_cases same : other = locker
            · subst same
              simp [shape]
            · rwa [Locks.State.step?_code_of_ne moved same] at runs
          exact ⟨sound.ordered,
            fun other runs => sound.running other (before other runs),
            sound.disciplined.step moved,
            fun reported => sound.reported
              (exists_actual_append (kind_lockerEmits _) reported),
            sound.announced.imp_right (List.mem_append_left _),
            sound.active, ended_of_alive alive, sound.watched,
            fun fired => List.mem_append_left _ (sound.fired fired)⟩
    | fire =>
        simp only at taken
        split at taken
        · rename_i what armed
          simp only [Option.some.injEq] at taken
          subst taken
          refine ⟨sound.ordered, sound.running, sound.disciplined,
            fun reported => sound.reported
              (exists_actual_append ?_ reported),
            sound.announced.imp_right (List.mem_append_left _),
            sound.active, ended_of_alive alive, by simp, fun _ => ?_⟩
          · intro event member
            rw [List.mem_singleton.mp member]
            exact (by decide :
              PgEventKind.watchdog.code ≠ PgEventKind.actual.code)
          · rw [sound.watched what armed]
            exact List.mem_append_right _ List.mem_cons_self
        · exact absurd taken (by simp)
        · exact absurd taken (by simp)
    | watchdogExit =>
        simp only at taken
        split at taken
        · rename_i fired
          simp only [Option.some.injEq] at taken
          subst taken
          refine ⟨sound.ordered, sound.running, sound.disciplined,
            sound.reported, sound.announced,
            fun alive => absurd alive (by simp), ?_, sound.watched,
            sound.fired⟩
          intro code status
          exact Or.inr ⟨(Option.some.inj status).symm, fired⟩
        · exact absurd taken (by simp)
        · exact absurd taken (by simp)

/-- So it holds in every state that a run reaches. -/
theorem sound_of_run
    {state : State}
    {labels : List Label}
    (follows : ∀ locker,
      Locks.Follows rule ∅ (lockerFn pointer (args locker)))
    (ran : State.run? pointer args State.start labels = some state) :
    Sound rule state :=
  Transition.run?_invariant (fun sound taken => sound.step follows taken)
    ran sound_start

end Invariant

section Outcome

variable {pointer : Mutex → List UInt8} {args : Locker → LockerArg}

/-- A locker does not take a mutex that it holds. -/
def Fresh (held : Set Mutex) (mutex : Mutex) : Prop :=
  mutex ∉ held

/-- A locker with two mutexes takes neither twice. -/
theorem follows_fresh
    (arg : LockerArg)
    (distinct : arg.first ≠ arg.second) :
    Locks.Follows Fresh ∅ (lockerFn pointer arg) := by
  simp [lockerFn, Locks.Follows, Fresh, distinct.symm]

/-- A locker whose second mutex ranks higher takes them in ascending order. -/
theorem follows_ascending
    (rank : Mutex → Nat)
    (arg : LockerArg)
    (ordered : rank arg.first < rank arg.second) :
    Locks.Follows (Locks.Ascending rank) ∅ (lockerFn pointer arg) := by
  have distinct : arg.second ≠ arg.first := by
    intro same
    rw [same] at ordered
    exact Nat.lt_irrefl _ ordered
  simp [lockerFn, Locks.Follows, Locks.Ascending, ordered, distinct]

namespace State

/-- A live process in which only the watchdog may still move. -/
def Stuck
    (pointer : Mutex → List UInt8)
    (args : Locker → LockerArg)
    (state : State) : Prop :=
  state.status = none ∧
    ∀ label, label.isWatchdog = false →
      state.step? pointer args label = none

/-- The main thread waits in a join and nowhere else. -/
theorem mainStep?_eq_none
    {state : State}
    {succeeds : Bool} :
    state.mainStep? pointer args succeeds = none ↔
      state.main = [] ∨
        ∃ locker rest, state.main = .join locker :: rest ∧
          state.locks.code locker ≠ [] := by
  unfold mainStep?
  cases shape : state.main with
  | nil =>
      simp
  | cons call rest =>
      cases call <;> simp

/-- A live process lets the main thread take its step. -/
theorem step?_main
    {state : State}
    {succeeds : Bool}
    (alive : state.status = none) :
    state.step? pointer args (.main succeeds) =
      state.mainStep? pointer args succeeds := by
  simp [step?, alive]

/-- A live process lets a locker take its step. -/
theorem step?_locker
    {state : State}
    {locker : Locker}
    (alive : state.status = none) :
    state.step? pointer args (.locker locker) = none ↔
      state.locks.step? locker = none := by
  simp only [step?, alive]
  cases state.locks.step? locker <;> simp

end State

/-- Two lockers that wait in a circle wait for each other. -/
theorem deadlocked_of_cyclic
    {state : State}
    (fresh : state.locks.Disciplined Fresh)
    (cyclic : state.locks.Cyclic) :
    state.Deadlocked := by
  have notItself : ∀ locker, ¬ state.locks.WaitsFor locker locker := by
    rintro locker ⟨mutex, ⟨rest, shape⟩, owned⟩
    have follows := fresh locker
    rw [shape] at follows
    exact follows.1 owned
  have pair : ∀ {first second third : Locker},
      first ≠ second → third ≠ second → third = first := by
    decide
  obtain ⟨first, circle⟩ := cyclic
  obtain ⟨second, forward, path⟩ := Relation.TransGen.head'_iff.mp circle
  have different : first ≠ second := by
    rintro rfl
    exact notItself first forward
  rcases path.cases_head with same | ⟨third, backward, _⟩
  · exact absurd same.symm different
  · have other : third ≠ second := by
      rintro rfl
      exact notItself third backward
    rw [pair different other] at backward
    cases first with
    | t1 =>
        cases second with
        | t1 =>
            exact absurd rfl different
        | t2 =>
            exact ⟨forward, backward⟩
    | t2 =>
        cases second with
        | t1 =>
            exact ⟨backward, forward⟩
        | t2 =>
            exact absurd rfl different

/-- A locker that waits has not ended. -/
theorem State.Deadlocked.running
    {state : State}
    (deadlocked : state.Deadlocked)
    (locker : Locker) :
    state.locks.code locker ≠ [] := by
  have waits : ∃ other, state.locks.WaitsFor locker other := by
    cases locker with
    | t1 =>
        exact ⟨.t2, deadlocked.1⟩
    | t2 =>
        exact ⟨.t1, deadlocked.2⟩
  obtain ⟨other, mutex, ⟨rest, shape⟩, _⟩ := waits
  rw [shape]
  simp

/-- Deadlocked lockers, and the main thread that joins them, do not move. -/
theorem State.Deadlocked.stuck
    {rule : Set Mutex → Mutex → Prop}
    {state : State}
    (sound : Sound rule state)
    (alive : state.status = none)
    (deadlocked : state.Deadlocked) :
    state.Stuck pointer args := by
  refine ⟨alive, fun label others => ?_⟩
  cases label with
  | fire =>
      exact absurd others (by simp [Label.isWatchdog])
  | watchdogExit =>
      exact absurd others (by simp [Label.isWatchdog])
  | locker locker =>
      rw [State.step?_locker alive]
      cases locker with
      | t1 =>
          exact deadlocked.1.blocked
      | t2 =>
          exact deadlocked.2.blocked
  | main succeeds =>
      rw [State.step?_main alive, State.mainStep?_eq_none]
      right
      cases shape : state.main with
      | nil =>
          exact absurd shape (sound.active alive)
      | cons call rest =>
          have ordered := sound.ordered
          rw [shape] at ordered
          obtain ⟨locker, same⟩ := ordered.joins
            (fun locker => by
              rw [← shape]
              exact (sound.running locker (deadlocked.running locker)).1)
            (fun locker => by
              rw [← shape]
              exact (sound.running locker (deadlocked.running locker)).2)
          exact ⟨locker, rest, by rw [same], deadlocked.running locker⟩

/--
Whatever the mutexes of the lockers and the order of the steps, the child is
stuck when each locker holds the mutex that the other one waits for, and in no
other case.
-/
theorem dlRun_stuck_iff_deadlocked
    (pointer : Mutex → List UInt8)
    (args : Locker → LockerArg)
    {labels : List Label}
    {state : State}
    (distinct : ∀ locker, (args locker).first ≠ (args locker).second)
    (ran : State.run? pointer args State.start labels = some state) :
    state.Stuck pointer args ↔
      state.status = none ∧ state.Deadlocked := by
  have sound := sound_of_run
    (fun locker => follows_fresh _ (distinct locker)) ran
  constructor
  · rintro ⟨alive, noStep⟩
    refine ⟨alive, deadlocked_of_cyclic sound.disciplined ?_⟩
    have mainWaits := noStep (.main true) rfl
    rw [State.step?_main alive, State.mainStep?_eq_none] at mainWaits
    obtain ⟨locker, rest, _, unfinished⟩ :=
      mainWaits.resolve_left (sound.active alive)
    exact sound.disciplined.cyclic_of_stuck unfinished fun other =>
      (State.step?_locker alive).mp (noStep (.locker other) rfl)
  · rintro ⟨alive, deadlocked⟩
    exact deadlocked.stuck sound alive

/-- Both lockers take their first mutex before either takes its second. -/
def crossing : List Label :=
  List.replicate 7 (.main true) ++
    List.replicate 5 (.locker .t1) ++ List.replicate 5 (.locker .t2)

/-- The state that `dl_run` is in then. -/
def crossed : Option State :=
  State.run? (fun _ => []) dlArgs State.start crossing

/-- The two mutexes of a locker of `dl_run` differ. -/
theorem distinct_dlArgs (locker : Locker) :
    (dlArgs locker).first ≠ (dlArgs locker).second := by
  cases locker <;> decide

/-- The lockers of `dl_run` are then deadlocked, and nothing else can move. -/
theorem dlRun_stuck_crossed :
    ∃ state, crossed = some state ∧ state.Deadlocked ∧
      state.Stuck (fun _ => []) dlArgs := by
  refine ⟨_, rfl, ?_, ?_⟩
  · exact ⟨⟨.b, ⟨_, rfl⟩, rfl⟩, ⟨.a, ⟨_, rfl⟩, rfl⟩⟩
  · rw [dlRun_stuck_iff_deadlocked (fun _ => []) dlArgs distinct_dlArgs
      (show State.run? _ _ _ crossing = some _ from rfl)]
    exact ⟨rfl, ⟨.b, ⟨_, rfl⟩, rfl⟩, ⟨.a, ⟨_, rfl⟩, rfl⟩⟩

/-- Only the watchdog moves in a deadlock, and it moves nobody else. -/
theorem State.Deadlocked.step
    {rule : Set Mutex → Mutex → Prop}
    {state next : State}
    {label : Label}
    (sound : Sound rule state)
    (deadlocked : state.Deadlocked)
    (taken : state.step? pointer args label = some next) :
    label.isWatchdog = true ∧ next.Deadlocked := by
  have alive : state.status = none := by
    unfold State.step? at taken
    split at taken
    · exact absurd taken (by simp)
    · rename_i running
      simpa using running
  have watchdog : label.isWatchdog = true := by
    refine Classical.byContradiction fun others => ?_
    have stuck : state.Stuck pointer args :=
      deadlocked.stuck sound alive
    have blocked := stuck.2 label (by simpa using others)
    rw [taken] at blocked
    exact absurd blocked (by simp)
  refine ⟨watchdog, ?_⟩
  unfold State.step? at taken
  rw [if_neg (by simp [alive])] at taken
  cases label with
  | main succeeds =>
      exact absurd watchdog (by simp [Label.isWatchdog])
  | locker locker =>
      exact absurd watchdog (by simp [Label.isWatchdog])
  | fire =>
      simp only at taken
      split at taken
      · simp only [Option.some.injEq] at taken
        subst taken
        exact deadlocked
      · exact absurd taken (by simp)
      · exact absurd taken (by simp)
  | watchdogExit =>
      simp only at taken
      split at taken
      · simp only [Option.some.injEq] at taken
        subst taken
        exact deadlocked
      · exact absurd taken (by simp)
      · exact absurd taken (by simp)

/--
A deadlock is for good: from it only the watchdog steps, the scenario never
reports that it did not fire, and the process ends, if it does, with status 2
and the watchdog's record.
-/
theorem dlRun_after_deadlock
    (pointer : Mutex → List UInt8)
    (args : Locker → LockerArg)
    {labels later : List Label}
    {state final : State}
    (distinct : ∀ locker, (args locker).first ≠ (args locker).second)
    (ran : State.run? pointer args State.start labels = some state)
    (deadlocked : state.Deadlocked)
    (ranOn : State.run? pointer args state later = some final) :
    (∀ label ∈ later, label.isWatchdog = true) ∧
      final.Deadlocked ∧
      notFired.event ∉ final.emitted ∧
      (final.status = none ∨
        final.status = some 2 ∧
          ChildProcess.watchdogEvent classicDeadlock ∈ final.emitted) := by
  have follows : ∀ locker,
      Locks.Follows Fresh ∅ (lockerFn pointer (args locker)) :=
    fun locker => follows_fresh _ (distinct locker)
  have history := Transition.run?_history
    (fun earlier state =>
      (∀ label ∈ earlier, label.isWatchdog = true) ∧
        Sound Fresh state ∧ state.Deadlocked)
    ⟨fun label member => absurd member (by simp),
      sound_of_run follows ran, deadlocked⟩
    (fun {earlier state label next} kept (_ : True) taken => by
      obtain ⟨watchdogs, sound, deadlocked⟩ := kept
      obtain ⟨watchdog, still⟩ := deadlocked.step sound taken
      refine ⟨fun other member => ?_, sound.step follows taken, still⟩
      rcases List.mem_append.mp member with before | now
      · exact watchdogs other before
      · rw [List.mem_singleton.mp now]
        exact watchdog)
    ranOn (Transition.eachStep_of_forall (fun _ _ => trivial) state)
  obtain ⟨watchdogs, sound, still⟩ := history
  have unjoined := (sound.running .t1 (still.running .t1)).2
  refine ⟨watchdogs, still, fun member => ?_, ?_⟩
  · exact sound.reported
      ⟨_, member, Emit.kind_event notFired⟩ .t1 unjoined
  · cases status : final.status with
    | none =>
        exact Or.inl rfl
    | some code =>
        right
        rcases sound.ended code status with ⟨_, ended⟩ | ⟨rfl, fired⟩
        · rw [ended] at unjoined
          exact absurd unjoined (by simp)
        · exact ⟨rfl, sound.fired fired⟩

/-- From there the watchdog ends the process. -/
theorem dlRun_crossed_ends :
    ∃ state final, crossed = some state ∧
      State.run? (fun _ => []) dlArgs state [.fire, .watchdogExit] =
        some final ∧
      final.status = some 2 ∧ notFired.event ∉ final.emitted := by
  refine ⟨_, _, rfl, rfl, rfl, ?_⟩
  exact (dlRun_after_deadlock (fun _ => []) dlArgs distinct_dlArgs
    (show State.run? _ _ _ crossing = some _ from rfl)
    ⟨⟨.b, ⟨_, rfl⟩, rfl⟩, ⟨.a, ⟨_, rfl⟩, rfl⟩⟩
    (show State.run? _ _ _ [.fire, .watchdogExit] = some _ from rfl)).2.2.1

section Measure

/-- How many steps a call of the main thread allows. -/
def MainCall.weight : MainCall → Nat
  | .spawn _ => 10
  | .watchdog _ _ => 3
  | .emit _ | .join _ | .done | .exit _ => 1

/-- How many steps the watchdog may still take. -/
def State.watchdogSteps (state : State) : Nat :=
  match state.watchdog, state.status with
  | .armed _, _ => 2
  | .reported, none => 1
  | .reported, some _ | .absent, _ => 0

/-- How many steps the child may still take. -/
def State.measure (state : State) : Nat :=
  (state.main.map MainCall.weight).sum + state.locks.remaining +
    state.watchdogSteps

/-- No step leaves as many steps as there were. -/
theorem measure_step
    {rule : Set Mutex → Mutex → Prop}
    {state next : State}
    {label : Label}
    (sound : Sound rule state)
    (taken : state.step? pointer args label = some next) :
    next.measure < state.measure := by
  unfold State.step? at taken
  split at taken
  · exact absurd taken (by simp)
  rename_i running
  have alive : state.status = none := by
    simpa using running
  cases label with
  | main succeeds =>
      simp only [State.mainStep?] at taken
      cases shape : state.main with
      | nil =>
          simp [shape] at taken
      | cons call rest =>
          cases call with
          | emit call =>
              simp only [shape, Option.some.injEq] at taken
              subst taken
              simp [State.measure, shape, MainCall.weight,
                State.watchdogSteps]
          | watchdog timeoutNs what =>
              simp only [shape, Option.some.injEq] at taken
              subst taken
              cases succeeds with
              | true =>
                  simp only [State.measure, shape, List.map_cons,
                    List.sum_cons, MainCall.weight, State.watchdogSteps,
                    if_true]
                  omega
              | false =>
                  simp [State.measure, shape, MainCall.weight,
                    State.watchdogSteps]
          | spawn locker =>
              have idle : state.locks.code locker = [] := by
                refine Classical.byContradiction fun runs => ?_
                apply (sound.running locker runs).1
                rw [shape]
                exact List.mem_cons_self
              simp only [shape, Option.some.injEq] at taken
              subst taken
              cases succeeds with
              | true =>
                  have added := Locks.State.remaining_assign
                    (lockerFn pointer (args locker)) idle
                  have nine :
                      (lockerFn pointer (args locker)).length = 9 := rfl
                  simp only [State.measure, shape, List.map_cons,
                    List.sum_cons, MainCall.weight, State.watchdogSteps,
                    if_true]
                  omega
              | false =>
                  simp [State.measure, shape, MainCall.weight,
                    State.watchdogSteps]
          | join locker =>
              simp only [shape] at taken
              split at taken
              · simp only [Option.some.injEq] at taken
                subst taken
                simp [State.measure, shape, MainCall.weight,
                  State.watchdogSteps]
              · exact absurd taken (by simp)
          | done =>
              simp only [shape, Option.some.injEq] at taken
              subst taken
              simp [State.measure, shape, MainCall.weight,
                State.watchdogSteps]
          | exit code =>
              simp only [shape, Option.some.injEq] at taken
              subst taken
              cases watching : state.watchdog <;>
                simp [State.measure, shape, MainCall.weight,
                  State.watchdogSteps, watching, alive]
  | locker locker =>
      simp only at taken
      split at taken
      · exact absurd taken (by simp)
      · rename_i locks moved
        have fewer := Locks.State.remaining_step moved
        simp only [Option.some.injEq] at taken
        subst taken
        simp only [State.measure, State.watchdogSteps]
        omega
  | fire =>
      simp only at taken
      split at taken
      · rename_i what armed
        simp only [Option.some.injEq] at taken
        subst taken
        simp [State.measure, State.watchdogSteps, armed, alive]
      · exact absurd taken (by simp)
      · exact absurd taken (by simp)
  | watchdogExit =>
      simp only at taken
      split at taken
      · rename_i reported
        simp only [Option.some.injEq] at taken
        subst taken
        simp [State.measure, State.watchdogSteps, reported, alive]
      · exact absurd taken (by simp)
      · exact absurd taken (by simp)

end Measure

/--
Lockers that take their mutexes in one global order get through in at most 32
steps of the child: unless the timer runs out first there is always a step to
take, and at the exit the report is made and every mutex is free.
-/
theorem dlRun_completes_of_ordered
    (pointer : Mutex → List UInt8)
    (args : Locker → LockerArg)
    (rank : Mutex → Nat)
    {labels : List Label}
    {state : State}
    (ordered : ∀ locker,
      rank (args locker).first < rank (args locker).second)
    (ran : State.run? pointer args State.start labels = some state) :
    labels.length ≤ 32 ∧
      ¬ state.Stuck pointer args ∧
      (state.status = some 0 →
        notFired.event ∈ state.emitted ∧
          ∀ mutex, state.locks.owner mutex = none) := by
  have follows : ∀ locker,
      Locks.Follows (Locks.Ascending rank) ∅
        (lockerFn pointer (args locker)) :=
    fun locker => follows_ascending rank _ (ordered locker)
  have sound := sound_of_run follows ran
  refine ⟨?_, ?_, fun status => ?_⟩
  · have counted := Transition.countP_productive_le
      (fun _ => true) State.measure
      (fun sound (_ : True) taken => sound.step follows taken)
      (fun sound _ taken _ => measure_step sound taken)
      (fun _ _ _ idle => absurd idle (by simp))
      ran (Transition.eachStep_of_forall (fun _ _ => trivial) _)
      sound_start
    have initial : State.start.measure = 32 := by
      decide +kernel
    rw [initial, List.countP_eq_length.mpr (fun _ _ => rfl)] at counted
    exact counted
  · rintro ⟨alive, noStep⟩
    have mainWaits := noStep (.main true) rfl
    rw [State.step?_main alive, State.mainStep?_eq_none] at mainWaits
    obtain ⟨locker, rest, _, unfinished⟩ :=
      mainWaits.resolve_left (sound.active alive)
    obtain ⟨other, next, moved⟩ :=
      sound.disciplined.exists_step unfinished
    have blocked :=
      (State.step?_locker alive).mp (noStep (.locker other) rfl)
    rw [blocked] at moved
    exact absurd moved (by simp)
  · have ended : state.main = [] := by
      rcases sound.ended 0 status with ⟨_, ended⟩ | ⟨impossible, _⟩
      · exact ended
      · exact absurd impossible (by decide)
    refine ⟨sound.announced.resolve_left (by simp [ended]),
      fun mutex => ?_⟩
    cases owned : state.locks.owner mutex with
    | none =>
        rfl
    | some locker =>
        refine absurd owned (sound.disciplined.owner_ne_of_ended ?_ mutex)
        refine Classical.byContradiction fun runs => ?_
        have unjoined := (sound.running locker runs).2
        rw [ended] at unjoined
        exact absurd unjoined (by simp)

/-- Two lockers that both take `a` before `b`. -/
def orderedArgs (_ : Locker) : LockerArg :=
  { first := .a, second := .b, holdMs := 50 }

/-- They get through when both are started at once. -/
theorem dlRun_ordered_completes :
    ∃ state,
      State.run? (fun _ => []) orderedArgs State.start
          (List.replicate 7 (.main true) ++
            List.replicate 9 (.locker .t2) ++
            List.replicate 9 (.locker .t1) ++
            List.replicate 5 (.main true)) = some state ∧
        state.status = some 0 ∧
        notFired.event ∈ state.emitted ∧
        ∀ mutex, state.locks.owner mutex = none := by
  refine ⟨_, rfl, rfl, ?_⟩
  exact (dlRun_completes_of_ordered (fun _ => []) orderedArgs
    (fun mutex => match mutex with | .a => 0 | .b => 1)
    (fun locker => by cases locker <;> decide)
    (show State.run? _ _ _
      (List.replicate 7 (.main true) ++
        List.replicate 9 (.locker .t2) ++
        List.replicate 9 (.locker .t1) ++
        List.replicate 5 (.main true)) = some _ from rfl)).2.2 rfl

end Outcome

end FailurePlayground.DeadlockClassic
