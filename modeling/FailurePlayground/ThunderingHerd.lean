import Mathlib.Logic.Function.Basic
import FailurePlayground.EmitHelpers
import FailurePlayground.Lib.Locks
import FailurePlayground.Lib.Numeral
import FailurePlayground.Lib.Parties
import FailurePlayground.Lib.Transition

namespace FailurePlayground.ThunderingHerd

/-!
# The thundering herd

Workers wait for a starting gun and then race for one mutex, in which each of
them syncs a file that takes a while to sync.  Time passes between any two
steps; a thread that sleeps steps again when its time has come, and a thread
that takes a mutex steps when the mutex is free.  A signal that has a handler
goes to the main thread and cuts its sleep short; the workers sleep in full.
-/

/-- `WORKERS`. -/
def workers : Nat := 8

/-- `ITERS`. -/
def iters : Nat := 6

/-- `FSYNC_DELAY`. -/
def fsyncDelay : Nat := 30 * 1000000

/-- The mutexes of `run`. -/
inductive Mutex where
  | startMu
  | mu
  | totMu
  deriving Repr, DecidableEq

/-- The threads of the scenario. -/
inductive Thread (W : Nat) where
  | main
  | worker (w : Fin W)
  deriving Repr, DecidableEq

/-- What a worker read from the clock in one iteration. -/
structure Times where
  tBefore : Nat
  tAcquired : Nat
  tDone : Nat
  deriving Repr, DecidableEq

/-- Where a thread stands in `worker_fn`. -/
inductive WorkerStage where
  | absent
  | lockStart
  | checking
  | waiting
  | waking
  | unlockStart
  | looping (i : Nat)
  | lockMu (i tBefore : Nat)
  | acquired (i tBefore : Nat)
  | writing (i tBefore tAcquired : Nat)
  | syncing (i tBefore tAcquired wakeAt : Nat)
  | synced (i tBefore tAcquired : Nat)
  | unlockMu (i : Nat) (times : Times)
  | lockTot (i : Nat) (times : Times)
  | loadWait (i : Nat) (times : Times)
  | storeWait (i : Nat) (times : Times) (totalWait : Int)
  | loadWork (i : Nat) (times : Times)
  | storeWork (i : Nat) (times : Times) (totalWork : Int)
  | unlockTot (i : Nat)
  | returned
  deriving Repr, DecidableEq

/-- Where the main thread stands in `run`. -/
inductive MainStage where
  | opening
  | announcing
  | spawning (i : Nat)
  | pausing
  | sleeping (wakeAt : Nat)
  | reading
  | lockStart
  | starting
  | broadcasting
  | unlockStart
  | joining (i : Nat)
  | reporting
  | returned (rc : Int)
  deriving Repr, DecidableEq

/-- The loop of `worker_fn` before iteration `i`. -/
def WorkerStage.loopHead (K i : Nat) : WorkerStage :=
  if i < K then .looping i else .returned

namespace MainStage

/-- The first loop of `run` before iteration `i`. -/
def spawnHead (W i : Nat) : MainStage :=
  if i < W then .spawning i else .pausing

/-- The second loop of `run` before iteration `i`. -/
def joinHead (W i : Nat) : MainStage :=
  if i < W then .joining i else .reporting

end MainStage

/--
The clock, the variables of `run` that its threads share, the owner of every
mutex, the threads, and what was reported.
-/
structure State (W : Nat) where
  now : Nat
  started : Bool
  totalWait : Int
  totalWork : Int
  t0 : Nat
  owner : Mutex → Option (Thread W)
  workers : Fin W → WorkerStage
  main : MainStage
  reports : List Emit

/--
A thread takes its next step, where `succeeds` is about a call of the main
thread that may fail or be interrupted; a waiting worker wakes up without a reason; time passes.
-/
inductive Label (W : Nat) where
  | main (succeeds : Bool)
  | worker (w : Fin W)
  | wake (w : Fin W)
  | tick (ns : Nat)
  deriving Repr, DecidableEq

section Reports

/-- `"wall_ms_approx"`. -/
def wallKey : Option (List UInt8) :=
  some (Bytes.ascii "wall_ms_approx")

/-- `expected_ms`. -/
def expectedMs (W K D : Nat) : Int :=
  ((W * K * D : Nat) : Int).tdiv 1000000

/-- What `run` reports before it creates its workers. -/
def herdPreamble (W K D : Nat) : List Emit :=
  [.phase (some (Bytes.ascii
      "8 workers, 6 iterations each, all racing for one mutex")),
    .logf (Bytes.ascii "critical section is a 30ms fsync " ++
      [0xE2, 0x80, 0x94] ++ Bytes.ascii " pure serial work"),
    .expect wallKey (Int64.ofInt (expectedMs W K D))]

/-- `wall_ms`, from the nanoseconds between the gun and the last join. -/
def wallMs (dt : Int) : Int :=
  dt.tdiv 1000000

/-- `avg_wait_ms` and `avg_work_ms`. -/
def avgMs (W K : Nat) (total : Int) : Int :=
  (total.tdiv ((W * K : Nat) : Int)).tdiv 1000000

/-- What `run` reports after its joins. -/
def herdReport (W K D : Nat) (dt totalWait totalWork : Int) : List Emit :=
  [.actual wallKey (Int64.ofInt (wallMs dt)),
    .gauge (some (Bytes.ascii "avg_wait_ms"))
      (Int64.ofInt (avgMs W K totalWait)),
    .gauge (some (Bytes.ascii "avg_work_ms"))
      (Int64.ofInt (avgMs W K totalWork)),
    .count (some (Bytes.ascii "total_ops"))
      (Int64.ofInt ((W * K : Nat) : Int)),
    .logf (Bytes.ascii "wall=" ++ Numeral.signed (wallMs dt) ++
      Bytes.ascii " ms, avg wait=" ++
      Numeral.signed (avgMs W K totalWait) ++
      Bytes.ascii " ms, avg work=" ++
      Numeral.signed (avgMs W K totalWork) ++
      Bytes.ascii " ms (fsync delay was " ++
      Numeral.signed ((D : Int).tdiv 1000000) ++ Bytes.ascii " ms)"),
    .logf (Numeral.signed W ++ Bytes.ascii " workers " ++
      [0xC3, 0x97] ++ Bytes.ascii " " ++ Numeral.signed K ++
      Bytes.ascii " ops " ++ [0xE2, 0x86, 0x92] ++
      Bytes.ascii
        " 48 operations queued through one 30ms critical section.")]

end Reports

namespace State

variable {W : Nat}

/-- Replace the stage of one worker. -/
def setWorker
    (state : State W)
    (w : Fin W)
    (stage : WorkerStage) : State W :=
  { state with workers := Function.update state.workers w stage }

/-- A mutex changes hands. -/
def setOwner
    (state : State W)
    (mutex : Mutex)
    (owner : Option (Thread W)) : State W :=
  { state with owner := Function.update state.owner mutex owner }

/-- `pthread_mutex_lock` by a worker, which goes on at `stage`. -/
def lock?
    (state : State W)
    (mutex : Mutex)
    (w : Fin W)
    (stage : WorkerStage) : Option (State W) :=
  if state.owner mutex = none then
    some ((state.setWorker w stage).setOwner mutex (some (.worker w)))
  else
    none

/-- `pthread_mutex_unlock` by a worker, which goes on at `stage`. -/
def unlock
    (state : State W)
    (mutex : Mutex)
    (w : Fin W)
    (stage : WorkerStage) : State W :=
  (state.setWorker w stage).setOwner mutex none

/--
A step of `worker_fn`, with `K` iterations and syncs that take `D`
nanoseconds.  `pthread_cond_wait` gives up the mutex and takes it again after
it was woken.
-/
def workerStep?
    (K D : Nat)
    (state : State W)
    (w : Fin W) : Option (State W) :=
  match state.workers w with
  | .absent | .waiting | .returned =>
      none
  | .lockStart | .waking =>
      state.lock? .startMu w .checking
  | .checking =>
      if state.started then
        some (state.setWorker w .unlockStart)
      else
        some (state.unlock .startMu w .waiting)
  | .unlockStart =>
      some (state.unlock .startMu w (WorkerStage.loopHead K 0))
  | .looping i =>
      some (state.setWorker w (.lockMu i state.now))
  | .lockMu i tBefore =>
      state.lock? .mu w (.acquired i tBefore)
  | .acquired i tBefore =>
      some (state.setWorker w (.writing i tBefore state.now))
  | .writing i tBefore tAcquired =>
      some (state.setWorker w
        (.syncing i tBefore tAcquired (state.now + D)))
  | .syncing i tBefore tAcquired wakeAt =>
      if wakeAt ≤ state.now then
        some (state.setWorker w (.synced i tBefore tAcquired))
      else
        none
  | .synced i tBefore tAcquired =>
      some (state.setWorker w
        (.unlockMu i ⟨tBefore, tAcquired, state.now⟩))
  | .unlockMu i times =>
      some (state.unlock .mu w (.lockTot i times))
  | .lockTot i times =>
      state.lock? .totMu w (.loadWait i times)
  | .loadWait i times =>
      some (state.setWorker w (.storeWait i times state.totalWait))
  | .storeWait i times totalWait =>
      let next := state.setWorker w (.loadWork i times)
      some { next with
        totalWait := totalWait + (times.tAcquired - times.tBefore : Int) }
  | .loadWork i times =>
      some (state.setWorker w (.storeWork i times state.totalWork))
  | .storeWork i times totalWork =>
      let next := state.setWorker w (.unlockTot i)
      some { next with
        totalWork := totalWork + (times.tDone - times.tAcquired : Int) }
  | .unlockTot i =>
      some (state.unlock .totMu w (WorkerStage.loopHead K (i + 1)))

/-- The stage of a waiting worker after `pthread_cond_broadcast`. -/
def woken : WorkerStage → WorkerStage
  | .waiting => .waking
  | stage => stage

/-- A step of `run`. -/
def mainStep?
    (K D : Nat)
    (state : State W)
    (succeeds : Bool) : Option (State W) :=
  match state.main with
  | .opening =>
      if succeeds then
        some { state with main := .announcing }
      else
        some { state with
          main := .returned 1
          reports :=
            state.reports ++
              [.sutFault
                (some (Bytes.ascii "chaos_io_open failed"))] }
  | .announcing =>
      some { state with
        main := MainStage.spawnHead W 0
        reports := state.reports ++ herdPreamble W K D }
  | .spawning i =>
      if inside : i < W then
        let next :=
          if succeeds then state.setWorker ⟨i, inside⟩ .lockStart
          else state
        some { next with main := MainStage.spawnHead W (i + 1) }
      else
        none
  | .pausing =>
      some { state with main := .sleeping (state.now + 10000 * 1000) }
  | .sleeping wakeAt =>
      if wakeAt ≤ state.now ∨ succeeds = false then
        some { state with main := .reading }
      else
        none
  | .reading =>
      some { state with
        main := .lockStart
        t0 := state.now }
  | .lockStart =>
      if state.owner .startMu = none then
        let next := state.setOwner .startMu (some .main)
        some { next with main := .starting }
      else
        none
  | .starting =>
      some { state with
        main := .broadcasting
        started := true }
  | .broadcasting =>
      some { state with
        main := .unlockStart
        workers := fun w => woken (state.workers w) }
  | .unlockStart =>
      let next := state.setOwner .startMu none
      some { next with main := MainStage.joinHead W 0 }
  | .joining i =>
      if inside : i < W then
        if state.workers ⟨i, inside⟩ = .absent ∨
            state.workers ⟨i, inside⟩ = .returned then
          some { state with main := MainStage.joinHead W (i + 1) }
        else
          none
      else
        none
  | .reporting =>
      some { state with
        main := .returned 0
        reports :=
          state.reports ++
            herdReport W K D (state.now - state.t0 : Int)
              state.totalWait state.totalWork }
  | .returned _ =>
      none

/-- Execute one enabled label. -/
def step?
    (K D : Nat)
    (state : State W) : Label W → Option (State W)
  | .main succeeds =>
      state.mainStep? K D succeeds
  | .worker w =>
      state.workerStep? K D w
  | .wake w =>
      match state.workers w with
      | .waiting => some (state.setWorker w .waking)
      | _ => none
  | .tick ns =>
      some { state with now := state.now + ns }

/-- Execute a finite interleaving. -/
abbrev run? (K D : Nat) : State W → List (Label W) → Option (State W) :=
  Transition.run? (step? K D)

/-- `run` before its first step, at the time `now`. -/
def start (W now : Nat) : State W where
  now := now
  started := false
  totalWait := 0
  totalWork := 0
  t0 := 0
  owner := fun _ => none
  workers := fun _ => .absent
  main := .opening
  reports := []

end State

section Moves

/-- What a step of a worker does besides its own progress. -/
inductive Effect where
  | silent
  | lock (mutex : Mutex)
  | unlock (mutex : Mutex)
  | setWait (totalWait : Int)
  | setWork (totalWork : Int)
  deriving Repr, DecidableEq

/-- The steps of `worker_fn`, by the stage they start from. -/
inductive Move
    (K D now : Nat)
    (started : Bool)
    (totalWait totalWork : Int) :
    WorkerStage → Effect → WorkerStage → Prop where
  | lockStart :
      Move K D now started totalWait totalWork
        .lockStart (.lock .startMu) .checking
  | relock :
      Move K D now started totalWait totalWork
        .waking (.lock .startMu) .checking
  | pass (gun : started = true) :
      Move K D now started totalWait totalWork
        .checking .silent .unlockStart
  | wait (noGun : started = false) :
      Move K D now started totalWait totalWork
        .checking (.unlock .startMu) .waiting
  | enter :
      Move K D now started totalWait totalWork
        .unlockStart (.unlock .startMu) (WorkerStage.loopHead K 0)
  | readBefore (i : Nat) :
      Move K D now started totalWait totalWork
        (.looping i) .silent (.lockMu i now)
  | lockMu (i tBefore : Nat) :
      Move K D now started totalWait totalWork
        (.lockMu i tBefore) (.lock .mu) (.acquired i tBefore)
  | readAcquired (i tBefore : Nat) :
      Move K D now started totalWait totalWork
        (.acquired i tBefore) .silent (.writing i tBefore now)
  | write (i tBefore tAcquired : Nat) :
      Move K D now started totalWait totalWork
        (.writing i tBefore tAcquired) .silent
        (.syncing i tBefore tAcquired (now + D))
  | sync
      (i tBefore tAcquired wakeAt : Nat)
      (due : wakeAt ≤ now) :
      Move K D now started totalWait totalWork
        (.syncing i tBefore tAcquired wakeAt) .silent
        (.synced i tBefore tAcquired)
  | readDone (i tBefore tAcquired : Nat) :
      Move K D now started totalWait totalWork
        (.synced i tBefore tAcquired) .silent
        (.unlockMu i ⟨tBefore, tAcquired, now⟩)
  | unlockMu (i : Nat) (times : Times) :
      Move K D now started totalWait totalWork
        (.unlockMu i times) (.unlock .mu) (.lockTot i times)
  | lockTot (i : Nat) (times : Times) :
      Move K D now started totalWait totalWork
        (.lockTot i times) (.lock .totMu) (.loadWait i times)
  | loadWait (i : Nat) (times : Times) :
      Move K D now started totalWait totalWork
        (.loadWait i times) .silent (.storeWait i times totalWait)
  | storeWait (i : Nat) (times : Times) (loaded : Int) :
      Move K D now started totalWait totalWork
        (.storeWait i times loaded)
        (.setWait
          (loaded + (times.tAcquired - times.tBefore : Int)))
        (.loadWork i times)
  | loadWork (i : Nat) (times : Times) :
      Move K D now started totalWait totalWork
        (.loadWork i times) .silent (.storeWork i times totalWork)
  | storeWork (i : Nat) (times : Times) (loaded : Int) :
      Move K D now started totalWait totalWork
        (.storeWork i times loaded)
        (.setWork (loaded + (times.tDone - times.tAcquired : Int)))
        (.unlockTot i)
  | unlockTot (i : Nat) :
      Move K D now started totalWait totalWork
        (.unlockTot i) (.unlock .totMu)
        (WorkerStage.loopHead K (i + 1))

namespace State

variable {W : Nat}

/-- The effect of a worker's step on what the threads share. -/
def apply (state : State W) (w : Fin W) : Effect → State W
  | .silent => state
  | .lock mutex => state.setOwner mutex (some (.worker w))
  | .unlock mutex => state.setOwner mutex none
  | .setWait totalWait => { state with totalWait := totalWait }
  | .setWork totalWork => { state with totalWork := totalWork }

/-- A mutex that is to be taken is free. -/
def Admits (state : State W) : Effect → Prop
  | .lock mutex => state.owner mutex = none
  | .silent | .unlock _ | .setWait _ | .setWork _ => True

/-- The worker's stages before and after a step, and its effect. -/
abbrev MovesTo
    (state : State W)
    (K D : Nat)
    (w : Fin W)
    (effect : Effect)
    (stage : WorkerStage) : Prop :=
  Move K D state.now state.started state.totalWait state.totalWork
    (state.workers w) effect stage

/-- A worker that takes a mutex found it free. -/
theorem lock?_eq_some
    {state next : State W}
    {mutex : Mutex}
    {w : Fin W}
    {stage : WorkerStage}
    (taken : state.lock? mutex w stage = some next) :
    state.owner mutex = none ∧
      next = (state.setWorker w stage).apply w (.lock mutex) := by
  unfold lock? at taken
  split at taken
  · rename_i free
    exact ⟨free, (Option.some.inj taken).symm⟩
  · exact absurd taken (by simp)

/-- What a worker's step did. -/
theorem workerStep?_cases
    {K D : Nat}
    {state next : State W}
    {w : Fin W}
    (taken : state.workerStep? K D w = some next) :
    ∃ effect stage,
      state.MovesTo K D w effect stage ∧ state.Admits effect ∧
        next = (state.setWorker w stage).apply w effect := by
  unfold workerStep? at taken
  unfold MovesTo
  cases shape : state.workers w with
  | absent =>
      simp [shape] at taken
  | waiting =>
      simp [shape] at taken
  | returned =>
      simp [shape] at taken
  | lockStart =>
      simp only [shape] at taken
      obtain ⟨free, rfl⟩ := lock?_eq_some taken
      exact ⟨_, _, .lockStart, free, rfl⟩
  | waking =>
      simp only [shape] at taken
      obtain ⟨free, rfl⟩ := lock?_eq_some taken
      exact ⟨_, _, .relock, free, rfl⟩
  | checking =>
      simp only [shape] at taken
      split at taken
      · rename_i gun
        exact ⟨_, _, .pass gun, trivial, (Option.some.inj taken).symm⟩
      · rename_i noGun
        exact ⟨_, _, .wait (by simpa using noGun), trivial,
          (Option.some.inj taken).symm⟩
  | unlockStart =>
      simp only [shape] at taken
      exact ⟨_, _, .enter, trivial, (Option.some.inj taken).symm⟩
  | looping i =>
      simp only [shape] at taken
      exact ⟨_, _, .readBefore i, trivial, (Option.some.inj taken).symm⟩
  | lockMu i tBefore =>
      simp only [shape] at taken
      obtain ⟨free, rfl⟩ := lock?_eq_some taken
      exact ⟨_, _, .lockMu i tBefore, free, rfl⟩
  | acquired i tBefore =>
      simp only [shape] at taken
      exact ⟨_, _, .readAcquired i tBefore, trivial,
        (Option.some.inj taken).symm⟩
  | writing i tBefore tAcquired =>
      simp only [shape] at taken
      exact ⟨_, _, .write i tBefore tAcquired, trivial,
        (Option.some.inj taken).symm⟩
  | syncing i tBefore tAcquired wakeAt =>
      simp only [shape] at taken
      split at taken
      · rename_i due
        exact ⟨_, _, .sync i tBefore tAcquired wakeAt due, trivial,
          (Option.some.inj taken).symm⟩
      · exact absurd taken (by simp)
  | synced i tBefore tAcquired =>
      simp only [shape] at taken
      exact ⟨_, _, .readDone i tBefore tAcquired, trivial,
        (Option.some.inj taken).symm⟩
  | unlockMu i times =>
      simp only [shape] at taken
      exact ⟨_, _, .unlockMu i times, trivial,
        (Option.some.inj taken).symm⟩
  | lockTot i times =>
      simp only [shape] at taken
      obtain ⟨free, rfl⟩ := lock?_eq_some taken
      exact ⟨_, _, .lockTot i times, free, rfl⟩
  | loadWait i times =>
      simp only [shape] at taken
      exact ⟨_, _, .loadWait i times, trivial,
        (Option.some.inj taken).symm⟩
  | storeWait i times loaded =>
      simp only [shape] at taken
      exact ⟨_, _, .storeWait i times loaded, trivial,
        (Option.some.inj taken).symm⟩
  | loadWork i times =>
      simp only [shape] at taken
      exact ⟨_, _, .loadWork i times, trivial,
        (Option.some.inj taken).symm⟩
  | storeWork i times loaded =>
      simp only [shape] at taken
      exact ⟨_, _, .storeWork i times loaded, trivial,
        (Option.some.inj taken).symm⟩
  | unlockTot i =>
      simp only [shape] at taken
      exact ⟨_, _, .unlockTot i, trivial,
        (Option.some.inj taken).symm⟩

end State

end Moves

end FailurePlayground.ThunderingHerd
