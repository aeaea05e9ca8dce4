import FailurePlayground.EmitHelpers
import FailurePlayground.Lib.Numeral
import FailurePlayground.Lib.Transition

namespace FailurePlayground.ConnectionReset

/-!
# The connection that is reset

The main thread writes chunks into a socket while its peer reads once, sleeps
and closes the other end.  A blocking write goes on as long as the socket has
room; it returns when all of its bytes are taken, when the peer is gone, or
when a signal whose handler was inherited interrupts it.

No peer may come to be, since `pthread_create` is not checked; then the join
is one of an unset `pt`, and the run has no step from there.
-/

/-- The constants of `cr_run` and `peer_fn`. -/
structure Setup where
  iterations : Nat
  chunkBytes : Nat
  rbufBytes : Nat
  maxErrors : Nat
  delayMs : Nat
  chunkPositive : 0 < chunkBytes
  rbufPositive : 0 < rbufBytes
  iterationsPositive : 0 < iterations
  errorsPositive : 0 < maxErrors

/-- The constants as the source has them. -/
def reset : Setup where
  iterations := 1000
  chunkBytes := 4096
  rbufBytes := 4096
  maxErrors := 3
  delayMs := 30
  chunkPositive := by decide
  rbufPositive := by decide
  iterationsPositive := by decide
  errorsPositive := by decide

/-- Why a write fails: a signal came first, or the peer is gone. -/
inductive Errno where
  | eintr
  | epipe
  | econnreset
  deriving Repr, DecidableEq

namespace Errno

/-- The number of an error. -/
def code : Errno → Nat
  | .eintr => 4
  | .epipe => 32
  | .econnreset => 104

/-- `strerror`. -/
def strerror : Errno → List UInt8
  | .eintr => Bytes.ascii "Interrupted system call"
  | .epipe => Bytes.ascii "Broken pipe"
  | .econnreset => Bytes.ascii "Connection reset by peer"

end Errno

/-- The thread of a report. -/
inductive Thread where
  | main
  | peer
  deriving Repr, DecidableEq

/-- Where the peer stands in `peer_fn`. -/
inductive PeerStage where
  | absent
  | reading
  | announcing
  | falling
  | sleeping (wakeAt : Nat)
  | closing
  | closed
  | returned
  deriving Repr, DecidableEq

/--
Where the main thread stands in `cr_run`; `writing i done` is inside the call
of iteration `i`, which has handed over `done` bytes.
-/
inductive MainStage where
  | pairing
  | ignoring
  | announcing
  | creating
  | announcingWrites
  | writing (i done : Nat)
  | failed (i : Nat) (errno : Errno)
  | joining
  | closing
  | reporting
  | returned (rc : Int)
  deriving Repr, DecidableEq

/-- The loop of `cr_run` before iteration `i`. -/
def MainStage.loopHead (iterations i : Nat) : MainStage :=
  if i < iterations then .writing i 0 else .joining

/-- What follows an error: the loop gives up, or tries its next iteration. -/
def MainStage.afterError (setup : Setup) (errors i : Nat) : MainStage :=
  if setup.maxErrors ≤ errors then
    .joining
  else
    .loopHead setup.iterations i

/--
The clock, the bytes that wait at `peer_fd`, whether each end is open, what
becomes of `SIGPIPE`, the two threads, the variables of `cr_run`, the bytes
that the peer took and the `r` of its read, and what was reported.
-/
structure State where
  now : Nat
  queued : Nat
  myOpen : Bool
  peerOpen : Bool
  sigpipeIgnored : Bool
  killed : Bool
  main : MainStage
  peer : PeerStage
  total : Nat
  errors : Nat
  firstErrIter : Int
  firstErrno : Option Errno
  peerRead : Nat
  peerResult : Int
  reports : List (Thread × Emit)
  deriving DecidableEq

/--
The two calls that may fail, a step of the main thread, bytes that the socket
takes from it, a write that fails, a step of the peer, what its read returns, a
signal that interrupts a thread, time.
-/
inductive Label where
  | socketpairFails
  | createFails
  | main
  | accept (count : Nat)
  | broken (errno : Errno)
  | peer
  | receive (count : Nat)
  | interrupt (thread : Thread)
  | tick (ns : Nat)
  deriving Repr, DecidableEq

section Reports

/-- `pg_phase` before the peer is created. -/
def spawning : Emit :=
  .phase (some (Bytes.ascii
    "spawning peer; it will read once then close after 30 ms"))

/-- `pg_phase` before the loop. -/
def untilBreaks : Emit :=
  .phase (some (Bytes.ascii
    "main thread writes 4KB chunks until something breaks"))

/-- The peer's line after its read. -/
def peerReceived (setup : Setup) (r : Int) : Emit :=
  .logf (Bytes.ascii "peer received " ++ Numeral.signed r ++
    Bytes.ascii " bytes; closing connection in " ++
    Numeral.signed setup.delayMs ++ Bytes.ascii " ms")

/-- The peer's last line. -/
def peerClosed : Emit :=
  .logf (Bytes.ascii "peer closed")

/-- The line about the first write that fails. -/
def firstError (i : Nat) (errno : Errno) : Emit :=
  .logf (Bytes.ascii "first write error at iter " ++ Numeral.signed i ++
    Bytes.ascii ": errno=" ++ Numeral.signed errno.code ++
    Bytes.ascii " (" ++ errno.strerror ++ Bytes.ascii ")")

/-- What `cr_run` explains about `EPIPE`. -/
def epipeLines : List Emit :=
  [.logf (Bytes.ascii
      "EPIPE = peer's read side is gone. Without SIGPIPE-ignore,"),
    .logf (Bytes.ascii
      "this would have killed the process before write() returned.")]

/-- What `cr_run` reports after the join. -/
def resetReport
    (total : Nat)
    (firstErrIter : Int)
    (errors : Nat)
    (firstErrno : Option Errno) : List Emit :=
  [.actual (some (Bytes.ascii "bytes_before_reset")) (Int64.ofInt total),
    .actual (some (Bytes.ascii "first_error_iter"))
      (Int64.ofInt firstErrIter),
    .count (some (Bytes.ascii "write_errors")) (Int64.ofInt errors),
    .logf (Bytes.ascii "wrote " ++ Numeral.signed total ++
      Bytes.ascii " bytes before peer close; " ++
      Numeral.signed errors ++ Bytes.ascii " write errors")] ++
    if firstErrno = some .epipe then epipeLines else []

end Reports

namespace State

/-- A thread reports. -/
def report
    (state : State)
    (thread : Thread)
    (emits : List Emit) : State :=
  { state with
    reports := state.reports ++ emits.map (Prod.mk thread) }

/-- What the first write that fails leaves behind; later ones leave nothing. -/
def note (state : State) (i : Nat) (errno : Errno) : State :=
  if state.firstErrIter < 0 then
    { state.report .main [firstError i errno] with
      firstErrIter := i
      firstErrno := some errno }
  else
    state

/-- A step of `cr_run` that leaves nothing to the kernel. -/
def mainStep? (setup : Setup) (state : State) : Option State :=
  match state.main with
  | .pairing =>
      some { state with
        main := .ignoring
        myOpen := true
        peerOpen := true }
  | .ignoring =>
      some { state with
        main := .announcing
        sigpipeIgnored := true }
  | .announcing =>
      some { state.report .main [spawning] with main := .creating }
  | .creating =>
      some { state with
        main := .announcingWrites
        peer := .reading }
  | .announcingWrites =>
      some { state.report .main [untilBreaks] with
        main := MainStage.loopHead setup.iterations 0 }
  | .writing i done =>
      if done = setup.chunkBytes ∨ state.peerOpen = false ∧ 0 < done then
        some { state with
          main := MainStage.loopHead setup.iterations (i + 1)
          total := state.total + done }
      else
        none
  | .failed i errno =>
      some { state.note i errno with
        errors := state.errors + 1
        main := MainStage.afterError setup (state.errors + 1) (i + 1) }
  | .joining =>
      if state.peer = .returned then
        some { state with main := .closing }
      else
        none
  | .closing =>
      some { state with
        main := .reporting
        myOpen := false }
  | .reporting =>
      some {
        state.report .main
          (resetReport state.total state.firstErrIter state.errors
            state.firstErrno) with
        main := .returned 0 }
  | .returned _ =>
      none

/-- A step of `peer_fn` after its read. -/
def peerStep? (setup : Setup) (state : State) : Option State :=
  match state.peer with
  | .absent | .reading | .returned =>
      none
  | .announcing =>
      some { state.report .peer [peerReceived setup state.peerResult] with
        peer := .falling }
  | .falling =>
      some { state with
        peer := .sleeping (state.now + setup.delayMs * 1000000) }
  | .sleeping wakeAt =>
      if wakeAt ≤ state.now then
        some { state with peer := .closing }
      else
        none
  | .closing =>
      some { state with
        peer := .closed
        peerOpen := false }
  | .closed =>
      some { state.report .peer [peerClosed] with peer := .returned }

/-- What a signal does to the call that a thread is in. -/
def interrupted? (setup : Setup) (state : State) : Thread → Option State
  | .main =>
      match state.main with
      | .writing i 0 =>
          some { state with main := .failed i .eintr }
      | .writing i done =>
          some { state with
            main := MainStage.loopHead setup.iterations (i + 1)
            total := state.total + done }
      | _ => none
  | .peer =>
      match state.peer with
      | .reading =>
          some { state with
            peer := .announcing
            peerResult := -1 }
      | .sleeping _ =>
          some { state with peer := .closing }
      | _ => none

/-- Execute one enabled label; the socket takes `capacity` bytes at most. -/
def step?
    (setup : Setup)
    (capacity : Nat)
    (state : State)
    (label : Label) : Option State :=
  if state.killed then
    none
  else
    match label with
    | .socketpairFails =>
        if state.main = .pairing then
          some {
            state.report .main
              [.sutFault (some (Bytes.ascii "socketpair failed"))] with
            main := .returned 1 }
        else
          none
    | .createFails =>
        if state.main = .creating then
          some { state with main := .announcingWrites }
        else
          none
    | .main =>
        state.mainStep? setup
    | .accept count =>
        match state.main with
        | .writing i done =>
            if state.peerOpen = true ∧ 0 < count ∧
                done + count ≤ setup.chunkBytes ∧
                state.queued + count ≤ capacity then
              some { state with
                main := .writing i (done + count)
                queued := state.queued + count }
            else
              none
        | _ => none
    | .broken errno =>
        match state.main with
        | .writing i 0 =>
            if state.peerOpen ∨ errno = .eintr then
              none
            else if errno = .epipe ∧ state.sigpipeIgnored = false then
              some { state with killed := true }
            else
              some { state with main := .failed i errno }
        | _ => none
    | .peer =>
        state.peerStep? setup
    | .receive count =>
        if state.peer = .reading ∧ 0 < count ∧
            count ≤ setup.rbufBytes ∧ count ≤ state.queued then
          some { state with
            peer := .announcing
            queued := state.queued - count
            peerRead := count
            peerResult := count }
        else
          none
    | .interrupt thread =>
        state.interrupted? setup thread
    | .tick ns =>
        some { state with now := state.now + ns }

/-- Execute a finite interleaving. -/
abbrev run? (setup : Setup) (capacity : Nat) :
    State → List Label → Option State :=
  Transition.run? (step? setup capacity)

/-- `cr_run` before its first step. -/
def start (now : Nat) : State where
  now := now
  queued := 0
  myOpen := false
  peerOpen := false
  sigpipeIgnored := false
  killed := false
  main := .pairing
  peer := .absent
  total := 0
  errors := 0
  firstErrIter := -1
  firstErrno := none
  peerRead := 0
  peerResult := 0
  reports := []

/-- What one thread has reported. -/
def reportsOf (state : State) (thread : Thread) : List Emit :=
  (state.reports.filter fun entry => entry.1 == thread).map Prod.snd

end State

section Writes

/--
How a write ends: with some bytes, with the bytes it had when a signal came, or
with an error.
-/
inductive Written where
  | took (count : Nat)
  | cut (count : Nat)
  | failed (errno : Errno)
  deriving Repr, DecidableEq

/-- The write that a step ends, if it does. -/
def State.written (state : State) : Label → List Written
  | .main =>
      match state.main with
      | .writing _ done => [.took done]
      | .failed _ errno => [.failed errno]
      | _ => []
  | .interrupt .main =>
      match state.main with
      | .writing _ 0 => []
      | .writing _ done => [.cut done]
      | _ => []
  | .socketpairFails | .createFails | .accept _ | .broken _ | .peer
  | .receive _ | .interrupt .peer | .tick _ => []

/-- How the writes of a run have ended. -/
def writes
    (setup : Setup)
    (capacity now : Nat)
    (labels : List Label) : List Written :=
  Transition.observed (State.step? setup capacity) State.written
    (State.start now) labels

end Writes

section Moves

variable
  {setup : Setup}
  {capacity : Nat}
  {state next : State}
  {label : Label}

/-- The steps of the main thread, of the socket for it, and of the peer. -/
inductive Move
    (setup : Setup)
    (capacity : Nat)
    (state : State) : List Written → State → Prop where
  | pairingFails (stage : state.main = .pairing) :
      Move setup capacity state []
        { state.report .main
            [.sutFault (some (Bytes.ascii "socketpair failed"))] with
          main := .returned 1 }
  | pairs (stage : state.main = .pairing) :
      Move setup capacity state []
        { state with main := .ignoring, myOpen := true, peerOpen := true }
  | ignores (stage : state.main = .ignoring) :
      Move setup capacity state []
        { state with main := .announcing, sigpipeIgnored := true }
  | announces (stage : state.main = .announcing) :
      Move setup capacity state []
        { state.report .main [spawning] with main := .creating }
  | creates (stage : state.main = .creating) :
      Move setup capacity state []
        { state with main := .announcingWrites, peer := .reading }
  | createFails (stage : state.main = .creating) :
      Move setup capacity state [] { state with main := .announcingWrites }
  | announcesWrites (stage : state.main = .announcingWrites) :
      Move setup capacity state []
        { state.report .main [untilBreaks] with
          main := MainStage.loopHead setup.iterations 0 }
  | returns
      (i done : Nat)
      (stage : state.main = .writing i done)
      (finished :
        done = setup.chunkBytes ∨ state.peerOpen = false ∧ 0 < done) :
      Move setup capacity state [.took done]
        { state with
          main := MainStage.loopHead setup.iterations (i + 1)
          total := state.total + done }
  | accepts
      (i done count : Nat)
      (stage : state.main = .writing i done)
      (isOpen : state.peerOpen = true)
      (positive : 0 < count)
      (small : done + count ≤ setup.chunkBytes)
      (room : state.queued + count ≤ capacity) :
      Move setup capacity state []
        { state with
          main := .writing i (done + count)
          queued := state.queued + count }
  | kills
      (i : Nat)
      (stage : state.main = .writing i 0)
      (heeded : state.sigpipeIgnored = false) :
      Move setup capacity state [] { state with killed := true }
  | fails
      (i : Nat)
      (errno : Errno)
      (stage : state.main = .writing i 0)
      (gone : errno = .eintr ∨ state.peerOpen = false) :
      Move setup capacity state [] { state with main := .failed i errno }
  | cuts
      (i done : Nat)
      (stage : state.main = .writing i done)
      (positive : 0 < done) :
      Move setup capacity state [.cut done]
        { state with
          main := MainStage.loopHead setup.iterations (i + 1)
          total := state.total + done }
  | notes
      (i : Nat)
      (errno : Errno)
      (stage : state.main = .failed i errno) :
      Move setup capacity state [.failed errno]
        { state.note i errno with
          errors := state.errors + 1
          main :=
            MainStage.afterError setup (state.errors + 1) (i + 1) }
  | joins
      (stage : state.main = .joining)
      (done : state.peer = .returned) :
      Move setup capacity state [] { state with main := .closing }
  | closes (stage : state.main = .closing) :
      Move setup capacity state []
        { state with main := .reporting, myOpen := false }
  | reports (stage : state.main = .reporting) :
      Move setup capacity state []
        { state.report .main
            (resetReport state.total state.firstErrIter state.errors
              state.firstErrno) with
          main := .returned 0 }
  | receives
      (count : Nat)
      (stage : state.peer = .reading)
      (positive : 0 < count)
      (small : count ≤ setup.rbufBytes)
      (there : count ≤ state.queued) :
      Move setup capacity state []
        { state with
          peer := .announcing
          queued := state.queued - count
          peerRead := count
          peerResult := count }
  | receivesNothing (stage : state.peer = .reading) :
      Move setup capacity state []
        { state with peer := .announcing, peerResult := -1 }
  | peerAnnounces (stage : state.peer = .announcing) :
      Move setup capacity state []
        { state.report .peer [peerReceived setup state.peerResult] with
          peer := .falling }
  | peerSleeps (stage : state.peer = .falling) :
      Move setup capacity state []
        { state with
          peer := .sleeping (state.now + setup.delayMs * 1000000) }
  | peerWakes
      (wakeAt : Nat)
      (stage : state.peer = .sleeping wakeAt) :
      Move setup capacity state [] { state with peer := .closing }
  | peerCloses (stage : state.peer = .closing) :
      Move setup capacity state []
        { state with peer := .closed, peerOpen := false }
  | peerReturns (stage : state.peer = .closed) :
      Move setup capacity state []
        { state.report .peer [peerClosed] with peer := .returned }

/-- The main thread's own steps are among them. -/
theorem move_of_mainStep?
    (taken : state.mainStep? setup = some next) :
    Move setup capacity state (state.written .main) next := by
  unfold State.mainStep? at taken
  unfold State.written
  cases stage : state.main with
  | pairing =>
      simp only [stage, Option.some.injEq] at taken ⊢
      exact taken ▸ .pairs stage
  | ignoring =>
      simp only [stage, Option.some.injEq] at taken ⊢
      exact taken ▸ .ignores stage
  | announcing =>
      simp only [stage, Option.some.injEq] at taken ⊢
      exact taken ▸ .announces stage
  | creating =>
      simp only [stage, Option.some.injEq] at taken ⊢
      exact taken ▸ .creates stage
  | announcingWrites =>
      simp only [stage, Option.some.injEq] at taken ⊢
      exact taken ▸ .announcesWrites stage
  | writing i done =>
      simp only [stage, Option.ite_none_right_eq_some,
        Option.some.injEq] at taken ⊢
      obtain ⟨finished, rfl⟩ := taken
      exact .returns i done stage finished
  | failed i errno =>
      simp only [stage, Option.some.injEq] at taken ⊢
      exact taken ▸ .notes i errno stage
  | joining =>
      simp only [stage, Option.ite_none_right_eq_some,
        Option.some.injEq] at taken ⊢
      obtain ⟨done, rfl⟩ := taken
      exact .joins stage done
  | closing =>
      simp only [stage, Option.some.injEq] at taken ⊢
      exact taken ▸ .closes stage
  | reporting =>
      simp only [stage, Option.some.injEq] at taken ⊢
      exact taken ▸ .reports stage
  | returned rc =>
      simp [stage] at taken

/-- The peer's own steps are among them. -/
theorem move_of_peerStep?
    (taken : state.peerStep? setup = some next) :
    Move setup capacity state [] next := by
  unfold State.peerStep? at taken
  cases stage : state.peer with
  | absent | reading | returned =>
      simp [stage] at taken
  | announcing =>
      simp only [stage, Option.some.injEq] at taken
      exact taken ▸ .peerAnnounces stage
  | falling =>
      simp only [stage, Option.some.injEq] at taken
      exact taken ▸ .peerSleeps stage
  | sleeping wakeAt =>
      simp only [stage, Option.ite_none_right_eq_some,
        Option.some.injEq] at taken
      obtain ⟨_, rfl⟩ := taken
      exact .peerWakes wakeAt stage
  | closing =>
      simp only [stage, Option.some.injEq] at taken
      exact taken ▸ .peerCloses stage
  | closed =>
      simp only [stage, Option.some.injEq] at taken
      exact taken ▸ .peerReturns stage

/-- What a signal does is among them. -/
theorem move_of_interrupted?
    {thread : Thread}
    (taken : state.interrupted? setup thread = some next) :
    Move setup capacity state (state.written (.interrupt thread)) next := by
  cases thread with
  | main =>
      simp only [State.interrupted?] at taken
      split at taken
      · rename_i i stage
        have shown : state.written (.interrupt .main) = [] := by
          simp [State.written, stage]
        rw [shown]
        exact Option.some.inj taken ▸ .fails i .eintr stage (Or.inl rfl)
      · rename_i i done some stage
        obtain ⟨less, rfl⟩ := Nat.exists_eq_succ_of_ne_zero some
        have shown :
            state.written (.interrupt .main) = [.cut (less + 1)] := by
          simp [State.written, stage]
        rw [shown]
        exact Option.some.inj taken ▸
          .cuts i (less + 1) stage (Nat.succ_pos less)
      · cases taken
  | peer =>
      simp only [State.interrupted?] at taken
      split at taken
      · rename_i stage
        exact Option.some.inj taken ▸ .receivesNothing stage
      · rename_i wakeAt stage
        exact Option.some.inj taken ▸ .peerWakes wakeAt stage
      · cases taken

/-- Every step is one of these, or time that passes. -/
theorem move_of_step?
    (taken : state.step? setup capacity label = some next) :
    Move setup capacity state (state.written label) next ∨
      ∃ ns, label = .tick ns ∧
        next = { state with now := state.now + ns } := by
  unfold State.step? at taken
  split at taken
  · cases taken
  cases label with
  | socketpairFails =>
      simp only [Option.ite_none_right_eq_some, Option.some.injEq] at taken
      obtain ⟨stage, rfl⟩ := taken
      exact Or.inl (.pairingFails stage)
  | createFails =>
      simp only [Option.ite_none_right_eq_some, Option.some.injEq] at taken
      obtain ⟨stage, rfl⟩ := taken
      exact Or.inl (.createFails stage)
  | main =>
      exact Or.inl (move_of_mainStep? taken)
  | accept count =>
      simp only at taken
      split at taken
      · rename_i i done stage
        simp only [Option.ite_none_right_eq_some,
          Option.some.injEq] at taken
        obtain ⟨⟨isOpen, positive, small, room⟩, rfl⟩ := taken
        exact Or.inl
          (.accepts i done count stage isOpen positive small room)
      · cases taken
  | broken errno =>
      simp only at taken
      split at taken
      · rename_i i stage
        split at taken
        · cases taken
        · rename_i gone
          split at taken
          · rename_i deadly
            simp only [Option.some.injEq] at taken
            exact Or.inl (taken ▸ .kills i stage deadly.2)
          · simp only [Option.some.injEq] at taken
            have closed : state.peerOpen = false :=
              Bool.eq_false_iff.mpr fun isOpen => gone (Or.inl isOpen)
            exact Or.inl (taken ▸ .fails i errno stage (Or.inr closed))
      · cases taken
  | peer =>
      exact Or.inl (move_of_peerStep? taken)
  | receive count =>
      simp only [Option.ite_none_right_eq_some, Option.some.injEq] at taken
      obtain ⟨⟨stage, positive, small, there⟩, rfl⟩ := taken
      exact Or.inl (.receives count stage positive small there)
  | interrupt thread =>
      exact Or.inl (move_of_interrupted? taken)
  | tick ns =>
      simp only [Option.some.injEq] at taken
      exact Or.inr ⟨ns, rfl, taken.symm⟩

end Moves

end FailurePlayground.ConnectionReset
