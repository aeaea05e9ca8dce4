import Mathlib.Data.Fintype.Basic
import FailurePlayground.Lib.Slots
import FailurePlayground.Lib.Transition

namespace FailurePlayground.RunHandle

/-!
# Run handles and what they lead to

`pg_run_start` makes a pipe and a child process and leaves the read end and the
pid in a handle; `pg_run_poll`, `pg_run_abort` and `pg_run_reap` use them
through it.  The system keeps a ledger of the descriptors that are open and one
of the children that have not been waited for.

Where `SIGCHLD` is ignored the system waits for the children itself: they
vanish when they end, and `waitpid` fails.
-/

open Ledger

/-- `pg_run_handle_t`. -/
structure PgRunHandle where
  childPid : Int
  eventFd : Int
  ctrlFd : Int
  seed : UInt64
  deriving Repr, DecidableEq

/-- The descriptor that a handle leads to. -/
def PgRunHandle.fd? (h : PgRunHandle) : Option Int :=
  if 0 ≤ h.eventFd then some h.eventFd else none

/-- The child that a handle leads to. -/
def PgRunHandle.pid? (h : PgRunHandle) : Option Int :=
  if 0 < h.childPid then some h.childPid else none

/-- A handle without a run. -/
def PgRunHandle.Idle (h : PgRunHandle) : Prop :=
  h.eventFd < 0 ∧ h.childPid ≤ 0

instance (h : PgRunHandle) : Decidable h.Idle :=
  inferInstanceAs (Decidable (_ ∧ _))

/-- How far `pg_run_start` gets, and what the system hands it. -/
inductive StartResult where
  | noArguments
  | pipeFails
  | forkFails (readEnd writeEnd : Int)
  | forked (readEnd writeEnd pid : Int)
  deriving Repr, DecidableEq

/--
How the `waitpid` of `pg_run_reap` ends: with the child's status; with a
failure because the child vanishes meanwhile, or because it had vanished.
-/
inductive Wait where
  | collects
  | loses
  | finds
  deriving Repr, DecidableEq

/-- What a call does, what it leaves in its handle, and what it returns. -/
structure Outcome where
  fds : List (Use Int)
  pids : List (Use Int)
  handle : PgRunHandle
  result : Int
  deriving Repr, DecidableEq

/-- The parent's side of `pg_run_start`. -/
def pgRunStart
    (out : PgRunHandle)
    (seed : UInt64) : StartResult → Outcome
  | .noArguments | .pipeFails =>
      { fds := [], pids := [], handle := out, result := -1 }
  | .forkFails readEnd writeEnd =>
      { fds :=
          acquire [readEnd, writeEnd] ++ release [readEnd, writeEnd]
        pids := []
        handle := out
        result := -1 }
  | .forked readEnd writeEnd pid =>
      { fds := acquire [readEnd, writeEnd] ++ release [writeEnd]
        pids := acquire [pid]
        handle := {
          childPid := pid
          eventFd := readEnd
          ctrlFd := -1
          seed := seed }
        result := 0 }

/--
`pg_run_poll`, as far as its handle goes: some system calls on the event pipe,
and none when there is no pipe.
-/
def pgRunPoll (h : PgRunHandle) (calls : Nat) (result : Int) : Outcome :=
  if h.eventFd < 0 then
    { fds := [], pids := [], handle := h, result := -1 }
  else
    { fds := touch (List.replicate calls h.eventFd)
      pids := []
      handle := h
      result := result }

/-- `pg_run_abort`; it returns nothing. -/
def pgRunAbort (h : PgRunHandle) : Outcome :=
  if h.childPid ≤ 0 then
    { fds := [], pids := [], handle := h, result := 0 }
  else
    { fds := []
      pids := touch [h.childPid]
      handle := h
      result := 0 }

/-- `if (h->event_fd >= 0) { close(h->event_fd); h->event_fd = -1; }`. -/
def closeEventFd (h : PgRunHandle) : List (Use Int) × PgRunHandle :=
  if h.eventFd ≥ 0 then
    (release [h.eventFd], { h with eventFd := -1 })
  else
    ([], h)

/-- `pg_run_reap`, whose `waitpid` is interrupted some times before it ends. -/
def pgRunReap
    (h : PgRunHandle)
    (interrupts : Nat)
    (wait : Wait) : Outcome :=
  let closed := closeEventFd h
  if h.childPid > 0 then
    let waits := touch (List.replicate interrupts h.childPid)
    match wait with
    | .collects =>
        { fds := closed.1
          pids := waits ++ release [h.childPid]
          handle := { closed.2 with childPid := -1 }
          result := 0 }
    | .loses =>
        { fds := []
          pids := waits ++ release [h.childPid]
          handle := h
          result := -1 }
    | .finds =>
        { fds := []
          pids := touch [h.childPid]
          handle := h
          result := -1 }
  else
    { fds := closed.1
      pids := []
      handle := { closed.2 with childPid := -1 }
      result := 0 }

/-- Some handles, and all uses of descriptors and of children so far. -/
structure State (n : Nat) where
  handles : Fin n → PgRunHandle
  fds : List (Use Int)
  pids : List (Use Int)

/-- A call on one of the handles, or a child that vanishes. -/
inductive Label (n : Nat) where
  | start (index : Fin n) (seed : UInt64) (result : StartResult)
  | poll (index : Fin n) (calls : Nat) (result : Int)
  | abort (index : Fin n)
  | reap (index : Fin n) (interrupts : Nat) (wait : Wait)
  | vanishes (pid : Int)
  deriving Repr, DecidableEq

/-- Only a parent that ignores `SIGCHLD` sees this. -/
def Label.Unattended {n : Nat} : Label n → Prop
  | .vanishes _ | .reap _ _ .loses => True
  | .start _ _ _ | .poll _ _ _ | .abort _ | .reap _ _ .collects
  | .reap _ _ .finds => False

namespace State

variable {n : Nat}

/-- The descriptors that are open. -/
def openFds (state : State n) : Finset Int :=
  after ∅ state.fds

/-- The children that have not been waited for. -/
def children (state : State n) : Finset Int :=
  after ∅ state.pids

/-- What the system hands to `pg_run_start` is not in use. -/
def Fresh (state : State n) : StartResult → Prop
  | .noArguments | .pipeFails => True
  | .forkFails readEnd writeEnd =>
      readEnd ≠ writeEnd ∧ 0 ≤ readEnd ∧
        readEnd ∉ state.openFds ∧ writeEnd ∉ state.openFds
  | .forked readEnd writeEnd pid =>
      (readEnd ≠ writeEnd ∧ 0 ≤ readEnd ∧
        readEnd ∉ state.openFds ∧ writeEnd ∉ state.openFds) ∧
      0 < pid ∧ pid ∉ state.children

instance (state : State n) : (result : StartResult) →
    Decidable (state.Fresh result)
  | .noArguments | .pipeFails => inferInstanceAs (Decidable True)
  | .forkFails _ _ => inferInstanceAs (Decidable (_ ∧ _))
  | .forked _ _ _ => inferInstanceAs (Decidable (_ ∧ _))

/-- The child that a handle leads to is there, if there is one. -/
def Attended (state : State n) (index : Fin n) : Prop :=
  ∀ pid, (state.handles index).pid? = some pid → pid ∈ state.children

instance (state : State n) (index : Fin n) :
    Decidable (state.Attended index) :=
  match held : (state.handles index).pid? with
  | none => .isTrue fun pid leads => by
      rw [held] at leads
      cases leads
  | some pid =>
      if there : pid ∈ state.children then
        .isTrue fun other leads => by
          rw [held] at leads
          exact Option.some.inj leads ▸ there
      else
        .isFalse fun attended => there (attended pid held)

/-- The system allows a call to end like this. -/
def Supplies (state : State n) : Label n → Prop
  | .start _ _ result => state.Fresh result
  | .poll _ _ _ | .abort _ => True
  | .reap index _ .finds =>
      (state.handles index).pid? = none ∨ ¬ state.Attended index
  | .reap index _ .collects | .reap index _ .loses =>
      state.Attended index
  | .vanishes pid => pid ∈ state.children

instance (state : State n) : (label : Label n) →
    Decidable (state.Supplies label)
  | .start _ _ result => inferInstanceAs (Decidable (state.Fresh result))
  | .poll _ _ _ | .abort _ => inferInstanceAs (Decidable True)
  | .reap _ _ .finds => inferInstanceAs (Decidable (_ ∨ ¬ _))
  | .reap index _ .collects | .reap index _ .loses =>
      inferInstanceAs (Decidable (state.Attended index))
  | .vanishes pid => inferInstanceAs (Decidable (pid ∈ state.children))

/-- The state after a call on a handle. -/
def act
    (state : State n)
    (index : Fin n)
    (outcome : Outcome) : State n where
  handles := Function.update state.handles index outcome.handle
  fds := state.fds ++ outcome.fds
  pids := state.pids ++ outcome.pids

/-- The state after a step. -/
def settle (state : State n) : Label n → State n
  | .start index seed result =>
      state.act index (pgRunStart (state.handles index) seed result)
  | .poll index calls result =>
      state.act index (pgRunPoll (state.handles index) calls result)
  | .abort index =>
      state.act index (pgRunAbort (state.handles index))
  | .reap index interrupts wait =>
      state.act index
        (pgRunReap (state.handles index) interrupts wait)
  | .vanishes pid =>
      { state with pids := state.pids ++ release [pid] }

/-- Execute one step. -/
def step? (state : State n) (label : Label n) : Option (State n) :=
  if state.Supplies label then some (state.settle label) else none

/-- Execute some steps. -/
abbrev run? : State n → List (Label n) → Option (State n) :=
  Transition.run? step?

/-- Handles without runs. -/
def start (handles : Fin n → PgRunHandle) : State n where
  handles := handles
  fds := []
  pids := []

/-- A run is started in a handle that has none. -/
def Careful (state : State n) : Label n → Prop
  | .start index _ (.forked _ _ _) => (state.handles index).Idle
  | .start _ _ .noArguments | .start _ _ .pipeFails
  | .start _ _ (.forkFails _ _)
  | .poll _ _ _ | .abort _ | .reap _ _ _ | .vanishes _ => True

/-- A child is signalled and waited for while it is there. -/
def Timely (state : State n) : Label n → Prop
  | .abort index | .reap index _ _ => state.Attended index
  | .start _ _ _ | .poll _ _ _ | .vanishes _ => True

/-- The descriptors that the handles lead to. -/
def fdSlots (state : State n) (index : Fin n) : Option Int :=
  (state.handles index).fd?

/-- The children that they lead to. -/
def pidSlots (state : State n) (index : Fin n) : Option Int :=
  (state.handles index).pid?

end State

section Calls

variable
  {n : Nat}
  {state next : State n}
  {label : Label n}
  {index : Fin n}
  {h : PgRunHandle}

theorem fd?_of_nonneg (hasPipe : 0 ≤ h.eventFd) :
    h.fd? = some h.eventFd :=
  if_pos hasPipe

theorem pid?_of_pos (hasChild : 0 < h.childPid) :
    h.pid? = some h.childPid :=
  if_pos hasChild

/-- A handle leads nowhere exactly when it has no run. -/
theorem idle_iff :
    h.Idle ↔ h.fd? = none ∧ h.pid? = none := by
  simp [PgRunHandle.Idle, PgRunHandle.fd?, PgRunHandle.pid?]

/-- What an enabled step did. -/
theorem step?_eq_some
    (taken : state.step? label = some next) :
    state.Supplies label ∧ next = state.settle label := by
  unfold State.step? at taken
  split at taken
  · rename_i supplies
    exact ⟨supplies, (Option.some.inj taken).symm⟩
  · exact absurd taken (by simp)

/-- The handle a call is on, after it, leads where its outcome says. -/
theorem fdSlots_act (state : State n) (index : Fin n) (outcome : Outcome) :
    (state.act index outcome).fdSlots =
      Function.update state.fdSlots index outcome.handle.fd? := by
  funext other
  by_cases same : other = index
  · subst same
    simp [State.fdSlots, State.act]
  · simp [State.fdSlots, State.act, Function.update_of_ne same]

/-- So it does for the child. -/
theorem pidSlots_act (state : State n) (index : Fin n) (outcome : Outcome) :
    (state.act index outcome).pidSlots =
      Function.update state.pidSlots index outcome.handle.pid? := by
  funext other
  by_cases same : other = index
  · subst same
    simp [State.pidSlots, State.act]
  · simp [State.pidSlots, State.act, Function.update_of_ne same]

/-- `closeEventFd` leaves no descriptor. -/
theorem fd?_closeEventFd (childPid : Int) :
    PgRunHandle.fd? { (closeEventFd h).2 with childPid := childPid } =
      none := by
  unfold closeEventFd
  split
  · exact if_neg (by simp)
  · rename_i noPipe
    exact if_neg noPipe

/-- A handle without a child leads to none. -/
theorem pid?_without :
    PgRunHandle.pid? { h with childPid := -1 } = none :=
  if_neg (by simp)

/-- Closing the event pipe gives up the descriptor, if there is one. -/
theorem operation_close
    {held : Finset Int}
    (named : ∀ fd, h.fd? = some fd → fd ∈ held) :
    Slots.Operation held h.fd? none (closeEventFd h).1 := by
  unfold closeEventFd
  split
  · rename_i hasPipe
    have leads := fd?_of_nonneg hasPipe
    exact Slots.operation_release leads (named _ leads) 0
  · rename_i noPipe
    rw [show h.fd? = none from if_neg noPipe]
    exact .keeps trivial rfl

/-- What a call does to the two ledgers, and what the rules say about it. -/
structure Call
    (state : State n)
    (label : Label n)
    (index : Fin n)
    (outcome : Outcome) : Prop where
  settles : state.settle label = state.act index outcome
  fds :
    Slots.Operation state.openFds (state.fdSlots index)
      outcome.handle.fd? outcome.fds
  paired : outcome.handle.fd? = none ↔ outcome.handle.pid? = none
  careful :
    ¬ Slots.Overwrites (state.fdSlots index) outcome.handle.fd? ↔
      state.Careful label
  pids :
    state.Attended index → ¬ label.Unattended →
      Slots.Operation state.children (state.pidSlots index)
          outcome.handle.pid? outcome.pids ∧
        (¬ Slots.Overwrites (state.pidSlots index) outcome.handle.pid? ↔
          state.Careful label)
  timely : Allowed state.children outcome.pids ↔ state.Timely label

/-- What holds in every state: descriptors are owned, and never alone. -/
structure Sound (state : State n) : Prop where
  fds : Slots.Owned state.fdSlots state.fds
  paired : ∀ index,
    state.fdSlots index = none ↔ state.pidSlots index = none

/-- A slot that stays as it is, or is emptied, is not filled again. -/
theorem not_overwrites
    {before later : Option Int}
    (less : later = before ∨ later = none) :
    ¬ Slots.Overwrites before later := by
  rintro ⟨_, full, different⟩
  exact less.elim different full

/-- A slot is filled again exactly when it was full. -/
theorem not_overwrites_fresh_iff
    {held : Finset Int}
    {before : Option Int}
    {new : Int}
    (named : ∀ resource, before = some resource → resource ∈ held)
    (fresh : new ∉ held) :
    ¬ Slots.Overwrites before (some new) ↔ before = none := by
  constructor
  · intro keeps
    by_contra full
    exact keeps
      ⟨full, by simp, fun same => fresh (named new same.symm)⟩
  · rintro rfl
    exact fun overwrites => overwrites.1 rfl

/-- A failing `pg_run_start` takes back what it made; another one keeps it. -/
theorem call_start
    (sound : Sound state)
    (seed : UInt64)
    {result : StartResult}
    (fresh : state.Fresh result) :
    Call state (.start index seed result) index
      (pgRunStart (state.handles index) seed result) := by
  have named := sound.fds.named index
  cases result with
  | noArguments | pipeFails =>
      have stays := not_overwrites
        (@Or.inl _ (state.fdSlots index = none) rfl)
      exact {
        settles := rfl
        fds := .keeps trivial rfl
        paired := sound.paired index
        careful := iff_of_true stays trivial
        pids := fun _ _ => ⟨.keeps trivial rfl,
          iff_of_true (not_overwrites (Or.inl rfl)) trivial⟩
        timely := iff_of_true trivial trivial }
  | forkFails readEnd writeEnd =>
      obtain ⟨different, _, unused, unusedToo⟩ := fresh
      have apart : ∀ fd ∈ [readEnd, writeEnd], fd ∉ state.openFds := by
        simp [unused, unusedToo]
      exact {
        settles := rfl
        fds := .keeps
          (allowed_acquire_release (by simp [different]) apart)
          (after_acquire_release apart)
        paired := sound.paired index
        careful := iff_of_true (not_overwrites (Or.inl rfl)) trivial
        pids := fun _ _ => ⟨.keeps trivial rfl,
          iff_of_true (not_overwrites (Or.inl rfl)) trivial⟩
        timely := iff_of_true trivial trivial }
  | forked readEnd writeEnd pid =>
      obtain ⟨⟨different, readable, unused, unusedToo⟩, positive, unborn⟩ :=
        fresh
      have leads : PgRunHandle.fd? {
          childPid := pid
          eventFd := readEnd
          ctrlFd := -1
          seed := seed } = some readEnd :=
        if_pos readable
      have leadsToo : PgRunHandle.pid? {
          childPid := pid
          eventFd := readEnd
          ctrlFd := -1
          seed := seed } = some pid :=
        if_pos positive
      have idle : (state.handles index).Idle ↔
          state.fdSlots index = none := by
        rw [idle_iff]
        exact and_iff_left_of_imp (sound.paired index).mp
      refine {
        settles := rfl
        fds := ?_
        paired := by simp only [pgRunStart, leads, leadsToo, reduceCtorEq]
        careful := ?_
        pids := fun attended _ => ⟨?_, ?_⟩
        timely := ?_ }
      · simp only [pgRunStart, leads]
        refine .takes unused ?_ fun fd => ?_
        · simp [different, unused, unusedToo]
        · simp only [after_append, mem_after_release, mem_after_acquire,
            List.mem_cons, List.not_mem_nil, or_false]
          constructor
          · rintro ⟨before | same | same, other⟩
            · exact Or.inl before
            · exact Or.inr same
            · exact absurd same other
          · rintro (before | rfl)
            · exact ⟨Or.inl before, fun same => unusedToo (same ▸ before)⟩
            · exact ⟨Or.inr (Or.inl rfl), different⟩
      · simp only [pgRunStart, leads]
        rw [not_overwrites_fresh_iff named unused]
        exact idle.symm
      · simp only [pgRunStart, leadsToo]
        refine .takes unborn ?_ fun other => ?_
        · simp [unborn]
        · simp
      · simp only [pgRunStart, leadsToo]
        have held : ∀ resource,
            state.pidSlots index = some resource →
              resource ∈ state.children := attended
        rw [not_overwrites_fresh_iff held unborn, ← sound.paired index]
        exact idle.symm
      · exact iff_of_true (by simp [pgRunStart, unborn]) trivial

/-- `pg_run_poll` uses the descriptor. -/
theorem call_poll
    (sound : Sound state)
    (calls : Nat)
    (result : Int) :
    Call state (.poll index calls result) index
      (pgRunPoll (state.handles index) calls result) := by
  have stays : (pgRunPoll (state.handles index) calls result).handle =
      state.handles index := by
    unfold pgRunPoll
    split <;> rfl
  have idles : (pgRunPoll (state.handles index) calls result).pids = [] := by
    unfold pgRunPoll
    split <;> rfl
  refine {
    settles := rfl
    fds := ?_
    paired := by
      rw [stays]
      exact sound.paired index
    careful := iff_of_true (not_overwrites (Or.inl (by rw [stays]; rfl)))
      trivial
    pids := fun _ _ => ?_
    timely := by
      rw [idles]
      exact iff_of_true trivial trivial }
  · rw [stays]
    unfold pgRunPoll
    split
    · exact .keeps trivial rfl
    · rename_i hasPipe
      exact Slots.operation_touch
        (sound.fds.named index _ (fd?_of_nonneg (Int.not_lt.mp hasPipe)))
        calls
  · rw [stays, idles]
    exact ⟨.keeps trivial rfl,
      iff_of_true (not_overwrites (Or.inl rfl)) trivial⟩

/-- `pg_run_abort` signals the child. -/
theorem call_abort
    (sound : Sound state) :
    Call state (.abort index) index
      (pgRunAbort (state.handles index)) := by
  have stays : (pgRunAbort (state.handles index)).handle =
      state.handles index := by
    unfold pgRunAbort
    split <;> rfl
  have idles : (pgRunAbort (state.handles index)).fds = [] := by
    unfold pgRunAbort
    split <;> rfl
  have signals : Allowed state.children
      (pgRunAbort (state.handles index)).pids ↔ state.Attended index := by
    unfold pgRunAbort State.Attended
    split
    · rename_i noChild
      have none : (state.handles index).pid? = none :=
        if_neg (Int.not_lt.mpr noChild)
      exact iff_of_true trivial fun pid leads => by
        rw [none] at leads
        cases leads
    · rename_i hasChild
      rw [pid?_of_pos (Int.not_le.mp hasChild), allowed_touch]
      simp
  refine {
    settles := rfl
    fds := ?_
    paired := by
      rw [stays]
      exact sound.paired index
    careful := iff_of_true (not_overwrites (Or.inl (by rw [stays]; rfl)))
      trivial
    pids := fun attended _ => ?_
    timely := signals }
  · rw [stays, idles]
    exact .keeps trivial rfl
  · rw [stays]
    refine ⟨.keeps (signals.mpr attended) ?_,
      iff_of_true (not_overwrites (Or.inl rfl)) trivial⟩
    unfold pgRunAbort
    split
    · rfl
    · exact after_touch

/-- `pg_run_reap` gives up child and descriptor, or fails with both. -/
theorem call_reap
    (sound : Sound state)
    (interrupts : Nat)
    {wait : Wait}
    (supplies : state.Supplies (.reap index interrupts wait)) :
    Call state (.reap index interrupts wait) index
      (pgRunReap (state.handles index) interrupts wait) := by
  have closes := operation_close (sound.fds.named index)
  have gone : PgRunHandle.fd?
      { (closeEventFd (state.handles index)).2 with childPid := -1 } =
        none :=
    fd?_closeEventFd (-1)
  by_cases hasChild : 0 < (state.handles index).childPid
  swap
  · have none : state.pidSlots index = none := if_neg hasChild
    have outcome : pgRunReap (state.handles index) interrupts wait =
        { fds := (closeEventFd (state.handles index)).1
          pids := []
          handle := {
            (closeEventFd (state.handles index)).2 with childPid := -1 }
          result := 0 } :=
      if_neg hasChild
    have attended : state.Attended index := fun pid leads => by
      rw [show (state.handles index).pid? = _ from none] at leads
      cases leads
    rw [outcome]
    exact {
      settles := congrArg (state.act index) outcome
      fds := gone ▸ closes
      paired := iff_of_true gone pid?_without
      careful := iff_of_true (not_overwrites (Or.inr gone)) trivial
      pids := fun _ _ => ⟨by
        rw [none, pid?_without]
        exact .keeps trivial rfl,
        iff_of_true (not_overwrites (Or.inr pid?_without)) trivial⟩
      timely := iff_of_true trivial attended }
  have leads := pid?_of_pos hasChild
  cases wait with
  | collects =>
      have there := supplies _ leads
      have outcome : pgRunReap (state.handles index) interrupts .collects =
          { fds := (closeEventFd (state.handles index)).1
            pids :=
              touch (List.replicate interrupts
                  (state.handles index).childPid) ++
                release [(state.handles index).childPid]
            handle := {
              (closeEventFd (state.handles index)).2 with childPid := -1 }
            result := 0 } :=
        if_pos hasChild
      have collects := Slots.operation_release leads there interrupts
      rw [outcome]
      exact {
        settles := congrArg (state.act index) outcome
        fds := gone ▸ closes
        paired := iff_of_true gone pid?_without
        careful := iff_of_true (not_overwrites (Or.inr gone)) trivial
        pids := fun _ _ => ⟨by
          rw [pid?_without]
          exact collects,
          iff_of_true (not_overwrites (Or.inr pid?_without)) trivial⟩
        timely := iff_of_true (by simp [there]) supplies }
  | loses =>
      have there := supplies _ leads
      have outcome : pgRunReap (state.handles index) interrupts .loses =
          { fds := []
            pids :=
              touch (List.replicate interrupts
                  (state.handles index).childPid) ++
                release [(state.handles index).childPid]
            handle := state.handles index
            result := -1 } :=
        if_pos hasChild
      rw [outcome]
      exact {
        settles := congrArg (state.act index) outcome
        fds := .keeps trivial rfl
        paired := sound.paired index
        careful := iff_of_true (not_overwrites (Or.inl rfl)) trivial
        pids := fun _ attended => absurd trivial attended
        timely := iff_of_true (by simp [there]) supplies }
  | finds =>
      have outcome : pgRunReap (state.handles index) interrupts .finds =
          { fds := []
            pids := touch [(state.handles index).childPid]
            handle := state.handles index
            result := -1 } :=
        if_pos hasChild
      have vanished : ¬ state.Attended index :=
        supplies.resolve_left (by simp [leads])
      have stale : (state.handles index).childPid ∉ state.children :=
        fun there => vanished fun pid leadsTo => by
          rw [leads] at leadsTo
          exact Option.some.inj leadsTo ▸ there
      rw [outcome]
      exact {
        settles := congrArg (state.act index) outcome
        fds := .keeps trivial rfl
        paired := sound.paired index
        careful := iff_of_true (not_overwrites (Or.inl rfl)) trivial
        pids := fun attended _ => absurd attended vanished
        timely := iff_of_false (by simp [stale]) vanished }

/-- Every step is a call, or a child that vanishes. -/
theorem call_of_step
    (sound : Sound state)
    (taken : state.step? label = some next) :
    (∃ index outcome, Call state label index outcome) ∨
      ∃ pid, label = .vanishes pid ∧ pid ∈ state.children := by
  obtain ⟨supplies, _⟩ := step?_eq_some taken
  cases label with
  | start index seed result =>
      exact Or.inl ⟨index, _, call_start sound seed supplies⟩
  | poll index calls result =>
      exact Or.inl ⟨index, _, call_poll sound calls result⟩
  | abort index =>
      exact Or.inl ⟨index, _, call_abort sound⟩
  | reap index interrupts wait =>
      exact Or.inl ⟨index, _, call_reap sound interrupts supplies⟩
  | vanishes pid =>
      exact Or.inr ⟨pid, rfl, supplies⟩

end Calls

section Runs

variable
  {n : Nat}
  {state next final : State n}
  {label : Label n}
  {labels : List (Label n)}

/-- Every step keeps the descriptors owned and the slots paired. -/
theorem Sound.step
    (sound : Sound state)
    (taken : state.step? label = some next) :
    Sound next := by
  obtain ⟨_, rfl⟩ := step?_eq_some taken
  rcases call_of_step sound taken with
    ⟨index, outcome, call⟩ | ⟨pid, rfl, _⟩
  · rw [call.settles]
    refine ⟨?_, fun other => ?_⟩
    · rw [fdSlots_act]
      exact sound.fds.update call.fds
    · rw [fdSlots_act, pidSlots_act]
      by_cases same : other = index
      · subst same
        simpa using call.paired
      · simpa [Function.update_of_ne same] using sound.paired other
  · exact ⟨sound.fds, sound.paired⟩

/-- A step loses a descriptor exactly when it is careless. -/
theorem reachable_step_iff
    (sound : Sound state)
    (taken : state.step? label = some next) :
    Slots.Reachable next.fdSlots next.fds ↔
      Slots.Reachable state.fdSlots state.fds ∧ state.Careful label := by
  obtain ⟨_, rfl⟩ := step?_eq_some taken
  rcases call_of_step sound taken with
    ⟨index, outcome, call⟩ | ⟨pid, rfl, _⟩
  · rw [call.settles, fdSlots_act, ← call.careful]
    exact Slots.reachable_update_iff sound.fds call.fds
  · exact (and_iff_left trivial).symm

/-- A step uses a child that is not there exactly when it comes too late. -/
theorem allowed_step_iff
    (sound : Sound state)
    (taken : state.step? label = some next) :
    Allowed ∅ next.pids ↔
      Allowed ∅ state.pids ∧ state.Timely label := by
  obtain ⟨_, rfl⟩ := step?_eq_some taken
  rcases call_of_step sound taken with
    ⟨index, outcome, call⟩ | ⟨pid, rfl, there⟩
  · rw [call.settles, ← call.timely]
    exact allowed_append
  · refine allowed_append.trans (and_congr_right fun _ => ?_)
    have permitted : Allowed state.children (release [pid]) := by
      rw [allowed_release]
      exact ⟨List.nodup_singleton pid, by simpa using there⟩
    exact iff_of_true permitted trivial

/-- Where no child vanishes the handles own theirs. -/
structure Attending (state : State n) : Prop where
  sound : Sound state
  pids : Slots.Owned state.pidSlots state.pids

/-- A step that no child vanishes in keeps them. -/
theorem Attending.step
    (attending : Attending state)
    (attended : ¬ label.Unattended)
    (taken : state.step? label = some next) :
    Attending next := by
  refine ⟨attending.sound.step taken, ?_⟩
  obtain ⟨_, rfl⟩ := step?_eq_some taken
  rcases call_of_step attending.sound taken with
    ⟨index, outcome, call⟩ | ⟨pid, rfl, _⟩
  · have there : state.Attended index := attending.pids.named index
    rw [call.settles, pidSlots_act]
    exact attending.pids.update (call.pids there attended).1
  · exact absurd trivial attended

/-- And loses a child exactly when it is careless. -/
theorem reachable_pid_step_iff
    (attending : Attending state)
    (attended : ¬ label.Unattended)
    (taken : state.step? label = some next) :
    Slots.Reachable next.pidSlots next.pids ↔
      Slots.Reachable state.pidSlots state.pids ∧ state.Careful label := by
  obtain ⟨_, rfl⟩ := step?_eq_some taken
  rcases call_of_step attending.sound taken with
    ⟨index, outcome, call⟩ | ⟨pid, rfl, _⟩
  · have there : state.Attended index := attending.pids.named index
    obtain ⟨operation, careful⟩ := call.pids there attended
    rw [call.settles, pidSlots_act, ← careful]
    exact Slots.reachable_update_iff attending.pids operation
  · exact absurd trivial attended

/-- Handles without runs, to begin with. -/
theorem attending_start
    {handles : Fin n → PgRunHandle}
    (idle : ∀ index, (handles index).Idle) :
    Attending (State.start handles) where
  sound := {
    fds := Slots.owned_empty fun index => (idle_iff.mp (idle index)).1
    paired := fun index =>
      iff_of_true (idle_iff.mp (idle index)).1
        (idle_iff.mp (idle index)).2 }
  pids := Slots.owned_empty fun index => (idle_iff.mp (idle index)).2

/-- Whatever happens to the children, the descriptors are accounted for. -/
structure FdsAccounted
    (handles : Fin n → PgRunHandle)
    (labels : List (Label n))
    (final : State n) : Prop where
  /-- The handles own the descriptors. -/
  owned : Slots.Accounted final.fdSlots final.fds
  /-- One is lost exactly when a handle that has a run is given another. -/
  reachable_iff :
    Slots.Reachable final.fdSlots final.fds ↔
      Transition.EachStep State.step? State.Careful
        (State.start handles) labels
  /-- Children are used rightly exactly when no call comes too late. -/
  allowed_iff :
    Allowed ∅ final.pids ↔
      Transition.EachStep State.step? State.Timely
        (State.start handles) labels

/-- Where the parent waits for its children they are accounted for as well. -/
structure PidsAccounted
    (handles : Fin n → PgRunHandle)
    (labels : List (Label n))
    (final : State n) : Prop where
  /-- The handles own the children. -/
  owned : Slots.Accounted final.pidSlots final.pids
  /-- One is lost exactly when a handle that has a run is given another. -/
  reachable_iff :
    Slots.Reachable final.pidSlots final.pids ↔
      Transition.EachStep State.step? State.Careful
        (State.start handles) labels

/-- A handle as `{ .event_fd = -1, .child_pid = -1 }`. -/
def idleHandle : PgRunHandle :=
  { childPid := -1, eventFd := -1, ctrlFd := -1, seed := 0 }

/--
Two handles, and a child each; one of them is aborted, and the wait for it is
interrupted.
-/
def twoRuns : List (Label 2) :=
  let first : Fin 2 := ⟨0, Nat.zero_lt_two⟩
  let second : Fin 2 := ⟨1, Nat.one_lt_two⟩
  [.start first 1 (.forked 3 4 100),
    .start second 1 (.forkFails 4 5),
    .start second 1 (.forked 4 5 101),
    .poll first 2 1,
    .abort second,
    .reap second 1 .collects,
    .reap first 0 .collects]

end Runs

end FailurePlayground.RunHandle
