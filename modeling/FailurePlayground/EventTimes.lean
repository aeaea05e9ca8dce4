import FailurePlayground.EmitHelpers
import FailurePlayground.FatalEvents
import FailurePlayground.Lib.Interleaving

namespace FailurePlayground.EventTimes

/-!
# Timestamps and tags of the events of a thread

Two paths stamp a record: `pg_emit`, which reads the clock and the tag of its
thread, and `child_fault_handler`, which fills in its record by hand.  A thread
reads the clock and writes in two steps; between them the others move, and a
signal may arrive.
-/

open ChildProcess (Signal crashEvent doneEvent watchdogEvent)
open Interleaving (ofOwner)

/-- What the calls in one `chaos_thread_spawn` return. -/
structure SpawnCalls where
  fnGiven : Bool
  structAllocated : Bool
  argAllocated : Bool
  created : Bool
  deriving Repr, DecidableEq

/--
`chaos_thread_spawn`: the next tag to give, and the one the new thread was
given, if there is a new thread.
-/
def chaosThreadSpawn
    (gNextThreadTag : UInt32)
    (calls : SpawnCalls) : UInt32 × Option UInt32 :=
  if ¬ calls.fnGiven then
    (gNextThreadTag, none)
  else if ¬ calls.structAllocated then
    (gNextThreadTag, none)
  else
    -- `pg_alloc_thread_tag`; a tag is not taken back.
    let tagId := gNextThreadTag
    let next := gNextThreadTag + 1
    if ¬ calls.argAllocated then
      (next, none)
    else if ¬ calls.created then
      (next, none)
    else
      (next, some tagId)

/--
Where a thread stands: before the assignment of `thread_wrap`, in its own code,
between the clock and the pipe in `pg_emit`, in a crash handler since some
time, or past the handler's write.
-/
inductive Stage where
  | wrapping
  | running
  | emitting (event : PgEvent) (readNs : UInt64)
  | inHandler (signal : Signal) (enteredNs : UInt64)
  | raised
  deriving DecidableEq

/-- A thread: the tag it was given, its `g_thread_tag`, and its stage. -/
structure Thread where
  tagId : UInt32
  gThreadTag : UInt32
  stage : Stage
  deriving DecidableEq

/-- What a thread does next; `taken` says that the pipe takes its record. -/
inductive Action where
  | wrap
  | emit (event : PgEvent)
  | write (taken : Bool)
  | fault (signal : Signal)
  | raise
  deriving DecidableEq

/-- A record that entered the pipe, and when it was begun and written. -/
structure Emitted where
  record : PgEvent
  tagId : UInt32
  beganNs : UInt64
  endedNs : UInt64
  deriving DecidableEq

namespace Thread

/-- The record a thread is about to write, and when it began it. -/
def writing (ctx : PgRunctx) (thread : Thread) :
    Option (PgEvent × UInt64) :=
  match thread.stage with
  | .emitting event readNs =>
      some (pgEmitCopy ctx thread.gThreadTag readNs event, readNs)
  | .inHandler signal enteredNs =>
      some (crashEvent signal, enteredNs)
  | .wrapping | .running | .raised =>
      none

/-- The thread after its action; events are built with `ts_ns = 0`. -/
def after
    (ctx : PgRunctx)
    (nowNs : UInt64)
    (thread : Thread) : Action → Option Thread
  | .wrap =>
      match thread.stage with
      | .wrapping =>
          some { thread with
            gThreadTag := thread.tagId
            stage := .running }
      | _ => none
  | .emit event =>
      match thread.stage with
      | .running =>
          if event.tsNs = 0 then
            if ctx.eventFdW < 0 then
              some thread
            else
              some { thread with stage := .emitting event nowNs }
          else
            none
      | _ => none
  | .write _ =>
      match thread.stage with
      | .emitting _ _ => some { thread with stage := .running }
      | .inHandler _ _ => some { thread with stage := .raised }
      | _ => none
  | .fault signal =>
      some { thread with stage := .inHandler signal nowNs }
  | .raise =>
      match thread.stage with
      | .raised => some thread
      | _ => none

end Thread

/--
The child: its threads, the tag it gives next, the handlers not yet reset, the
monotonic clock, and the records that entered the pipe, with their threads, in
the order in which the parent reads them.
-/
structure State where
  ctx : PgRunctx
  gNextThreadTag : UInt32
  threads : List Thread
  armed : Signal → Bool
  nowNs : UInt64
  alive : Bool
  stream : List (Nat × Emitted)

/--
A thread acts, or starts another through `chaos_thread_spawn` or plain
`pthread_create`; the clock moves; the child is killed from outside.
-/
inductive Label where
  | act (index : Nat) (action : Action)
  | spawn (parent : Nat) (calls : SpawnCalls)
  | create (parent : Nat)
  | tick (nowNs : UInt64)
  | killed
  deriving DecidableEq

namespace State

/-- Replace one thread. -/
def setThread (state : State) (index : Nat) (thread : Thread) : State :=
  { state with threads := state.threads.set index thread }

/-- The record of a thread enters the pipe. -/
def append (state : State) (index : Nat) (thread : Thread) : State :=
  match thread.writing state.ctx with
  | some (record, beganNs) =>
      { state with
        stream :=
          state.stream ++
            [(index,
              { record := record
                tagId := thread.tagId
                beganNs := beganNs
                endedNs := state.nowNs })] }
  | none =>
      state

/-- A thread has become another one by its action. -/
def settle
    (state : State)
    (index : Nat)
    (thread moved : Thread) : Action → State
  | .wrap | .emit _ =>
      state.setThread index moved
  | .write taken =>
      if taken then
        (state.append index thread).setThread index moved
      else
        state.setThread index moved
  | .fault signal =>
      if state.armed signal then
        { state.setThread index moved with
          armed := Function.update state.armed signal false }
      else
        { state with alive := false }
  | .raise =>
      { state with alive := false }

/-- The thread is in its own code. -/
def isRunning (state : State) (index : Nat) : Bool :=
  (state.threads[index]?.map Thread.stage) == some .running

/-- Execute one enabled label; a dead child takes no steps. -/
def step? (state : State) (label : Label) : Option State :=
  if state.alive then
    match label with
    | .act index action =>
        match state.threads[index]? with
        | none => none
        | some thread =>
            (thread.after state.ctx state.nowNs action).map fun moved =>
              state.settle index thread moved action
    | .spawn parent calls =>
        if state.isRunning parent then
          let (next, given) :=
            chaosThreadSpawn state.gNextThreadTag calls
          some { state with
            gNextThreadTag := next
            threads :=
              state.threads ++
                given.toList.map fun tagId =>
                  { tagId := tagId
                    gThreadTag := 0
                    stage := .wrapping } }
        else
          none
    | .create parent =>
        if state.isRunning parent then
          some { state with
            threads :=
              state.threads ++
                [{ tagId := 0, gThreadTag := 0, stage := .running }] }
        else
          none
    | .tick nowNs =>
        if state.nowNs ≤ nowNs then
          some { state with nowNs := nowNs }
        else
          none
    | .killed =>
        some { state with alive := false }
  else
    none

/-- Execute a finite interleaving. -/
abbrev run? : State → List Label → Option State :=
  Transition.run? step?

/-- A child whose main thread has read `start_ns`. -/
def start (fd : Nat) (startNs : UInt64) : State where
  ctx := { eventFdW := fd, threadTag := 0, startNs := startNs }
  gNextThreadTag := 1
  threads := [{ tagId := 0, gThreadTag := 0, stage := .running }]
  armed := fun _ => true
  nowNs := startNs
  alive := true
  stream := []

/-- What the parent may rely on about the records it reads. -/
structure Sound (state : State) : Prop where
  /-- The timestamps of a thread never go back. -/
  ordered :
    ∀ index,
      (ofOwner index state.stream).Pairwise fun earlier later =>
        earlier.record.tsNs ≤ later.record.tsNs
  /-- Each is a time since the start at which its event was emitted. -/
  measured :
    ∀ entry ∈ state.stream,
      ∃ readNs,
        entry.2.beganNs ≤ readNs ∧ readNs ≤ entry.2.endedNs ∧
          entry.2.record.tsNs = readNs - state.ctx.startNs
  /-- Each record has the tag of its thread. -/
  tagged :
    ∀ entry ∈ state.stream, entry.2.record.threadTag = entry.2.tagId

end State

/--
The record a thread is about to write is right: an event with no tag of another
thread, or a handler's record of a thread without a tag, entered at the start.
-/
def Thread.Timely (startNs : UInt64) (thread : Thread) : Prop :=
  match thread.stage with
  | .emitting event _ =>
      event.threadTag = 0 ∨ event.threadTag = thread.tagId
  | .inHandler _ enteredNs =>
      thread.tagId = 0 ∧ enteredNs = startNs
  | .wrapping | .running | .raised =>
      True

instance (startNs : UInt64) : (thread : Thread) →
    Decidable (thread.Timely startNs)
  | ⟨_, _, .emitting _ _⟩ => inferInstanceAs (Decidable (_ ∨ _))
  | ⟨_, _, .inHandler _ _⟩ => inferInstanceAs (Decidable (_ ∧ _))
  | ⟨_, _, .wrapping⟩ | ⟨_, _, .running⟩ | ⟨_, _, .raised⟩ =>
      inferInstanceAs (Decidable True)

/-- A record that enters the pipe is right. -/
def State.Careful (state : State) : Label → Prop
  | .act index (.write true) =>
      ∀ thread ∈ state.threads[index]?, thread.Timely state.ctx.startNs
  | _ => True

instance (state : State) : (label : Label) →
    Decidable (state.Careful label)
  | .act index (.write true) =>
      inferInstanceAs
        (Decidable
          (∀ thread ∈ state.threads[index]?,
            thread.Timely state.ctx.startNs))
  | .act _ (.write false) | .act _ .wrap | .act _ (.emit _)
  | .act _ (.fault _) | .act _ .raise | .spawn _ _ | .create _
  | .tick _ | .killed =>
      inferInstanceAs (Decidable True)

/-- The helpers leave the timestamp and the tag of their event to `pg_emit`. -/
theorem helper_unstamped (event : PgEvent)
    (helper :
      (∃ emit : Emit, event = emit.event) ∨ event = doneEvent ∨
        ∃ what, event = watchdogEvent what) :
    event.tsNs = 0 ∧ event.threadTag = 0 := by
  rcases helper with ⟨emit, rfl⟩ | rfl | ⟨what, rfl⟩
  · cases emit with
    | logf | phase | count | gauge | expect | actual | sutFault =>
        exact ⟨rfl, rfl⟩
  · exact ⟨rfl, rfl⟩
  · exact ⟨rfl, rfl⟩

/-- So their records are always right. -/
theorem timely_of_helper
    (emit : Emit)
    (thread : Thread)
    (startNs readNs : UInt64)
    (emitting : thread.stage = .emitting emit.event readNs) :
    thread.Timely startNs := by
  rw [Thread.Timely, emitting]
  exact Or.inl (helper_unstamped _ (Or.inl ⟨emit, rfl⟩)).2

section Words

variable {startNs earlierNs laterNs : UInt64}

/-- A later time is later since the start. -/
theorem sub_start_le
    (started : startNs ≤ earlierNs)
    (later : earlierNs ≤ laterNs) :
    earlierNs - startNs ≤ laterNs - startNs := by
  rw [UInt64.le_iff_toNat_le,
    UInt64.toNat_sub_of_le _ _ started,
    UInt64.toNat_sub_of_le _ _ (UInt64.le_trans started later)]
  exact Nat.sub_le_sub_right (UInt64.le_iff_toNat_le.mp later) _

/-- No time since the start has passed only at the start. -/
theorem eq_start_of_sub_eq_zero
    (started : startNs ≤ laterNs)
    (none : laterNs - startNs = 0) :
    laterNs = startNs := by
  apply UInt64.toNat_inj.mp
  have difference := UInt64.toNat_sub_of_le _ _ started
  rw [none] at difference
  apply Nat.le_antisymm
  · exact Nat.le_of_sub_eq_zero difference.symm
  · exact UInt64.le_iff_toNat_le.mp started

end Words

namespace Thread

variable
  {ctx : PgRunctx}
  {nowNs laterNs : UInt64}
  {thread moved : Thread}
  {action : Action}

/-- What holds of a thread at any time. -/
def Consistent (startNs nowNs : UInt64) (thread : Thread) : Prop :=
  match thread.stage with
  | .wrapping | .raised =>
      True
  | .running =>
      thread.gThreadTag = thread.tagId
  | .emitting event readNs =>
      thread.gThreadTag = thread.tagId ∧ event.tsNs = 0 ∧
        startNs ≤ readNs ∧ readNs ≤ nowNs
  | .inHandler _ enteredNs =>
      startNs ≤ enteredNs ∧ enteredNs ≤ nowNs

/-- No record a thread has still to write was begun before this time. -/
def sinceNs (nowNs : UInt64) (thread : Thread) : UInt64 :=
  match thread.stage with
  | .wrapping | .running | .raised => nowNs
  | .emitting _ readNs => readNs
  | .inHandler _ enteredNs => enteredNs

/-- Time passes. -/
theorem Consistent.later
    {startNs : UInt64}
    (consistent : thread.Consistent startNs nowNs)
    (passed : nowNs ≤ laterNs) :
    thread.Consistent startNs laterNs := by
  rcases thread with ⟨tagId, gThreadTag, stage⟩
  cases stage with
  | wrapping | raised =>
      trivial
  | running =>
      exact consistent
  | emitting event readNs =>
      obtain ⟨tagged, unstamped, started, read⟩ := consistent
      exact ⟨tagged, unstamped, started, UInt64.le_trans read passed⟩
  | inHandler signal enteredNs =>
      obtain ⟨started, entered⟩ := consistent
      exact ⟨started, UInt64.le_trans entered passed⟩

/-- What one action does. -/
inductive Moves
    (ctx : PgRunctx)
    (nowNs : UInt64) : Thread → Action → Thread → Prop where
  | wraps
      {tagId gThreadTag : UInt32} :
      Moves ctx nowNs ⟨tagId, gThreadTag, .wrapping⟩ .wrap
        ⟨tagId, tagId, .running⟩
  | drops
      {tagId gThreadTag : UInt32}
      {event : PgEvent} :
      Moves ctx nowNs ⟨tagId, gThreadTag, .running⟩ (.emit event)
        ⟨tagId, gThreadTag, .running⟩
  | begins
      {tagId gThreadTag : UInt32}
      {event : PgEvent}
      (unstamped : event.tsNs = 0) :
      Moves ctx nowNs ⟨tagId, gThreadTag, .running⟩ (.emit event)
        ⟨tagId, gThreadTag, .emitting event nowNs⟩
  | emits
      {tagId gThreadTag : UInt32}
      {event : PgEvent}
      {readNs : UInt64}
      {taken : Bool} :
      Moves ctx nowNs ⟨tagId, gThreadTag, .emitting event readNs⟩
        (.write taken) ⟨tagId, gThreadTag, .running⟩
  | reports
      {tagId gThreadTag : UInt32}
      {signal : Signal}
      {enteredNs : UInt64}
      {taken : Bool} :
      Moves ctx nowNs ⟨tagId, gThreadTag, .inHandler signal enteredNs⟩
        (.write taken) ⟨tagId, gThreadTag, .raised⟩
  | faults
      {tagId gThreadTag : UInt32}
      {stage : Stage}
      {signal : Signal} :
      Moves ctx nowNs ⟨tagId, gThreadTag, stage⟩ (.fault signal)
        ⟨tagId, gThreadTag, .inHandler signal nowNs⟩
  | raises
      {tagId gThreadTag : UInt32} :
      Moves ctx nowNs ⟨tagId, gThreadTag, .raised⟩ .raise
        ⟨tagId, gThreadTag, .raised⟩

/-- An action does one of these. -/
theorem moves_of_after
    (acted : thread.after ctx nowNs action = some moved) :
    Moves ctx nowNs thread action moved := by
  rcases thread with ⟨tagId, gThreadTag, stage⟩
  cases action with
  | fault signal =>
      obtain rfl := Option.some.inj acted
      exact .faults
  | wrap =>
      cases stage with
      | wrapping =>
          obtain rfl := Option.some.inj acted
          exact .wraps
      | running | emitting | inHandler | raised =>
          contradiction
  | emit event =>
      cases stage with
      | running =>
          simp only [after, Option.ite_none_right_eq_some] at acted
          obtain ⟨unstamped, acted⟩ := acted
          split at acted
          · obtain rfl := Option.some.inj acted
            exact .drops
          · obtain rfl := Option.some.inj acted
            exact .begins unstamped
      | wrapping | emitting | inHandler | raised =>
          contradiction
  | write taken =>
      cases stage with
      | emitting event readNs =>
          obtain rfl := Option.some.inj acted
          exact .emits
      | inHandler signal enteredNs =>
          obtain rfl := Option.some.inj acted
          exact .reports
      | wrapping | running | raised =>
          contradiction
  | raise =>
      cases stage with
      | raised =>
          obtain rfl := Option.some.inj acted
          exact .raises
      | wrapping | running | emitting | inHandler =>
          contradiction

/-- An action keeps a thread consistent. -/
theorem Consistent.after
    (consistent : thread.Consistent ctx.startNs nowNs)
    (started : ctx.startNs ≤ nowNs)
    (acted : thread.after ctx nowNs action = some moved) :
    moved.Consistent ctx.startNs nowNs := by
  cases moves_of_after acted with
  | wraps =>
      rfl
  | drops =>
      exact consistent
  | begins unstamped =>
      exact ⟨consistent, unstamped, started, UInt64.le_refl nowNs⟩
  | emits =>
      exact consistent.1
  | reports | raises =>
      trivial
  | faults =>
      exact ⟨started, UInt64.le_refl nowNs⟩

/-- A consistent thread has begun no record in the future. -/
theorem Consistent.sinceNs_le
    {startNs : UInt64}
    (consistent : thread.Consistent startNs nowNs) :
    thread.sinceNs nowNs ≤ nowNs := by
  rcases thread with ⟨tagId, gThreadTag, stage⟩
  cases stage with
  | wrapping | running | raised =>
      exact UInt64.le_refl nowNs
  | emitting event readNs =>
      exact consistent.2.2.2
  | inHandler signal enteredNs =>
      exact consistent.2

/-- What a thread writes after an action it has not yet begun. -/
theorem sinceNs_after
    (acted : thread.after ctx nowNs action = some moved) :
    moved.sinceNs nowNs = nowNs := by
  cases moves_of_after acted with
  | wraps | drops | begins | emits | reports | faults | raises =>
      rfl

/-- As time passes, so does the time of a record not yet begun. -/
theorem sinceNs_later (passed : nowNs ≤ laterNs) :
    thread.sinceNs nowNs ≤ thread.sinceNs laterNs := by
  rcases thread with ⟨tagId, gThreadTag, stage⟩
  cases stage with
  | wrapping | running | raised =>
      exact passed
  | emitting | inHandler =>
      exact UInt64.le_refl _

/-- A consistent thread has begun no record before the start. -/
theorem Consistent.le_sinceNs
    {startNs : UInt64}
    (consistent : thread.Consistent startNs nowNs)
    (started : startNs ≤ nowNs) :
    startNs ≤ thread.sinceNs nowNs := by
  rcases thread with ⟨tagId, gThreadTag, stage⟩
  cases stage with
  | wrapping | running | raised =>
      exact started
  | emitting event readNs =>
      exact consistent.2.2.1
  | inHandler signal enteredNs =>
      exact consistent.1

section Writing

variable
  {record : PgEvent}
  {beganNs : UInt64}

/-- A thread that writes has a record to write. -/
theorem exists_writing
    {taken : Bool}
    (acted : thread.after ctx nowNs (.write taken) = some moved) :
    ∃ record beganNs, thread.writing ctx = some (record, beganNs) := by
  cases moves_of_after acted with
  | emits | reports =>
      exact ⟨_, _, rfl⟩

/-- The record was begun when the thread says. -/
theorem sinceNs_eq_of_writing
    (writes : thread.writing ctx = some (record, beganNs)) :
    thread.sinceNs nowNs = beganNs := by
  rcases thread with ⟨tagId, gThreadTag, stage⟩
  cases stage with
  | emitting | inHandler =>
      obtain ⟨rfl, rfl⟩ := Prod.mk.inj (Option.some.inj writes)
      rfl
  | wrapping | running | raised =>
      contradiction

/-- The tag that `pg_emit` fills in. -/
theorem threadTag_pgEmitCopy
    (untagged : ctx.threadTag = 0)
    (gThreadTag : UInt32)
    (readNs : UInt64)
    (event : PgEvent) :
    (pgEmitCopy ctx gThreadTag readNs event).threadTag = gThreadTag ↔
      event.threadTag = 0 ∨ event.threadTag = gThreadTag := by
  by_cases unset : event.threadTag = 0
  · by_cases own : gThreadTag = 0
    · simp [pgEmitCopy, unset, own, untagged]
    · simp [pgEmitCopy, unset, own]
  · simp [pgEmitCopy, unset]

/-- A record that is right has the time at which it was begun. -/
theorem tsNs_of_timely
    (consistent : thread.Consistent ctx.startNs nowNs)
    (writes : thread.writing ctx = some (record, beganNs))
    (timely : thread.Timely ctx.startNs) :
    record.tsNs = beganNs - ctx.startNs := by
  rcases thread with ⟨tagId, gThreadTag, stage⟩
  cases stage with
  | emitting event readNs =>
      obtain ⟨rfl, rfl⟩ := Prod.mk.inj (Option.some.inj writes)
      exact if_pos consistent.2.1
  | inHandler signal enteredNs =>
      obtain ⟨rfl, rfl⟩ := Prod.mk.inj (Option.some.inj writes)
      rw [timely.2]
      exact (UInt64.sub_self _).symm
  | wrapping | running | raised =>
      contradiction

/-- When a record is measured and tagged as it should be. -/
theorem timely_iff
    (untagged : ctx.threadTag = 0)
    (consistent : thread.Consistent ctx.startNs nowNs)
    (writes : thread.writing ctx = some (record, beganNs)) :
    thread.Timely ctx.startNs ↔
      (∃ readNs,
          beganNs ≤ readNs ∧ readNs ≤ nowNs ∧
            record.tsNs = readNs - ctx.startNs) ∧
        record.threadTag = thread.tagId := by
  constructor
  · intro timely
    have began : beganNs ≤ nowNs := by
      rw [← sinceNs_eq_of_writing writes]
      exact consistent.sinceNs_le
    refine
      ⟨⟨beganNs, UInt64.le_refl beganNs, began,
        tsNs_of_timely consistent writes timely⟩, ?_⟩
    rcases thread with ⟨tagId, gThreadTag, stage⟩
    cases stage with
    | emitting event readNs =>
        obtain ⟨rfl, rfl⟩ := Prod.mk.inj (Option.some.inj writes)
        obtain rfl : gThreadTag = tagId := consistent.1
        exact (threadTag_pgEmitCopy untagged _ _ event).mpr timely
    | inHandler signal enteredNs =>
        obtain ⟨rfl, rfl⟩ := Prod.mk.inj (Option.some.inj writes)
        exact timely.1.symm
    | wrapping | running | raised =>
        contradiction
  · rintro ⟨⟨readNs, began, _, stamped⟩, tagged⟩
    rcases thread with ⟨tagId, gThreadTag, stage⟩
    cases stage with
    | emitting event _ =>
        obtain ⟨rfl, rfl⟩ := Prod.mk.inj (Option.some.inj writes)
        obtain rfl : gThreadTag = tagId := consistent.1
        exact (threadTag_pgEmitCopy untagged _ _ event).mp tagged
    | inHandler signal enteredNs =>
        obtain ⟨rfl, rfl⟩ := Prod.mk.inj (Option.some.inj writes)
        have started := UInt64.le_trans consistent.1 began
        -- The record's timestamp is 0.
        have same := eq_start_of_sub_eq_zero started stamped.symm
        exact
          ⟨tagged.symm, UInt64.le_antisymm (same ▸ began) consistent.1⟩
    | wrapping | running | raised =>
        trivial

end Writing

end Thread

namespace State

section Settle

variable
  {state : State}
  {index : Nat}
  {thread moved : Thread}
  {action : Action}

@[simp] theorem append_ctx :
    (state.append index thread).ctx = state.ctx := by
  unfold append
  split <;> rfl

@[simp] theorem append_nowNs :
    (state.append index thread).nowNs = state.nowNs := by
  unfold append
  split <;> rfl

@[simp] theorem append_threads :
    (state.append index thread).threads = state.threads := by
  unfold append
  split <;> rfl

theorem append_stream
    {record : PgEvent}
    {beganNs : UInt64}
    (writes : thread.writing state.ctx = some (record, beganNs)) :
    (state.append index thread).stream =
      state.stream ++
        [(index,
          { record := record
            tagId := thread.tagId
            beganNs := beganNs
            endedNs := state.nowNs })] := by
  rw [append, writes]

@[simp] theorem settle_ctx :
    (state.settle index thread moved action).ctx = state.ctx := by
  cases action with
  | wrap | emit | raise =>
      rfl
  | write taken =>
      cases taken with
      | false =>
          rfl
      | true =>
          exact append_ctx
  | fault signal =>
      simp only [settle]
      split <;> rfl

@[simp] theorem settle_nowNs :
    (state.settle index thread moved action).nowNs = state.nowNs := by
  cases action with
  | wrap | emit | raise =>
      rfl
  | write taken =>
      cases taken with
      | false =>
          rfl
      | true =>
          exact append_nowNs
  | fault signal =>
      simp only [settle]
      split <;> rfl

/-- An action replaces its thread, or ends the child. -/
theorem settle_threads :
    (state.settle index thread moved action).threads =
        state.threads.set index moved ∨
      (state.settle index thread moved action).threads =
        state.threads := by
  cases action with
  | wrap | emit =>
      exact Or.inl rfl
  | raise =>
      exact Or.inr rfl
  | write taken =>
      cases taken with
      | false =>
          exact Or.inl rfl
      | true =>
          refine Or.inl ?_
          exact congrArg (List.set · index moved) append_threads
  | fault signal =>
      simp only [settle]
      split
      · exact Or.inl rfl
      · exact Or.inr rfl

/-- Only a write that the pipe takes adds a record. -/
theorem settle_stream
    (silent : action ≠ .write true) :
    (state.settle index thread moved action).stream = state.stream := by
  cases action with
  | wrap | emit | raise =>
      rfl
  | write taken =>
      cases taken with
      | false =>
          rfl
      | true =>
          exact absurd rfl silent
  | fault signal =>
      simp only [settle]
      split <;> rfl

end Settle

/-- What one step does. -/
inductive Steps (state : State) : Label → State → Prop where
  | acts
      {index : Nat}
      {action : Action}
      {thread moved : Thread}
      (there : state.threads[index]? = some thread)
      (acted : thread.after state.ctx state.nowNs action = some moved) :
      Steps state (.act index action)
        (state.settle index thread moved action)
  | grows
      {label : Label}
      {next : UInt32}
      {started : List Thread}
      (apart : ∀ index action, label ≠ .act index action)
      (fresh :
        ∀ thread ∈ started,
          (thread.stage = .wrapping ∨ thread.stage = .running) ∧
            thread.Consistent state.ctx.startNs state.nowNs) :
      Steps state label
        { state with
          gNextThreadTag := next
          threads := state.threads ++ started }
  | ticks
      {nowNs : UInt64}
      (passed : state.nowNs ≤ nowNs) :
      Steps state (.tick nowNs) { state with nowNs := nowNs }
  | dies :
      Steps state .killed { state with alive := false }

variable
  {state next : State}
  {label : Label}

/-- A step does one of these. -/
theorem steps_of_step?
    (stepped : state.step? label = some next) :
    state.Steps label next := by
  simp only [step?, Option.ite_none_right_eq_some] at stepped
  obtain ⟨_, stepped⟩ := stepped
  cases label with
  | act index action =>
      cases there : state.threads[index]? with
      | none =>
          simp [there] at stepped
      | some thread =>
          simp only [there, Option.map_eq_some_iff] at stepped
          obtain ⟨moved, acted, rfl⟩ := stepped
          exact .acts there acted
  | spawn parent calls =>
      simp only [Option.ite_none_right_eq_some, Option.some.injEq] at stepped
      obtain ⟨_, rfl⟩ := stepped
      refine .grows (by simp) ?_
      intro thread member
      obtain ⟨tagId, _, rfl⟩ := List.mem_map.mp member
      exact ⟨Or.inl rfl, trivial⟩
  | create parent =>
      simp only [Option.ite_none_right_eq_some, Option.some.injEq] at stepped
      obtain ⟨_, rfl⟩ := stepped
      refine .grows (by simp) ?_
      intro thread member
      obtain rfl := List.mem_singleton.mp member
      exact ⟨Or.inr rfl, rfl⟩
  | tick nowNs =>
      simp only [Option.ite_none_right_eq_some, Option.some.injEq] at stepped
      obtain ⟨passed, rfl⟩ := stepped
      exact .ticks passed
  | killed =>
      obtain rfl := Option.some.inj stepped
      exact .dies

/-- What holds of the child at any time. -/
structure Timed (state : State) : Prop where
  started : state.ctx.startNs ≤ state.nowNs
  untagged : state.ctx.threadTag = 0
  consistent :
    ∀ thread ∈ state.threads,
      thread.Consistent state.ctx.startNs state.nowNs

/-- A step keeps the context. -/
theorem Steps.ctx_eq (steps : state.Steps label next) :
    next.ctx = state.ctx := by
  cases steps with
  | acts there acted =>
      exact settle_ctx
  | grows | ticks | dies =>
      rfl

/-- A step keeps the child consistent. -/
theorem Timed.step
    (timed : state.Timed)
    (steps : state.Steps label next) :
    next.Timed := by
  refine ⟨?_, ?_, ?_⟩
  · rw [steps.ctx_eq]
    cases steps with
    | acts there acted =>
        rw [settle_nowNs]
        exact timed.started
    | grows | dies =>
        exact timed.started
    | ticks passed =>
        exact UInt64.le_trans timed.started passed
  · rw [steps.ctx_eq]
    exact timed.untagged
  · intro thread member
    rw [steps.ctx_eq]
    cases steps with
    | acts there acted =>
        rw [settle_nowNs]
        have before := timed.consistent _ (List.mem_of_getElem? there)
        rcases settle_threads with replaced | same
        · rw [replaced] at member
          rcases List.mem_or_eq_of_mem_set member with old | rfl
          · exact timed.consistent thread old
          · exact before.after timed.started acted
        · rw [same] at member
          exact timed.consistent thread member
    | grows apart fresh =>
        rcases List.mem_append.mp member with old | new
        · exact timed.consistent thread old
        · exact (fresh thread new).2
    | ticks passed =>
        exact (timed.consistent thread member).later passed
    | dies =>
        exact timed.consistent thread member

/-- No record of this thread still to come was begun before this time. -/
def sinceNs (state : State) (index : Nat) : UInt64 :=
  match state.threads[index]? with
  | some thread => thread.sinceNs state.nowNs
  | none => state.nowNs

theorem sinceNs_of_getElem?
    {index : Nat}
    {thread : Thread}
    (there : state.threads[index]? = some thread) :
    state.sinceNs index = thread.sinceNs state.nowNs := by
  rw [sinceNs, there]

theorem sinceNs_of_none
    {index : Nat}
    (missing : state.threads[index]? = none) :
    state.sinceNs index = state.nowNs := by
  rw [sinceNs, missing]

/-- Time passes for a thread that does nothing. -/
theorem sinceNs_le_of_same
    {query : Nat}
    (same : next.threads[query]? = state.threads[query]?)
    (passed : state.nowNs ≤ next.nowNs) :
    state.sinceNs query ≤ next.sinceNs query := by
  cases there : state.threads[query]? with
  | none =>
      rw [sinceNs_of_none there, sinceNs_of_none (same.trans there)]
      exact passed
  | some thread =>
      rw [sinceNs_of_getElem? there,
        sinceNs_of_getElem? (same.trans there)]
      exact Thread.sinceNs_later passed

/-- No record still to come was begun in the future. -/
theorem Timed.sinceNs_le
    (timed : state.Timed)
    (query : Nat) :
    state.sinceNs query ≤ state.nowNs := by
  cases there : state.threads[query]? with
  | none =>
      rw [sinceNs_of_none there]
      exact UInt64.le_refl _
  | some thread =>
      rw [sinceNs_of_getElem? there]
      have member := List.mem_of_getElem? there
      exact (timed.consistent thread member).sinceNs_le

/-- No record was begun before the start. -/
theorem Timed.le_sinceNs
    (timed : state.Timed)
    (query : Nat) :
    state.ctx.startNs ≤ state.sinceNs query := by
  cases there : state.threads[query]? with
  | none =>
      rw [sinceNs_of_none there]
      exact timed.started
  | some thread =>
      rw [sinceNs_of_getElem? there]
      have member := List.mem_of_getElem? there
      exact (timed.consistent thread member).le_sinceNs timed.started

/-- Whoever begins a record begins it no earlier than those before. -/
theorem Timed.sinceNs_mono
    (timed : state.Timed)
    (steps : state.Steps label next)
    (query : Nat) :
    state.sinceNs query ≤ next.sinceNs query := by
  cases steps with
  | @acts index action thread moved there acted =>
      rcases settle_threads with replaced | same
      · by_cases own : index = query
        · subst own
          have moved' :
              (state.settle index thread moved action).threads[index]? =
                some moved := by
            rw [replaced]
            exact List.getElem?_set_self
              (List.getElem?_eq_some_iff.mp there).1
          rw [sinceNs_of_getElem? moved', settle_nowNs,
            Thread.sinceNs_after acted]
          exact timed.sinceNs_le index
        · refine sinceNs_le_of_same ?_ (UInt64.le_of_eq settle_nowNs.symm)
          rw [replaced]
          exact List.getElem?_set_ne own
      · refine sinceNs_le_of_same ?_ (UInt64.le_of_eq settle_nowNs.symm)
        rw [same]
  | @grows label next' started apart fresh =>
      rcases Nat.lt_or_ge query state.threads.length with old | new
      · refine sinceNs_le_of_same ?_ (UInt64.le_refl _)
        exact List.getElem?_append_left old
      · have later :
            sinceNs
                { state with
                  gNextThreadTag := next'
                  threads := state.threads ++ started }
                query =
              state.nowNs := by
          rw [sinceNs, List.getElem?_append_right new]
          split
          · rename_i thread there
            have member := List.mem_of_getElem? there
            rcases (fresh thread member).1 with wrapping | running
            · rw [Thread.sinceNs, wrapping]
            · rw [Thread.sinceNs, running]
          · rfl
        rw [later]
        exact timed.sinceNs_le query
  | ticks passed =>
      exact sinceNs_le_of_same rfl passed
  | dies =>
      exact UInt64.le_refl _

/-- The records of a thread are no later than what it has still to write. -/
def Behind (state : State) : Prop :=
  ∀ index,
    ∀ entry ∈ ofOwner index state.stream,
      entry.record.tsNs ≤ state.sinceNs index - state.ctx.startNs

/-- A step adds no record, or the record of one thread. -/
theorem Steps.stream_cases (steps : state.Steps label next) :
    ((∀ index, label ≠ .act index (.write true)) ∧
        next.stream = state.stream) ∨
      ∃ index thread record beganNs,
        label = .act index (.write true) ∧
          state.threads[index]? = some thread ∧
          thread.writing state.ctx = some (record, beganNs) ∧
          next.stream =
            state.stream ++
              [(index,
                { record := record
                  tagId := thread.tagId
                  beganNs := beganNs
                  endedNs := state.nowNs })] := by
  cases steps with
  | @acts index action thread moved there acted =>
      by_cases writes : action = .write true
      · subst writes
        obtain ⟨record, beganNs, writing⟩ := Thread.exists_writing acted
        exact
          Or.inr
            ⟨index, thread, record, beganNs, rfl, there, writing,
              append_stream writing⟩
      · refine Or.inl ⟨?_, settle_stream writes⟩
        intro other same
        exact writes (Label.act.inj same).2
  | grows apart fresh =>
      exact Or.inl ⟨fun index => apart index _, rfl⟩
  | ticks | dies =>
      exact Or.inl ⟨by simp, rfl⟩

/-- When appending a record keeps the promise to the parent. -/
theorem sound_snoc
    {index : Nat}
    {entry : Emitted}
    (ctx : next.ctx = state.ctx)
    (stream : next.stream = state.stream ++ [(index, entry)]) :
    next.Sound ↔
      state.Sound ∧
        (∀ earlier ∈ ofOwner index state.stream,
          earlier.record.tsNs ≤ entry.record.tsNs) ∧
        (∃ readNs,
          entry.beganNs ≤ readNs ∧ readNs ≤ entry.endedNs ∧
            entry.record.tsNs = readNs - state.ctx.startNs) ∧
        entry.record.threadTag = entry.tagId := by
  have ordered :=
    @Interleaving.pairwise_ofOwner_snoc Nat _ Emitted
      (fun earlier later => earlier.record.tsNs ≤ later.record.tsNs)
      index entry state.stream
  constructor
  · intro sound
    obtain ⟨orderedNext, measured, tagged⟩ := sound
    rw [stream] at orderedNext measured tagged
    rw [ctx] at measured
    obtain ⟨orderedOld, later⟩ := ordered.mp orderedNext
    rw [List.forall_mem_append] at measured tagged
    exact
      ⟨⟨orderedOld, measured.1, tagged.1⟩, later,
        measured.2 _ (List.mem_singleton_self _),
        tagged.2 _ (List.mem_singleton_self _)⟩
  · rintro ⟨⟨orderedOld, measured, tagged⟩, later, read, tag⟩
    refine ⟨?_, ?_, ?_⟩
    · rw [stream]
      exact ordered.mpr ⟨orderedOld, later⟩
    · rw [stream, ctx, List.forall_mem_append]
      refine ⟨measured, ?_⟩
      intro other member
      obtain rfl := List.mem_singleton.mp member
      exact read
    · rw [stream, List.forall_mem_append]
      refine ⟨tagged, ?_⟩
      intro other member
      obtain rfl := List.mem_singleton.mp member
      exact tag

/-- A step that adds no record changes nothing the parent relies on. -/
theorem sound_of_same_stream
    (ctx : next.ctx = state.ctx)
    (same : next.stream = state.stream) :
    next.Sound ↔ state.Sound := by
  constructor
  · rintro ⟨ordered, measured, tagged⟩
    rw [same] at ordered measured tagged
    rw [ctx] at measured
    exact ⟨ordered, measured, tagged⟩
  · rintro ⟨ordered, measured, tagged⟩
    rw [← same] at ordered measured tagged
    rw [← ctx] at measured
    exact ⟨ordered, measured, tagged⟩

/-- What the parent may rely on it could rely on before. -/
theorem Steps.sound_before
    (steps : state.Steps label next)
    (sound : next.Sound) :
    state.Sound := by
  rcases steps.stream_cases with
    ⟨_, same⟩ | ⟨index, thread, record, beganNs, _, _, _, stream⟩
  · exact (sound_of_same_stream steps.ctx_eq same).mp sound
  · exact ((sound_snoc steps.ctx_eq stream).mp sound).1

/-- A step after which the parent may rely on the records was careful. -/
theorem Timed.careful_of_sound
    (timed : state.Timed)
    (steps : state.Steps label next)
    (sound : next.Sound) :
    state.Careful label := by
  rcases steps.stream_cases with
    ⟨silent, _⟩ |
      ⟨index, thread, record, beganNs, rfl, there, writes, stream⟩
  · unfold Careful
    split
    · rename_i index
      exact absurd rfl (silent index)
    · trivial
  · intro other member
    obtain rfl : thread = other := Option.some.inj (there.symm.trans member)
    have consistent := timed.consistent thread (List.mem_of_getElem? there)
    obtain ⟨_, _, read, tag⟩ := (sound_snoc steps.ctx_eq stream).mp sound
    exact
      (Thread.timely_iff timed.untagged consistent writes).mpr ⟨read, tag⟩

/-- A careful step keeps what the parent may rely on. -/
theorem Timed.sound_of_careful
    (timed : state.Timed)
    (steps : state.Steps label next)
    (careful : state.Careful label)
    (sound : state.Sound)
    (behind : state.Behind) :
    next.Sound ∧ next.Behind := by
  have mono (index : Nat) :
      state.sinceNs index - state.ctx.startNs ≤
        next.sinceNs index - next.ctx.startNs := by
    rw [steps.ctx_eq]
    exact sub_start_le (timed.le_sinceNs index)
      (timed.sinceNs_mono steps index)
  rcases steps.stream_cases with
    ⟨_, same⟩ |
      ⟨index, thread, record, beganNs, rfl, there, writes, stream⟩
  · refine ⟨(sound_of_same_stream steps.ctx_eq same).mpr sound, ?_⟩
    intro index entry member
    rw [same] at member
    exact UInt64.le_trans (behind index entry member) (mono index)
  · have timely := careful thread there
    have consistent := timed.consistent thread (List.mem_of_getElem? there)
    -- The record has the time that bounds the earlier ones of its thread.
    have stamped :
        record.tsNs = state.sinceNs index - state.ctx.startNs := by
      rw [sinceNs_of_getElem? there, Thread.sinceNs_eq_of_writing writes]
      exact Thread.tsNs_of_timely consistent writes timely
    obtain ⟨read, tag⟩ :=
      (Thread.timely_iff timed.untagged consistent writes).mp timely
    constructor
    · refine (sound_snoc steps.ctx_eq stream).mpr ⟨sound, ?_, read, tag⟩
      intro earlier member
      rw [stamped]
      exact behind index earlier member
    · intro query entry member
      refine UInt64.le_trans ?_ (mono query)
      rw [Interleaving.mem_ofOwner, stream, List.mem_append] at member
      rcases member with old | new
      · exact behind query entry (Interleaving.mem_ofOwner.mpr old)
      · obtain ⟨rfl, rfl⟩ := Prod.mk.inj (List.mem_singleton.mp new)
        exact UInt64.le_of_eq stamped

/-- Nothing is wrong at first. -/
theorem start_timed (fd : Nat) (startNs : UInt64) :
    (start fd startNs).Timed where
  started := UInt64.le_refl startNs
  untagged := rfl
  consistent := by
    intro thread member
    obtain rfl := List.mem_singleton.mp member
    rfl

/-- The parent has read nothing at first. -/
theorem start_sound (fd : Nat) (startNs : UInt64) :
    (start fd startNs).Sound where
  ordered := fun _ => List.Pairwise.nil
  measured := fun _ member => absurd member List.not_mem_nil
  tagged := fun _ member => absurd member List.not_mem_nil

end State

/--
The timestamps of every thread are in order, measured from the start and under
its tag exactly when no record entered the pipe that was not right: no event
under another tag, and no crash handler's record, but for a thread without a
tag that crashed before the clock moved.
-/
theorem eventTimes_sound_iff
    (fd : Nat)
    (startNs : UInt64)
    (labels : List Label)
    (final : State)
    (ran : State.run? (State.start fd startNs) labels = some final) :
    final.Sound ↔
      Transition.EachStep State.step? State.Careful
        (State.start fd startNs) labels := by
  have timed := State.start_timed fd startNs
  constructor
  · intro sound
    refine
      (Transition.eachStep_of_final ?_ ?_ ?_ ran timed sound).1
    · intro state label next timed stepped
      exact timed.step (State.steps_of_step? stepped)
    · intro state label next stepped sound
      exact (State.steps_of_step? stepped).sound_before sound
    · intro state label next timed stepped sound
      exact timed.careful_of_sound (State.steps_of_step? stepped) sound
  · intro careful
    have preserved {state next : State} {label : Label}
        (fine : state.Timed ∧ state.Sound ∧ state.Behind)
        (careful : state.Careful label)
        (stepped : state.step? label = some next) :
        next.Timed ∧ next.Sound ∧ next.Behind := by
      obtain ⟨timed, sound, behind⟩ := fine
      have steps := State.steps_of_step? stepped
      exact
        ⟨timed.step steps,
          timed.sound_of_careful steps careful sound behind⟩
    have kept :=
      Transition.run?_invariant_of_eachStep preserved ran careful
        ⟨timed, State.start_sound fd startNs,
          fun _ _ member => absurd member List.not_mem_nil⟩
    exact kept.2.1

/-- The main thread crashes at once; a thread with a tag logs a line. -/
def earlyCrash : List Label :=
  [.spawn 0 ⟨true, true, true, true⟩, .act 1 .wrap,
    .act 1 (.emit (Emit.logf []).event), .act 0 (.fault .segv),
    .tick 107, .act 1 (.write true), .act 0 (.write true),
    .act 0 .raise]

/-- Its records are as they should be. -/
theorem eventTimes_sound_iff_earlyCrash :
    ∃ final,
      State.run? (State.start 5 100) earlyCrash = some final ∧
        final.Sound :=
  ⟨_, rfl,
    (eventTimes_sound_iff 5 100 earlyCrash _ rfl).mpr (by decide +kernel)⟩

/-- A thread with a tag logs a line, and crashes. -/
def lateCrash : List Label :=
  [.spawn 0 ⟨true, true, true, true⟩, .act 1 .wrap, .tick 107,
    .act 1 (.emit (Emit.logf []).event), .act 1 (.write true),
    .act 1 (.fault .segv), .act 1 (.write true), .act 1 .raise]

/-- The record of the crash goes back to 0, and has no tag. -/
theorem lateCrash_goes_back :
    ∃ final,
      State.run? (State.start 5 100) lateCrash = some final ∧
        (ofOwner 1 final.stream).map
            (fun entry => (entry.record.tsNs, entry.record.threadTag)) =
          [(7, 1), (0, 0)] ∧
        ¬ final.Sound := by
  refine ⟨_, rfl, by decide +kernel, ?_⟩
  intro sound
  have ordered := sound.ordered 1
  exact absurd ordered (by decide +kernel)

end FailurePlayground.EventTimes
