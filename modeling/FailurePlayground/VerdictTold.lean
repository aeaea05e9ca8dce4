import FailurePlayground.RunVerdict

namespace FailurePlayground.RunVerdict

/-!
# What a verdict tells

A child that exits with 2 has let its watchdog speak, one that exits otherwise
has sent `PG_EV_DONE` or was terminated, and one that dies from a signal was
killed by it or has crashed.  The records that say so are in the pipe, unless
the main thread had closed it, which it does after `PG_EV_DONE`, or a signal
has interrupted the crash handler.
-/

open ChildProcess (Signal Thread IsDone IsWatchdog crashEvent)

section Explanation

variable
  {n : Nat}
  {rc : Int}
  {earlier : List (Label n)}
  {stream later : List PgEvent}
  {child next : ChildProcess.State n}
  {index : Fin n}
  {nowNs : UInt64}
  {taken : Bool}

/-- `PG_EV_DONE` has been sent. -/
def Done (stream : List PgEvent) : Prop :=
  ∃ event ∈ stream, IsDone event

/-- A watchdog has spoken. -/
def Barked (stream : List PgEvent) : Prop :=
  ∃ event ∈ stream, IsWatchdog event

/-- The main thread has come through its scenario. -/
def Finished (child : ChildProcess.State n) : Prop :=
  ∃ index,
    (child.threads index).ending = .finishes ∧
      (child.threads index).stage ≠ .running

/-- What the stage of a thread says of the records in the pipe. -/
def Placed
    (earlier : List (Label n))
    (child : ChildProcess.State n)
    (index : Fin n)
    (thread : Thread) : Prop :=
  match thread.stage with
  | .running => True
  | .afterDone _ | .afterClose _ =>
      thread.ending = .finishes ∧ Done child.stream
  | .afterWatchdog _ =>
      (∃ what, thread.ending = .fires what) ∧
        (Barked child.stream ∨ child.fdOpen = false)
  | .inHandler signal =>
      thread.ending = .crashes signal
  | .afterCrash _ =>
      ∃ signal,
        thread.ending = .crashes signal ∧
          (crashEvent signal ∈ child.stream ∨ child.fdOpen = false ∨
            .interrupted index ∈ earlier)

/-- What holds of a child at any time. -/
structure Explains
    (earlier : List (Label n))
    (child : ChildProcess.State n) : Prop where
  linked : child.Linked
  placed : ∀ index, Placed earlier child index (child.threads index)
  accepted : ∀ record ∈ child.stream, headerAccepted record = true
  closed : child.fdOpen = false → Done child.stream
  disarmed :
    ∀ signal, child.armed signal = false →
      ∃ index,
        (child.threads index).ending = .crashes signal ∧
          (child.threads index).stage ≠ .running
  finished : Done child.stream → Finished child

/-- A watchdog has fired, and has spoken unless the pipe had been closed. -/
def Fired (child : ChildProcess.State n) : Prop :=
  ∃ index landed what,
    (child.threads index).stage = .afterWatchdog landed ∧
      (child.threads index).ending = .fires what ∧
      (Barked child.stream ∨ child.fdOpen = false)

/--
A thread has crashed with a signal.  It has reported it, is about to, or could
not: the pipe had been closed, or a signal came.
-/
def Crashed
    (earlier : List (Label n))
    (child : ChildProcess.State n)
    (signal : Signal) : Prop :=
  ∃ index,
    (child.threads index).ending = .crashes signal ∧
      ((child.threads index).stage = .inHandler signal ∨
        ∃ landed,
          (child.threads index).stage = .afterCrash landed ∧
            (crashEvent signal ∈ child.stream ∨ child.fdOpen = false ∨
              .interrupted index ∈ earlier))

/-- Why a child that is gone ended so. -/
def Ended
    (rc : Int)
    (earlier : List (Label n))
    (child : ChildProcess.State n) : WaitStatus → Prop
  | .exited code =>
      code = exitCode rc ∧ Done child.stream ∨
        code = 2 ∧ Fired child ∨
        code = 1 ∧ .terminated ∈ earlier
  | .signaled number =>
      .killed number ∈ earlier ∨
        ∃ signal,
          signalNumber signal = number ∧ Crashed earlier child signal

/-- What is in the pipe stays said. -/
theorem Placed.mono
    {thread : Thread}
    (placed : Placed earlier child index thread)
    (label : Label n)
    (grows : child.stream ⊆ next.stream)
    (shut : child.fdOpen = false → next.fdOpen = false) :
    Placed (earlier ++ [label]) next index thread := by
  have done : Done child.stream → Done next.stream :=
    fun ⟨event, member, isDone⟩ => ⟨event, grows member, isDone⟩
  have barked : Barked child.stream → Barked next.stream :=
    fun ⟨event, member, fired⟩ => ⟨event, grows member, fired⟩
  unfold Placed at placed ⊢
  split at placed
  · trivial
  · exact ⟨placed.1, done placed.2⟩
  · exact ⟨placed.1, done placed.2⟩
  · exact ⟨placed.1, placed.2.imp barked shut⟩
  · exact placed
  · obtain ⟨signal, ending, said⟩ := placed
    exact ⟨signal, ending, said.imp (fun member => grows member)
      (Or.imp shut (List.mem_append_left _))⟩

/-- A thread that writes is on its way, and keeps its ending. -/
theorem ending_of_writing
    {ctx : PgRunctx}
    {landed : Bool}
    {before after : Thread}
    {record : PgEvent}
    (writing : Writing ctx nowNs landed before record after) :
    after.ending = before.ending ∧
      (before.stage ≠ .running → after.stage ≠ .running) := by
  cases writing with
  | emits event rest stage pending =>
      exact ⟨rfl, id⟩
  | finishes stage ending | fires what stage ending
  | handles signal stage =>
      exact ⟨rfl, fun _ => by simp⟩

/-- The other threads stay as they are. -/
theorem other_of_move
    {other : Fin n}
    (moved : Move child index taken next)
    (different : other ≠ index) :
    next.threads other = child.threads other := by
  cases moved with
  | begins record isOpen | refused nowNs record thread closed writing
  | lands nowNs record thread inFlight writing | closes landed stage
  | faults signal stage ending =>
      exact Function.update_of_ne different _ _
  | faultsAgain signal stage ending unarmed | dies stage =>
      rfl

/-- A thread keeps its ending, and does not go back to its events. -/
theorem thread_of_move
    (moved : Move child index taken next)
    (other : Fin n) :
    (next.threads other).ending = (child.threads other).ending ∧
      ((child.threads other).stage ≠ .running →
        (next.threads other).stage ≠ .running) := by
  by_cases here : other = index
  · subst here
    cases moved with
    | begins record isOpen =>
        simp only [ChildProcess.State.setThread, Function.update_self]
        exact ⟨rfl, id⟩
    | refused nowNs record thread closed writing
    | lands nowNs record thread inFlight writing =>
        simp only [ChildProcess.State.setThread, Function.update_self]
        exact ending_of_writing writing
    | closes landed stage | faults signal stage ending =>
        simp only [ChildProcess.State.setThread, Function.update_self]
        exact ⟨trivial, fun _ => by simp⟩
    | faultsAgain signal stage ending unarmed | dies stage =>
        exact ⟨rfl, id⟩
  · rw [other_of_move moved here]
    exact ⟨rfl, id⟩

/-- A main thread that is through stays so. -/
theorem Finished.step
    (finished : Finished child)
    (moved : Move child index taken next) :
    Finished next := by
  obtain ⟨other, ending, through⟩ := finished
  obtain ⟨sameEnding, stays⟩ := thread_of_move moved other
  exact ⟨other, sameEnding.trans ending, stays through⟩

/-- A thread that writes stands for its record, or for what has lost it. -/
theorem placed_of_writing
    {ctx : PgRunctx}
    {landed : Bool}
    {before after : Thread}
    {record : PgEvent}
    (writing : Writing ctx nowNs landed before record after)
    (placed : Placed earlier child index before)
    (closed : child.fdOpen = false → Done child.stream)
    (said :
      record ∈ child.stream ∨ child.fdOpen = false ∨
        .interrupted index ∈ earlier ∧ ∃ signal,
          before.stage = .inHandler signal) :
    Placed earlier child index after := by
  cases writing with
  | emits event rest stage pending =>
      unfold Placed
      simp only [stage]
  | finishes stage ending =>
      refine ⟨ending, ?_⟩
      rcases said with member | shut | ⟨_, signal, handling⟩
      · exact ⟨_, member, rfl⟩
      · exact closed shut
      · rw [stage] at handling
        exact absurd handling (by simp)
  | fires what stage ending =>
      refine ⟨⟨what, ending⟩, ?_⟩
      rcases said with member | shut | ⟨_, signal, handling⟩
      · exact Or.inl ⟨_, member, rfl⟩
      · exact Or.inr shut
      · rw [stage] at handling
        exact absurd handling (by simp)
  | handles signal stage =>
      rw [Placed, stage] at placed
      exact ⟨signal, placed, said.imp_right (Or.imp_right And.left)⟩

/-- Only the main thread's `pg_done` sends `PG_EV_DONE`. -/
theorem finishes_of_done
    {ctx : PgRunctx}
    {landed : Bool}
    {before after : Thread}
    {record : PgEvent}
    (writing : Writing ctx nowNs landed before record after)
    (unforged : before.Unforged)
    (done : IsDone record) :
    after.ending = .finishes ∧ after.stage ≠ .running := by
  cases writing with
  | emits event rest stage pending =>
      have plain := unforged event (by rw [pending]; exact List.mem_cons_self)
      exact absurd (Or.inr done) plain
  | finishes stage ending =>
      exact ⟨ending, by simp⟩
  | fires what stage ending =>
      simp only [IsDone, ChildProcess.kind_pgEmitCopy,
        ChildProcess.watchdogEvent, PgEvent.ofKind] at done
      exact absurd done (by decide)
  | handles signal stage =>
      simp only [IsDone, crashEvent, PgEvent.ofKind] at done
      exact absurd done (by decide)

/-- A thread's record has the header that the parent expects. -/
theorem accepted_of_writing
    {ctx : PgRunctx}
    {landed : Bool}
    {before after : Thread}
    {record : PgEvent}
    (writing : Writing ctx nowNs landed before record after) :
    headerAccepted record = true := by
  cases writing with
  | emits event rest stage pending =>
      exact headerAccepted_pgEmitCopy ctx _ nowNs event
  | finishes stage ending =>
      exact headerAccepted_pgEmitCopy ctx _ nowNs _
  | fires what stage ending =>
      exact headerAccepted_pgEmitCopy ctx _ nowNs _
  | handles signal stage =>
      rfl

/-- The child stays explained when the thread that moves stands for its step. -/
theorem Explains.of_thread
    {fresh : List PgEvent}
    {label : Label n}
    (explains : Explains earlier child)
    (linked : next.Linked)
    (moved : Move child index taken next)
    (grown : next.stream = child.stream ++ fresh)
    (shut : child.fdOpen = false → next.fdOpen = false)
    (placed :
      Placed (earlier ++ [label]) next index (next.threads index))
    (accepted : ∀ record ∈ fresh, headerAccepted record = true)
    (closed : next.fdOpen = false → Done next.stream)
    (disarmed : ∀ signal, next.armed signal = false →
      child.armed signal = false ∨
        (next.threads index).ending = .crashes signal ∧
          (next.threads index).stage ≠ .running)
    (finished : Done fresh → Finished next) :
    Explains (earlier ++ [label]) next where
  linked := linked
  placed other := by
    by_cases here : other = index
    · exact here ▸ placed
    · rw [other_of_move moved here]
      refine (explains.placed other).mono label ?_ shut
      rw [grown]
      exact List.subset_append_left _ _
  accepted record member := by
    rw [grown] at member
    exact (List.mem_append.mp member).elim
      (explains.accepted record) (accepted record)
  closed := closed
  disarmed signal unarmed := by
    rcases disarmed signal unarmed with before | here
    · obtain ⟨other, ending, through⟩ := explains.disarmed signal before
      obtain ⟨sameEnding, stays⟩ := thread_of_move moved other
      exact ⟨other, sameEnding.trans ending, stays through⟩
    · exact ⟨index, here⟩
  finished := by
    rintro ⟨event, member, done⟩
    rw [grown] at member
    rcases List.mem_append.mp member with old | new
    · exact (explains.finished ⟨event, old, done⟩).step moved
    · exact finished ⟨event, new, done⟩

/-- A `write` that ends keeps the child explained, whether it lands or not. -/
theorem Explains.write
    {record : PgEvent}
    {thread : Thread}
    {label : Label n}
    (explains : Explains earlier child)
    (linked :
      ({ child.setThread index thread with
        stream :=
          if taken then child.stream ++ [record] else child.stream } :
            ChildProcess.State n).Linked)
    (moved :
      Move child index taken
        { child.setThread index thread with
          stream :=
            if taken then child.stream ++ [record] else child.stream })
    (writing :
      Writing child.ctx nowNs taken (child.threads index) record thread)
    (lost :
      taken = false →
        child.fdOpen = false ∨
          label = .interrupted index ∧
            ∃ signal, (child.threads index).stage = .inHandler signal) :
    Explains (earlier ++ [label])
      { child.setThread index thread with
        stream :=
          if taken then child.stream ++ [record] else child.stream } := by
  have self : (child.setThread index thread).threads index = thread :=
    Function.update_self _ _ _
  have own :
      Placed (earlier ++ [label]) child index (child.threads index) :=
    (explains.placed index).mono label (fun _ member => member) id
  cases taken with
  | true =>
      have done :
          child.fdOpen = false → Done (child.stream ++ [record]) := by
        intro shut
        obtain ⟨event, member, isDone⟩ := explains.closed shut
        exact ⟨event, List.mem_append_left _ member, isDone⟩
      refine explains.of_thread linked moved rfl id ?_ ?_ done
        (fun signal unarmed => Or.inl unarmed) ?_
      · rw [show ({ child.setThread index thread with
            stream := child.stream ++ [record] } :
              ChildProcess.State n).threads index = thread from self]
        refine placed_of_writing writing
          ((explains.placed index).mono label
            (List.subset_append_left _ _) id) done ?_
        exact Or.inl (List.mem_append_right _ List.mem_cons_self)
      · intro other member
        rw [List.mem_singleton.mp member]
        exact accepted_of_writing writing
      · rintro ⟨event, member, done⟩
        rw [List.mem_singleton.mp member] at done
        refine ⟨index, ?_⟩
        exact self.symm ▸ finishes_of_done writing
          (explains.linked.unforged index) done
  | false =>
      refine explains.of_thread linked moved (List.append_nil _).symm id
        ?_ (by simp) explains.closed
        (fun signal unarmed => Or.inl unarmed) (by simp [Done])
      rw [show ({ child.setThread index thread with
          stream := child.stream } :
            ChildProcess.State n).threads index = thread from self]
      refine placed_of_writing writing own explains.closed ?_
      rcases lost rfl with shut | ⟨rfl, handling⟩
      · exact Or.inr (Or.inl shut)
      · exact Or.inr (Or.inr
          ⟨List.mem_append_right _ List.mem_cons_self, handling⟩)

/-- A step of a thread keeps the child explained. -/
theorem Explains.step
    {label : Label n}
    (explains : Explains earlier child)
    (linked : next.Linked)
    (moved : Move child index taken next)
    (lost :
      taken = false →
        label = .interrupted index ∧
          ∃ signal, (child.threads index).stage = .inHandler signal) :
    Explains (earlier ++ [label]) next := by
  have own := explains.placed index
  have self (thread : Thread) :
      (child.setThread index thread).threads index = thread :=
    Function.update_self _ _ _
  cases moved with
  | begins record isOpen =>
      have moved : Move child index taken _ := .begins record isOpen
      refine explains.of_thread linked moved
        (List.append_nil _).symm id ?_ (by simp) explains.closed
        (fun signal unarmed => Or.inl unarmed) (by simp [Done])
      rw [self]
      exact own.mono label (fun _ member => member) id
  | refused nowNs record thread closed writing =>
      have moved : Move child index false _ :=
        .refused nowNs record thread closed writing
      exact explains.write (by exact linked) (by exact moved) writing
        fun _ => Or.inl closed
  | lands nowNs record thread inFlight writing =>
      exact explains.write linked (.lands nowNs record thread inFlight writing)
        writing fun dropped => Or.inr (lost dropped)
  | closes landed stage =>
      have moved : Move child index taken _ := .closes landed stage
      rw [Placed, stage] at own
      refine explains.of_thread linked moved (List.append_nil _).symm
        (fun _ => rfl) ?_ (by simp) (fun _ => own.2)
        (fun signal unarmed => Or.inl unarmed) (by simp [Done])
      rw [self]
      exact own
  | faults signal stage ending =>
      have moved : Move child index taken _ :=
        .faults signal stage ending
      refine explains.of_thread linked moved (List.append_nil _).symm id
        ?_ (by simp) explains.closed (fun other unarmed => ?_)
        (by simp [Done])
      · rw [self]
        exact ending
      · rw [self]
        by_cases here : other = signal
        · exact Or.inr ⟨here ▸ ending, by simp⟩
        · left
          rw [← unarmed]
          exact (Function.update_of_ne here _ _).symm
  | faultsAgain signal stage ending unarmed | dies stage =>
      exact ⟨linked,
        fun other => (explains.placed other).mono label
          (fun _ member => member) id,
        explains.accepted, explains.closed, explains.disarmed,
        explains.finished⟩

/-- A thread that ends the child explains the status of the child. -/
theorem Explains.ended
    (explains : Explains earlier child)
    (moved : Move child index taken next)
    (alive : child.alive = true)
    (dead : next.alive = false) :
    Ended rc earlier next (endThrough rc (child.threads index)) := by
  have own := explains.placed index
  cases moved with
  | begins record isOpen | refused nowNs record thread closed writing
  | lands nowNs record thread inFlight writing | closes landed stage
  | faults signal stage ending =>
      exact absurd (alive.symm.trans dead) (by simp)
  | faultsAgain signal stage ending unarmed =>
      rw [endThrough, stage, ending]
      refine Or.inr ⟨signal, rfl, ?_⟩
      obtain ⟨other, otherEnding, through⟩ :=
        explains.disarmed signal unarmed
      have placed := explains.placed other
      refine ⟨other, otherEnding, ?_⟩
      cases here : (child.threads other).stage with
      | running =>
          exact absurd here through
      | inHandler caught =>
          simp only [Placed, here, otherEnding,
            ChildProcess.Ending.crashes.injEq] at placed
          exact Or.inl (by rw [placed])
      | afterCrash landed =>
          simp only [Placed, here, otherEnding,
            ChildProcess.Ending.crashes.injEq] at placed
          obtain ⟨_, rfl, said⟩ := placed
          exact Or.inr ⟨landed, rfl, said⟩
      | afterDone landed | afterClose landed | afterWatchdog landed =>
          simp [Placed, here, otherEnding] at placed
  | dies stage =>
      obtain ⟨landed, stage | stage | stage⟩ := stage
      · rw [Placed, stage] at own
        rw [endThrough, stage]
        exact Or.inl ⟨rfl, own.2⟩
      · rw [Placed, stage] at own
        obtain ⟨⟨what, ending⟩, said⟩ := own
        rw [endThrough, stage]
        exact Or.inr (Or.inl
          ⟨rfl, index, landed, what, stage, ending, said⟩)
      · rw [Placed, stage] at own
        obtain ⟨signal, ending, said⟩ := own
        rw [endThrough, stage, ending]
        exact Or.inr
          ⟨signal, rfl, index, ending, Or.inr ⟨landed, stage, said⟩⟩

end Explanation

section Runs

/-- Only a thread in its handler has a `write` there. -/
theorem inHandler_of_handling
    {thread : Thread}
    (handles : handling thread = true) :
    ∃ signal, thread.stage = .inHandler signal := by
  unfold handling at handles
  split at handles
  · rename_i signal _ here _
    exact ⟨signal, here⟩
  · exact absurd handles Bool.false_ne_true

variable
  {n : Nat}
  {rc : Int}
  {earlier labels : List (Label n)}
  {label : Label n}
  {state next final : State n}

/-- What the parent has said, and of which status. -/
def Told
    (earlier : List (Label n))
    (state : State n)
    (text : List UInt8) : Prop :=
  ∃ status,
    text =
        verdict state.consumer.caller state.consumer.shown status ∧
      (state.status = some status ∨
        status = state.unwaited ∧ .reapFails ∈ earlier)

/-- What holds of a run at any time. -/
structure Explained
    (rc : Int)
    (earlier : List (Label n))
    (state : State n) : Prop where
  explains : Explains earlier state.child
  living : state.status = none ↔ state.child.alive = true
  ended :
    ∀ status, state.status = some status →
      Ended rc earlier state.child status
  told :
    ∀ text, state.said = some text →
      state.child.alive = false ∧ state.consumer.parent = .left ∧
        Told earlier state text
  inherited :
    (.terminated ∈ earlier ∨ ∃ index, .interrupted index ∈ earlier) →
      state.consumer.caller = .runScenario

/-- What is known of how a child ended stays known. -/
theorem Ended.mono
    {child : ChildProcess.State n}
    {status : WaitStatus}
    (ended : Ended rc earlier child status)
    (label : Label n) :
    Ended rc (earlier ++ [label]) child status := by
  cases status with
  | exited code =>
      exact ended.imp_right
        (Or.imp_right (And.imp_right (List.mem_append_left _)))
  | signaled number =>
      refine ended.imp (List.mem_append_left _) ?_
      rintro ⟨signal, same, index, ending, handles | ⟨landed, stage, said⟩⟩
      · exact ⟨signal, same, index, ending, Or.inl handles⟩
      · exact ⟨signal, same, index, ending, Or.inr ⟨landed, stage,
          said.imp_right (Or.imp_right (List.mem_append_left _))⟩⟩

/-- A child that was explained is so after a step of the parent. -/
theorem Explains.mono
    {child : ChildProcess.State n}
    (explains : Explains earlier child)
    (label : Label n) :
    Explains (earlier ++ [label]) child :=
  ⟨explains.linked,
    fun index => (explains.placed index).mono label
      (fun _ member => member) id,
    explains.accepted, explains.closed, explains.disarmed,
    explains.finished⟩

/-- A label whose child has the handlers is one of `run_scenario`. -/
theorem Explained.inherits
    (explained : Explained rc earlier state)
    (label : Label n)
    (own :
      (label = .terminated ∨ ∃ index, label = .interrupted index) →
        state.consumer.caller = .runScenario) :
    (.terminated ∈ earlier ++ [label] ∨
        ∃ index, .interrupted index ∈ earlier ++ [label]) →
      state.consumer.caller = .runScenario := by
  rintro (member | ⟨index, member⟩)
  · rcases List.mem_append.mp member with old | new
    · exact explained.inherited (Or.inl old)
    · exact own (Or.inl (List.mem_singleton.mp new).symm)
  · rcases List.mem_append.mp member with old | new
    · exact explained.inherited (Or.inr ⟨index, old⟩)
    · exact own (Or.inr ⟨index, (List.mem_singleton.mp new).symm⟩)

/-- A child that steps keeps the run explained. -/
theorem Explained.follow
    {childNext : ChildProcess.State n}
    {ended : WaitStatus}
    (explained : Explained rc earlier state)
    (alive : state.child.alive = true)
    (explains : Explains (earlier ++ [label]) childNext)
    (dies :
      childNext.alive = false →
        Ended rc (earlier ++ [label]) childNext ended)
    (own :
      (label = .terminated ∨ ∃ index, label = .interrupted index) →
        state.consumer.caller = .runScenario) :
    Explained rc (earlier ++ [label])
      (state.follow childNext ended) := by
  have running : state.status = none := explained.living.mpr alive
  constructor
  · exact explains
  · simp only [State.follow]
    split
    · rename_i alive
      exact iff_of_true running alive
    · rename_i dead
      exact iff_of_false (by simp) dead
  · intro status same
    simp only [State.follow] at same
    split at same
    · exact absurd (running.symm.trans same) (by simp)
    · rename_i dead
      simp only [Option.some.injEq] at same
      exact same ▸ dies (Bool.eq_false_iff.mpr dead)
  · intro text said
    have dead := (explained.told text said).1
    exact absurd (alive.symm.trans dead) (by simp)
  · exact explained.inherits label own

/-- A child that is ended from outside its threads stays explained. -/
theorem Explains.killed
    {child childNext : ChildProcess.State n}
    (explains : Explains earlier child)
    (label : Label n)
    (stepped : child.step? .killed = some childNext) :
    Explains (earlier ++ [label]) childNext := by
  have linked := explains.linked.step stepped
  simp only [ChildProcess.State.step?, Option.ite_none_right_eq_some,
    Option.some.injEq] at stepped
  obtain ⟨_, rfl⟩ := stepped
  exact ⟨linked, (explains.mono label).placed, explains.accepted,
    explains.closed, explains.disarmed, explains.finished⟩

/-- The parent's words about a status of the child are told. -/
theorem Explained.speak
    {status : WaitStatus}
    (explained : Explained rc earlier state)
    (label : Label n)
    (left : state.consumer.parent = .left)
    (dead : state.child.alive = false)
    (known :
      state.status = some status ∨
        status = state.unwaited ∧ label = .reapFails)
    (plain :
      ¬ (label = .terminated ∨ ∃ index, label = .interrupted index)) :
    Explained rc (earlier ++ [label]) (state.speak status) where
  explains := explained.explains.mono label
  living := explained.living
  ended same gone := (explained.ended same gone).mono label
  told text said := by
    obtain rfl := Option.some.inj said
    refine ⟨dead, left, status, rfl, known.imp_right ?_⟩
    rintro ⟨same, rfl⟩
    exact ⟨same, List.mem_append_right _ List.mem_cons_self⟩
  inherited := explained.inherits label fun own => absurd own plain

/-- Every step keeps the run explained. -/
theorem Explained.step
    (explained : Explained rc earlier state)
    (stepped : State.step? rc state label = some next) :
    Explained rc (earlier ++ [label]) next := by
  have explains := explained.explains
  cases label with
  | thread index nowNs =>
      obtain ⟨childNext, taken, rfl⟩ := Option.map_eq_some_iff.mp stepped
      obtain ⟨alive, moved⟩ := move_of_step? explains.linked taken
      have explainsNext :
          Explains (earlier ++ [.thread index nowNs]) childNext :=
        explains.step (explains.linked.step taken) moved (by simp)
      refine explained.follow alive explainsNext (fun dead => ?_) (by simp)
      exact (explains.ended moved alive dead).mono _
  | interrupted index =>
      simp only [State.step?, Option.ite_none_right_eq_some,
        Option.map_eq_some_iff] at stepped
      obtain ⟨⟨scenario, handles⟩, childNext, taken, rfl⟩ := stepped
      obtain ⟨alive, moved⟩ := move_of_step? explains.linked taken
      have explainsNext :
          Explains (earlier ++ [.interrupted index]) childNext :=
        explains.step (explains.linked.step taken) moved
          fun _ => ⟨rfl, inHandler_of_handling handles⟩
      refine explained.follow alive explainsNext (fun dead => ?_)
        fun _ => scenario
      exact (explains.ended moved alive dead).mono _
  | killed signal =>
      obtain ⟨childNext, taken, rfl⟩ := Option.map_eq_some_iff.mp stepped
      have alive := (ChildProcess.State.change_of_step? taken).1
      exact explained.follow alive (explains.killed _ taken)
        (fun _ => Or.inl (List.mem_append_right _ List.mem_cons_self))
        (by simp)
  | terminated =>
      simp only [State.step?, Option.ite_none_right_eq_some,
        Option.map_eq_some_iff] at stepped
      obtain ⟨scenario, childNext, taken, rfl⟩ := stepped
      have alive := (ChildProcess.State.change_of_step? taken).1
      refine explained.follow alive (explains.killed _ taken)
        (fun _ => ?_) fun _ => scenario
      exact Or.inr (Or.inr
        ⟨rfl, List.mem_append_right _ List.mem_cons_self⟩)
  | parent label =>
      simp only [State.step?, Option.ite_none_left_eq_some,
        Option.map_eq_some_iff] at stepped
      obtain ⟨own, consumer, taken, rfl⟩ := stepped
      refine ⟨explains.mono _, explained.living,
        fun status gone => (explained.ended status gone).mono _, ?_, ?_⟩
      · intro text said
        obtain ⟨dead, left, status, same, known⟩ :=
          explained.told text said
        obtain ⟨stays, shown⟩ := Consumers.State.left_step left taken
        refine ⟨dead, stays, status, ?_, known.imp_right
          (And.imp_right (List.mem_append_left _))⟩
        rw [shown, Consumers.State.caller_step taken]
        exact same
      · rw [Consumers.State.caller_step taken]
        exact explained.inherits _ (by simp)
  | reap =>
      simp only [State.step?, Option.ite_none_right_eq_some,
        Option.map_eq_some_iff] at stepped
      obtain ⟨⟨left, _⟩, status, gone, rfl⟩ := stepped
      have dead : state.child.alive = false := by
        refine Bool.eq_false_iff.mpr fun alive => ?_
        exact absurd ((explained.living.mpr alive).symm.trans gone)
          (by simp)
      exact explained.speak .reap left dead (Or.inl gone) (by simp)
  | reapFails =>
      simp only [State.step?, Option.ite_none_right_eq_some,
        Option.some.injEq] at stepped
      obtain ⟨⟨left, _, dead⟩, rfl⟩ := stepped
      exact explained.speak .reapFails left dead
        (Or.inr ⟨rfl, rfl⟩) (by simp)

/-- A child that has just been started is explained. -/
theorem explained_start
    (caller : RunLoop.Caller)
    (ctx : PgRunctx)
    (gThreadTags : Fin n → UInt32)
    {emissions : Fin n → List PgEvent}
    (unforged :
      ∀ index, ∀ event ∈ emissions index,
        ¬ ChildProcess.IsReserved event)
    (endings : Fin n → ChildProcess.Ending)
    (gLastExit : WaitStatus) :
    Explained rc []
      (State.start caller
        (ChildProcess.State.start ctx gThreadTags emissions endings)
        gLastExit) where
  explains := {
    linked :=
      ChildProcess.State.linked_start ctx gThreadTags unforged endings
    placed := fun _ => trivial
    accepted := fun _ member => absurd member List.not_mem_nil
    closed := fun closed => absurd closed.symm Bool.false_ne_true
    disarmed := fun _ unarmed => absurd unarmed.symm Bool.false_ne_true
    finished := fun ⟨_, member, _⟩ => absurd member List.not_mem_nil
  }
  living := iff_of_true rfl rfl
  ended := fun _ gone => absurd gone.symm (by simp [State.start])
  told := fun _ said => absurd said.symm (by simp [State.start])
  inherited := by
    rintro (member | ⟨_, member⟩)
    · exact absurd member List.not_mem_nil
    · exact absurd member List.not_mem_nil

/-- Every run is explained. -/
theorem explained_of_run
    (initially : Explained rc [] state)
    (ran : State.run? rc state labels = some final) :
    Explained rc labels final := by
  have kept :
      ∀ {earlier : List (Label n)} {before : State n} {label : Label n}
        {after : State n},
        Explained rc earlier before → True →
          State.step? rc before label = some after →
            Explained rc (earlier ++ [label]) after :=
    fun explained _ stepped => explained.step stepped
  exact Transition.run?_history (Explained rc) initially kept ran
    (Transition.eachStep_of_forall (fun _ _ => trivial) _)

end Runs

end FailurePlayground.RunVerdict
