import FailurePlayground.ChildProcess

namespace FailurePlayground.ChildProcess

/-!
# Fatal events end the stream

A watchdog's or a crash handler's record is to be the last of its run, and
`PG_EV_DONE` and `PG_EV_WATCHDOG` are to exclude each other.  Both are kept
when no thread sets out to end the child while another one could still speak;
whoever sets out earlier can be overtaken.
-/

section Stream

/-- Nothing follows a fatal record. -/
def FatalLast : List PgEvent → Prop
  | [] => True
  | event :: rest => (IsFatal event → rest = []) ∧ FatalLast rest

instance decidableFatalLast : (stream : List PgEvent) →
    Decidable (FatalLast stream)
  | [] => inferInstanceAs (Decidable True)
  | event :: rest =>
      have : Decidable (FatalLast rest) := decidableFatalLast rest
      inferInstanceAs (Decidable ((IsFatal event → rest = []) ∧ _))

/-- What the parent may rely on about the records of one run. -/
structure EndsStream (stream : List PgEvent) : Prop where
  /-- Nothing follows a watchdog's or a crash handler's record. -/
  fatalLast : FatalLast stream
  /-- `PG_EV_DONE` and `PG_EV_WATCHDOG` exclude each other. -/
  exclusive :
    ¬ ((∃ event ∈ stream, IsDone event) ∧
        ∃ event ∈ stream, IsWatchdog event)

/-- A record may be appended when none of the earlier ones is fatal. -/
theorem fatalLast_snoc
    (stream : List PgEvent)
    (record : PgEvent) :
    FatalLast (stream ++ [record]) ↔ ∀ event ∈ stream, ¬ IsFatal event := by
  induction stream with
  | nil =>
      simp [FatalLast]
  | cons event rest inductionHypothesis =>
      simp only [List.cons_append, FatalLast, inductionHypothesis,
        List.append_eq_nil_iff, List.cons_ne_nil, and_false,
        List.mem_cons, forall_eq_or_imp]

/-- When appending a record keeps the promise to the parent. -/
theorem endsStream_snoc
    (stream : List PgEvent)
    (record : PgEvent) :
    EndsStream (stream ++ [record]) ↔
      (∀ event ∈ stream, ¬ IsFatal event) ∧
        (IsWatchdog record → ∀ event ∈ stream, ¬ IsDone event) := by
  constructor
  · rintro ⟨fatalLast, exclusive⟩
    refine ⟨(fatalLast_snoc stream record).mp fatalLast, ?_⟩
    intro watchdog event member done
    exact exclusive
      ⟨⟨event, List.mem_append_left _ member, done⟩,
        ⟨record, List.mem_append_right _ List.mem_cons_self, watchdog⟩⟩
  · rintro ⟨none, apart⟩
    refine ⟨(fatalLast_snoc stream record).mpr none, ?_⟩
    rintro ⟨⟨done, doneMember, isDone⟩, ⟨fired, firedMember, watchdog⟩⟩
    rcases List.mem_append.mp firedMember with old | new
    · exact none fired old watchdog.fatal
    · obtain rfl := List.mem_singleton.mp new
      rcases List.mem_append.mp doneMember with doneOld | doneNew
      · exact apart watchdog done doneOld isDone
      · obtain rfl := List.mem_singleton.mp doneNew
        exact absurd (isDone.symm.trans watchdog) (by decide)

end Stream

namespace Thread

variable
  {ctx : PgRunctx}
  {nowNs : UInt64}
  {thread : Thread}
  {armed : Signal → Bool}

/-- The thread's fatal record is on its way into the pipe, or in it. -/
def ends (thread : Thread) : Bool :=
  thread.pastFatal || thread.inFlight.any fun record => IsFatal record

/-- The thread's `PG_EV_DONE` is on its way into the pipe, or in it. -/
def leaves (thread : Thread) : Bool :=
  thread.pastDone || thread.inFlight.any fun record => IsDone record

/-- A thread that begins a `write` has none in progress. -/
theorem begin_of_action
    {record : PgEvent}
    (acts : thread.action ctx nowNs = .begin record) :
    thread.inFlight = none ∧ thread.intent ctx nowNs = .begin record := by
  unfold action at acts
  split at acts
  · exact absurd acts (by simp)
  · rename_i idle
    exact ⟨idle, acts⟩

/-- A record lands that is in flight. -/
theorem land_of_action
    {record : PgEvent}
    (acts : thread.action ctx nowNs = .land record) :
    thread.inFlight = some record := by
  rcases thread with ⟨tag, pending, ending, stage, inFlight⟩
  cases inFlight with
  | some held =>
      simp only [action, Action.land.injEq] at acts
      rw [acts]
  | none =>
      cases stage with
      | running =>
          cases pending with
          | cons event rest =>
              simp [action, intent] at acts
          | nil =>
              cases ending with
              | hangs | finishes | fires what | crashes signal =>
                  simp [action, intent] at acts
      | afterDone earlier | afterClose earlier | afterWatchdog earlier
      | inHandler signal | afterCrash earlier =>
          simp [action, intent] at acts

/-- With fewer handlers armed no more is written. -/
theorem canWrite_mono
    {fewer : Signal → Bool}
    (subset : ∀ signal, fewer signal = true → armed signal = true)
    (writes : thread.canWrite fewer = true) :
    thread.canWrite armed = true := by
  rcases thread with ⟨tag, pending, ending, stage, inFlight⟩
  cases inFlight with
  | some record =>
      rfl
  | none =>
      cases stage with
      | running =>
          cases pending with
          | cons event rest =>
              rfl
          | nil =>
              cases ending with
              | crashes signal =>
                  exact subset signal writes
              | hangs | finishes | fires what =>
                  exact writes
      | afterDone earlier | afterClose earlier | afterWatchdog earlier
      | inHandler signal | afterCrash earlier =>
          exact writes

/-- A thread that closes its descriptor writes no more. -/
theorem canWrite_close
    (acts : thread.action ctx nowNs = .close) :
    (thread.after false).canWrite armed = false := by
  have idle := (quiet_of_action (Or.inl acts)).inFlight
  rcases thread with ⟨tag, pending, ending, stage, inFlight⟩
  obtain rfl : inFlight = none := idle
  cases stage with
  | running =>
      cases pending with
      | cons event rest =>
          simp [action, intent] at acts
      | nil =>
          cases ending with
          | hangs | finishes | fires what | crashes signal =>
              simp [action, intent] at acts
  | afterDone earlier =>
      rfl
  | afterClose earlier | afterWatchdog earlier | inHandler signal
  | afterCrash earlier =>
      simp [action, intent] at acts

/-- A thread that faults with its handler armed has the record to write. -/
theorem canWrite_fault
    {signal : Signal}
    (acts : thread.action ctx nowNs = .fault signal) :
    thread.canWrite armed = armed signal := by
  have idle := (quiet_of_action (Or.inr ⟨signal, acts⟩)).inFlight
  rcases thread with ⟨tag, pending, ending, stage, inFlight⟩
  obtain rfl : inFlight = none := idle
  cases stage with
  | running =>
      cases pending with
      | cons event rest =>
          simp [action, intent] at acts
      | nil =>
          cases ending with
          | crashes here =>
              simp only [action, intent, Action.fault.injEq] at acts
              rw [← acts]
              rfl
          | hangs | finishes | fires what =>
              simp [action, intent] at acts
  | afterDone earlier | afterClose earlier | afterWatchdog earlier
  | inHandler signal | afterCrash earlier =>
      simp [action, intent] at acts

end Thread

namespace State

variable
  {n : Nat}
  {state next final : State n}
  {label : Label n}

/--
A thread may begin to write a record: a fatal one when no other thread has a
record to write or a `write` in progress, and `PG_EV_DONE` when no other
thread is a watchdog that is still to fire.
-/
def MayBegin (state : State n) (index : Fin n) (record : PgEvent) : Prop :=
  (IsFatal record →
    ∀ other, other ≠ index →
      (state.threads other).canWrite state.armed = false) ∧
    (IsDone record →
      ∀ other, other ≠ index → (state.threads other).canFire = false)

instance (state : State n) (index : Fin n) (record : PgEvent) :
    Decidable (state.MayBegin index record) :=
  inferInstanceAs (Decidable
    ((IsFatal record → ∀ other, other ≠ index → _ = false) ∧
      (IsDone record → ∀ other, other ≠ index → _ = false)))

/-- An action begins a `write` only where it may. -/
def BeginsAlone (state : State n) (index : Fin n) : Action → Prop
  | .begin record => state.fdOpen = true → state.MayBegin index record
  | .land _ | .close | .die | .fault _ | .idle => True

instance (state : State n) (index : Fin n) : (action : Action) →
    Decidable (state.BeginsAlone index action)
  | .begin record =>
      inferInstanceAs
        (Decidable (state.fdOpen = true → state.MayBegin index record))
  | .land _ | .close | .die | .fault _ | .idle =>
      inferInstanceAs (Decidable True)

/-- No thread sets out to end the child while another could still speak. -/
def EndsAlone (state : State n) : Label n → Prop
  | .step index nowNs _ =>
      state.BeginsAlone index (state.action index nowNs)
  | .killed => True

instance (state : State n) : (label : Label n) →
    Decidable (state.EndsAlone label)
  | .step index nowNs _ =>
      inferInstanceAs
        (Decidable (state.BeginsAlone index (state.action index nowNs)))
  | .killed => inferInstanceAs (Decidable True)

/-- The thread that takes a step is replaced, the others stay. -/
theorem threads_setThread
    {motive : Fin n → Thread → Prop}
    {index : Fin n}
    {thread : Thread}
    (here : motive index thread)
    (there : ∀ other, other ≠ index → motive other (state.threads other))
    (other : Fin n) :
    motive other ((state.setThread index thread).threads other) := by
  by_cases same : other = index
  · subst same
    simp only [setThread, Function.update_self]
    exact here
  · simp only [setThread, Function.update_of_ne same]
    exact there other same

/-- A thread begins to write a record with this step. -/
def Begins
    (state : State n)
    (label : Label n)
    (index : Fin n)
    (record : PgEvent) : Prop :=
  ∃ nowNs taken,
    label = .step index nowNs taken ∧
      state.action index nowNs = .begin record ∧ state.fdOpen = true

/-- What a step can make of a thread. -/
structure Follows
    (begins : PgEvent → Prop)
    (armed fewer : Signal → Bool)
    (before after : Thread) : Prop where
  canWrite :
    after.canWrite fewer = true → before.canWrite armed = true
  canFire : after.canFire = true → before.canFire = true
  ends :
    after.ends = true →
      before.ends = true ∨ ∃ record, begins record ∧ IsFatal record
  leaves :
    after.leaves = true →
      before.leaves = true ∨ ∃ record, begins record ∧ IsDone record

/-- A thread that takes no step goes on as it was. -/
theorem Follows.same
    (begins : PgEvent → Prop)
    {armed fewer : Signal → Bool}
    (subset : ∀ signal, fewer signal = true → armed signal = true)
    (thread : Thread) :
    Follows begins armed fewer thread thread where
  canWrite := Thread.canWrite_mono subset
  canFire := id
  ends := Or.inl
  leaves := Or.inl

/-- The records in flight and in the pipe are those of their threads. -/
structure Linked (state : State n) : Prop where
  unforged : ∀ index, (state.threads index).Unforged
  flight :
    ∀ index record, (state.threads index).inFlight = some record →
      ∃ nowNs,
        (state.threads index).intent state.ctx nowNs = .begin record
  fatalStands :
    state.alive = true →
      (∃ event ∈ state.stream, IsFatal event) →
      ∃ index, (state.threads index).pastFatal = true
  doneStands :
    state.alive = true →
      (∃ event ∈ state.stream, IsDone event) →
      ∃ index, (state.threads index).pastDone = true

/-- The thread whose record lands is one that writes it. -/
theorem Linked.writes
    {index : Fin n}
    {record : PgEvent}
    (linked : state.Linked)
    (inFlight : (state.threads index).inFlight = some record) :
    (state.threads index).Writes record := by
  obtain ⟨nowNs, intends⟩ := linked.flight index record inFlight
  exact Thread.writes_of_intent (linked.unforged index) intends

/-- No step but the beginning of its record sets a thread out to end. -/
theorem Linked.follows
    (linked : state.Linked)
    (stepped : state.step? label = some next)
    (other : Fin n) :
    Follows (state.Begins label other) state.armed next.armed
      (state.threads other) (next.threads other) := by
  cases (change_of_step? stepped).2 with
  | begins index nowNs taken record acts isOpen =>
      obtain ⟨idle, intends⟩ := Thread.begin_of_action acts
      have writes :=
        Thread.writes_of_intent (linked.unforged index) intends
      refine threads_setThread
        (motive := fun other thread =>
          Follows (state.Begins _ other) state.armed state.armed
            (state.threads other) thread) ?_
        (fun other _ => .same _ (fun _ => id) _) other
      have begins : state.Begins (.step index nowNs taken) index record :=
        ⟨nowNs, taken, rfl, acts, isOpen⟩
      exact {
        canWrite := fun _ =>
          Thread.canWrite_of_intent state.armed intends
        canFire := id
        ends := fun ends => by
          have past :
              ((state.threads index).begun record).pastFatal = false :=
            writes.notPastFatal
          rw [Thread.ends, past, Bool.false_or] at ends
          exact Or.inr ⟨record, begins, of_decide_eq_true ends⟩
        leaves := fun leaves => by
          have past :
              ((state.threads index).begun record).pastDone = false :=
            writes.notPastDone
          rw [Thread.leaves, past, Bool.false_or] at leaves
          exact Or.inr ⟨record, begins, of_decide_eq_true leaves⟩
      }
  | refused index nowNs taken record acts closed =>
      obtain ⟨_, intends⟩ := Thread.begin_of_action acts
      have writes :=
        Thread.writes_of_intent (linked.unforged index) intends
      refine threads_setThread
        (motive := fun other thread =>
          Follows (state.Begins _ other) state.armed state.armed
            (state.threads other) thread) ?_
        (fun other _ => .same _ (fun _ => id) _) other
      exact {
        canWrite := fun _ =>
          Thread.canWrite_of_intent state.armed intends
        canFire := Thread.canFire_after
        ends := fun ends => by
          simp [Thread.ends, writes.afterFatal, writes.inFlight] at ends
        leaves := fun leaves => by
          simp [Thread.leaves, writes.afterDone, writes.inFlight] at leaves
      }
  | lands index nowNs taken record acts =>
      have inFlight := Thread.land_of_action acts
      have writes := linked.writes inFlight
      refine threads_setThread
        (motive := fun other thread =>
          Follows (state.Begins _ other) state.armed state.armed
            (state.threads other) thread) ?_
        (fun other _ => .same _ (fun _ => id) _) other
      exact {
        canWrite := fun _ => by simp only [Thread.canWrite, inFlight]
        canFire := Thread.canFire_after
        ends := fun ends => by
          simp only [Thread.ends, writes.afterFatal, writes.inFlight,
            Option.any_none, Bool.or_false, Bool.and_eq_true,
            decide_eq_true_eq] at ends
          refine Or.inl ?_
          simp only [Thread.ends, inFlight, Option.any_some,
            decide_eq_true ends.2, Bool.or_true]
        leaves := fun leaves => by
          simp only [Thread.leaves, writes.afterDone, writes.inFlight,
            Option.any_none, Bool.or_false, Bool.and_eq_true,
            decide_eq_true_eq] at leaves
          refine Or.inl ?_
          simp only [Thread.leaves, inFlight, Option.any_some,
            decide_eq_true leaves.2, Bool.or_true]
      }
  | closes index nowNs taken acts =>
      have quiet := Thread.quiet_of_action (Or.inl acts)
      refine threads_setThread
        (motive := fun other thread =>
          Follows (state.Begins _ other) state.armed state.armed
            (state.threads other) thread) ?_
        (fun other _ => .same _ (fun _ => id) _) other
      exact {
        canWrite := fun writes =>
          absurd ((Thread.canWrite_close acts).symm.trans writes) (by simp)
        canFire := Thread.canFire_after
        ends := fun ends => by
          simp [Thread.ends, quiet.afterFatal, quiet.afterFlight] at ends
        leaves := fun leaves => by
          simp only [Thread.leaves, quiet.afterDone, quiet.afterFlight,
            Option.any_none, Bool.or_false] at leaves
          exact Or.inl (by rw [Thread.leaves, leaves, Bool.true_or])
      }
  | faults index nowNs taken signal acts armed =>
      have quiet := Thread.quiet_of_action (Or.inr ⟨signal, acts⟩)
      have subset :
          ∀ other,
            Function.update state.armed signal false other = true →
              state.armed other = true := by
        intro other still
        by_cases same : other = signal
        · subst same
          simp at still
        · rwa [Function.update_of_ne same] at still
      refine threads_setThread
        (motive := fun other thread =>
          Follows (state.Begins _ other) state.armed
            (Function.update state.armed signal false)
            (state.threads other) thread) ?_
        (fun other _ => .same _ subset _) other
      exact {
        canWrite := fun _ => (Thread.canWrite_fault acts).trans armed
        canFire := Thread.canFire_after
        ends := fun ends => by
          simp [Thread.ends, quiet.afterFatal, quiet.afterFlight] at ends
        leaves := fun leaves => by
          simp only [Thread.leaves, quiet.afterDone, quiet.afterFlight,
            Option.any_none, Bool.or_false] at leaves
          exact Or.inl (by rw [Thread.leaves, leaves, Bool.true_or])
      }
  | dies label silent =>
      exact .same _ (fun _ => id) _

/--
A thread whose fatal record is on its way is the only one that still writes,
and none whose watchdog is to fire stands beside one that leaves.
-/
structure Alone (state : State n) : Prop where
  fatal :
    ∀ index, (state.threads index).ends = true →
      ∀ other, other ≠ index →
        (state.threads other).canWrite state.armed = false
  done :
    ∀ index, (state.threads index).leaves = true →
      ∀ other, other ≠ index → (state.threads other).canFire = false

/-- A guarded step keeps the thread that ends the child alone. -/
theorem Alone.step
    (alone : state.Alone)
    (linked : state.Linked)
    (guarded : state.EndsAlone label)
    (stepped : state.step? label = some next) :
    next.Alone := by
  have mayBegin :
      ∀ {index record}, state.Begins label index record →
        state.MayBegin index record := by
    rintro index record ⟨nowNs, taken, rfl, acts, isOpen⟩
    simp only [EndsAlone, acts, BeginsAlone] at guarded
    exact guarded isOpen
  constructor
  · intro index ends other different
    refine Bool.eq_false_iff.mpr fun writes => ?_
    have before := (linked.follows stepped other).canWrite writes
    rcases (linked.follows stepped index).ends ends with
      already | ⟨record, begins, fatal⟩
    · rw [alone.fatal index already other different] at before
      exact absurd before Bool.false_ne_true
    · rw [(mayBegin begins).1 fatal other different] at before
      exact absurd before Bool.false_ne_true
  · intro index leaves other different
    refine Bool.eq_false_iff.mpr fun fires => ?_
    have before := (linked.follows stepped other).canFire fires
    rcases (linked.follows stepped index).leaves leaves with
      already | ⟨record, begins, done⟩
    · rw [alone.done index already other different] at before
      exact absurd before Bool.false_ne_true
    · rw [(mayBegin begins).2 done other different] at before
      exact absurd before Bool.false_ne_true

/-- Beside a thread that ends the child alone no record breaks the promise. -/
theorem Alone.endsStream_snoc
    {index : Fin n}
    {record : PgEvent}
    (alone : state.Alone)
    (linked : state.Linked)
    (alive : state.alive = true)
    (inFlight : (state.threads index).inFlight = some record) :
    EndsStream (state.stream ++ [record]) := by
  have writes := linked.writes inFlight
  rw [ChildProcess.endsStream_snoc]
  constructor
  · intro event member fatal
    obtain ⟨other, past⟩ :=
      linked.fatalStands alive ⟨event, member, fatal⟩
    have different : index ≠ other := by
      rintro rfl
      rw [writes.notPastFatal] at past
      exact absurd past Bool.false_ne_true
    have silent :=
      alone.fatal other (by rw [Thread.ends, past, Bool.true_or]) index
        different
    simp only [Thread.canWrite, inFlight] at silent
    exact absurd silent.symm Bool.false_ne_true
  · intro watchdog event member done
    obtain ⟨other, past⟩ :=
      linked.doneStands alive ⟨event, member, done⟩
    have different : index ≠ other := by
      rintro rfl
      rw [writes.notPastDone] at past
      exact absurd past Bool.false_ne_true
    have silent :=
      alone.done other (by rw [Thread.leaves, past, Bool.true_or]) index
        different
    rw [writes.fires watchdog] at silent
    exact absurd silent.symm Bool.false_ne_true

/-- A step leaves the stream alone, or puts the record of a thread into it. -/
theorem stream_of_step?
    (stepped : state.step? label = some next) :
    next.stream = state.stream ∨
      ∃ index record,
        (state.threads index).inFlight = some record ∧
          next.stream = state.stream ++ [record] ∧
          next.threads index = (state.threads index).after true := by
  cases (change_of_step? stepped).2 with
  | begins index nowNs taken record acts isOpen
  | refused index nowNs taken record acts closed
  | closes index nowNs taken acts
  | faults index nowNs taken signal acts armed
  | dies label silent =>
      exact Or.inl rfl
  | lands index nowNs taken record acts =>
      cases taken with
      | true =>
          refine Or.inr
            ⟨index, record, Thread.land_of_action acts, rfl, ?_⟩
          simp only [setThread, Function.update_self]
      | false =>
          exact Or.inl rfl

/-- What stands at the end of the child keeps standing there. -/
theorem Linked.keeps
    (linked : state.Linked)
    (stepped : state.step? label = some next)
    (other : Fin n) :
    ((state.threads other).pastFatal = true →
        (next.threads other).pastFatal = true) ∧
      ((state.threads other).pastDone = true →
        (next.threads other).pastDone = true) := by
  have writing
      {index : Fin n}
      {record : PgEvent}
      (writes : (state.threads index).Writes record)
      (thread : Thread) :
      ((state.threads other).pastFatal = true →
          ((state.setThread index thread).threads other).pastFatal =
            true) ∧
        ((state.threads other).pastDone = true →
          ((state.setThread index thread).threads other).pastDone =
            true) := by
    by_cases same : other = index
    · subst same
      exact ⟨fun past =>
          absurd (writes.notPastFatal.symm.trans past) (by simp),
        fun past => absurd (writes.notPastDone.symm.trans past) (by simp)⟩
    · simp only [setThread, Function.update_of_ne same]
      exact ⟨id, id⟩
  have quietly
      {index : Fin n}
      (quiet : (state.threads index).Quiet) :
      ((state.threads other).pastFatal = true →
          ((state.setThread index
            ((state.threads index).after false)).threads
              other).pastFatal = true) ∧
        ((state.threads other).pastDone = true →
          ((state.setThread index
            ((state.threads index).after false)).threads
              other).pastDone = true) := by
    by_cases same : other = index
    · subst same
      simp only [setThread, Function.update_self, quiet.afterDone]
      exact ⟨fun past =>
        absurd (quiet.notPastFatal.symm.trans past) (by simp), id⟩
    · simp only [setThread, Function.update_of_ne same]
      exact ⟨id, id⟩
  cases (change_of_step? stepped).2 with
  | begins index nowNs taken record acts isOpen
  | refused index nowNs taken record acts closed =>
      exact writing
        (Thread.writes_of_intent (linked.unforged index)
          (Thread.begin_of_action acts).2) _
  | lands index nowNs taken record acts =>
      exact writing (linked.writes (Thread.land_of_action acts)) _
  | closes index nowNs taken acts =>
      exact quietly (Thread.quiet_of_action (Or.inl acts))
  | faults index nowNs taken signal acts armed =>
      exact quietly (Thread.quiet_of_action (Or.inr ⟨signal, acts⟩))
  | dies label silent =>
      exact ⟨id, id⟩

/-- The threads have no more to emit, and their writes are their own. -/
theorem Linked.threads_step
    (linked : state.Linked)
    (stepped : state.step? label = some next)
    (other : Fin n) :
    (next.threads other).Unforged ∧
      ∀ record, (next.threads other).inFlight = some record →
        ∃ nowNs,
          (next.threads other).intent next.ctx nowNs =
            .begin record := by
  have kept (other : Fin n) :
      (state.threads other).Unforged ∧
        ∀ record, (state.threads other).inFlight = some record →
          ∃ nowNs,
            (state.threads other).intent state.ctx nowNs =
              .begin record :=
    ⟨linked.unforged other, linked.flight other⟩
  have idle
      {index : Fin n}
      {landed : Bool}
      (none : ((state.threads index).after landed).inFlight = none) :
      ∀ other,
        ((state.setThread index
          ((state.threads index).after landed)).threads
            other).Unforged ∧
          ∀ record,
            ((state.setThread index
              ((state.threads index).after landed)).threads
                other).inFlight = some record →
              ∃ nowNs,
                ((state.setThread index
                  ((state.threads index).after landed)).threads
                    other).intent state.ctx nowNs = .begin record := by
    refine threads_setThread
      (motive := fun _ thread =>
        thread.Unforged ∧
          ∀ record, thread.inFlight = some record →
            ∃ nowNs, thread.intent state.ctx nowNs = .begin record) ?_
      (fun other _ => kept other)
    refine ⟨(linked.unforged index).after, fun record held => ?_⟩
    rw [none] at held
    exact absurd held (by simp)
  cases (change_of_step? stepped).2 with
  | begins index nowNs taken record acts isOpen =>
      refine threads_setThread
        (motive := fun _ thread =>
          thread.Unforged ∧
            ∀ record, thread.inFlight = some record →
              ∃ nowNs, thread.intent state.ctx nowNs = .begin record) ?_
        (fun other _ => kept other) other
      refine ⟨linked.unforged index, fun held same => ?_⟩
      obtain rfl := Option.some.inj same
      exact ⟨nowNs, (Thread.begin_of_action acts).2⟩
  | refused index nowNs taken record acts closed =>
      have writes :=
        Thread.writes_of_intent (linked.unforged index)
          (Thread.begin_of_action acts).2
      exact idle (writes.inFlight false) other
  | lands index nowNs taken record acts =>
      have writes := linked.writes (Thread.land_of_action acts)
      exact idle (writes.inFlight taken) other
  | closes index nowNs taken acts =>
      exact idle (Thread.quiet_of_action (Or.inl acts)).afterFlight other
  | faults index nowNs taken signal acts armed =>
      exact idle
        (Thread.quiet_of_action (Or.inr ⟨signal, acts⟩)).afterFlight other
  | dies label silent =>
      exact kept other

/-- Whoever's record is in the stream stands at the child's end. -/
theorem Linked.stands_step
    {trace : Thread → Bool}
    {holds : PgEvent → Prop}
    (stepped : state.step? label = some next)
    (kept :
      ∀ other, trace (state.threads other) = true →
        trace (next.threads other) = true)
    (traced :
      ∀ index record, (state.threads index).inFlight = some record →
        holds record → trace ((state.threads index).after true) = true)
    (before :
      (∃ event ∈ state.stream, holds event) →
        ∃ index, trace (state.threads index) = true)
    (present : ∃ event ∈ next.stream, holds event) :
    ∃ index, trace (next.threads index) = true := by
  obtain ⟨event, member, found⟩ := present
  rcases stream_of_step? stepped with
    same | ⟨index, record, inFlight, grown, moved⟩
  · rw [same] at member
    obtain ⟨index, past⟩ := before ⟨event, member, found⟩
    exact ⟨index, kept index past⟩
  · rw [grown] at member
    rcases List.mem_append.mp member with old | new
    · obtain ⟨index, past⟩ := before ⟨event, old, found⟩
      exact ⟨index, kept index past⟩
    · obtain rfl := List.mem_singleton.mp new
      exact ⟨index, by rw [moved]; exact traced index event inFlight found⟩

/-- Every step keeps the threads and the records linked. -/
theorem Linked.step
    (linked : state.Linked)
    (stepped : state.step? label = some next) :
    next.Linked where
  unforged other := (linked.threads_step stepped other).1
  flight other := (linked.threads_step stepped other).2
  fatalStands _ := by
    refine stands_step stepped
      (fun other => (linked.keeps stepped other).1)
      (fun index record inFlight fatal => ?_)
      (linked.fatalStands (change_of_step? stepped).1)
    rw [(linked.writes inFlight).afterFatal, decide_eq_true fatal]
    rfl
  doneStands _ := by
    refine stands_step stepped
      (fun other => (linked.keeps stepped other).2)
      (fun index record inFlight done => ?_)
      (linked.doneStands (change_of_step? stepped).1)
    rw [(linked.writes inFlight).afterDone, decide_eq_true done]
    rfl

/-- While no thread sets out to end the child beside another's record. -/
structure Orderly (state : State n) : Prop where
  linked : state.Linked
  alone : state.Alone
  ends : EndsStream state.stream

/-- A guarded step keeps the promise. -/
theorem Orderly.step
    (orderly : state.Orderly)
    (guarded : state.EndsAlone label)
    (stepped : state.step? label = some next) :
    next.Orderly where
  linked := orderly.linked.step stepped
  alone := orderly.alone.step orderly.linked guarded stepped
  ends := by
    have alive := (change_of_step? stepped).1
    rcases stream_of_step? stepped with
      same | ⟨index, record, inFlight, grown, _⟩
    · rw [same]
      exact orderly.ends
    · rw [grown]
      exact orderly.alone.endsStream_snoc orderly.linked alive inFlight

/-- A child that has just started has no record anywhere. -/
theorem linked_start
    (ctx : PgRunctx)
    (gThreadTags : Fin n → UInt32)
    {emissions : Fin n → List PgEvent}
    (unforged : ∀ index, ∀ event ∈ emissions index, ¬ IsReserved event)
    (endings : Fin n → Ending) :
    (start ctx gThreadTags emissions endings).Linked where
  unforged := unforged
  flight _ _ held := absurd held (by simp [start])
  fatalStands _ present := by
    obtain ⟨_, member, _⟩ := present
    exact (List.not_mem_nil member).elim
  doneStands _ present := by
    obtain ⟨_, member, _⟩ := present
    exact (List.not_mem_nil member).elim

/-- Nor does one of its threads stand at its end. -/
theorem orderly_start
    (ctx : PgRunctx)
    (gThreadTags : Fin n → UInt32)
    {emissions : Fin n → List PgEvent}
    (unforged : ∀ index, ∀ event ∈ emissions index, ¬ IsReserved event)
    (endings : Fin n → Ending) :
    (start ctx gThreadTags emissions endings).Orderly where
  linked := linked_start ctx gThreadTags unforged endings
  alone := {
    fatal := fun _ ends => absurd ends Bool.false_ne_true
    done := fun _ leaves => absurd leaves Bool.false_ne_true
  }
  ends := ⟨trivial, by simp [start]⟩

section Overtaken

/-- Beginning a `write` changes nothing of what comes after it. -/
theorem after_begun
    {ctx : PgRunctx}
    {nowNs : UInt64}
    {thread : Thread}
    {record : PgEvent}
    (intends : thread.intent ctx nowNs = .begin record)
    (landed : Bool) :
    (thread.begun record).after landed = thread.after landed := by
  rcases thread with ⟨tag, pending, ending, stage, inFlight⟩
  cases stage with
  | running =>
      cases pending with
      | cons event rest =>
          rfl
      | nil =>
          cases ending with
          | finishes | fires what =>
              rfl
          | hangs | crashes signal =>
              simp [Thread.intent] at intends
  | inHandler signal =>
      rfl
  | afterDone earlier | afterClose earlier | afterWatchdog earlier
  | afterCrash earlier =>
      simp [Thread.intent] at intends

/-- The record of a `write` in progress can land. -/
theorem step?_land
    {index : Fin n}
    {record : PgEvent}
    (alive : state.alive = true)
    (inFlight : (state.threads index).inFlight = some record) :
    state.step? (.step index 0 true) =
      some
        { state.setThread index ((state.threads index).after true) with
          stream := state.stream ++ [record] } := by
  have acts : state.action index 0 = .land record := by
    simp only [action, Thread.action, inFlight]
  simp only [step?, alive, acts, ↓reduceIte]

/-- A thread with a record to write can write it. -/
theorem run?_speak
    {index : Fin n}
    {record : PgEvent}
    (alive : state.alive = true)
    (isOpen : state.fdOpen = true)
    (idle : (state.threads index).inFlight = none)
    (intends : (state.threads index).intent state.ctx 0 = .begin record) :
    state.run? [.step index 0 true, .step index 0 true] =
      some
        { state.setThread index ((state.threads index).after true) with
          stream := state.stream ++ [record] } := by
  have acts : state.action index 0 = .begin record := by
    simp only [action, Thread.action, idle, intends]
  have begun :
      state.step? (.step index 0 true) =
        some (state.setThread index
          ((state.threads index).begun record)) := by
    simp only [step?, alive, acts, isOpen, ↓reduceIte]
  have here :
      (state.setThread index
        ((state.threads index).begun record)).threads index =
          (state.threads index).begun record :=
    Function.update_self _ _ _
  have inFlight :
      ((state.setThread index
        ((state.threads index).begun record)).threads index).inFlight =
          some record := by
    rw [here]
    rfl
  have landed := step?_land (by exact alive) inFlight
  rw [here, after_begun intends] at landed
  refine Transition.run?_cons_eq_some.mpr ⟨_, begun,
    Transition.run?_cons_eq_some.mpr ⟨_, landed, ?_⟩⟩
  simp only [setThread, Function.update_idem]
  rfl

/-- A thread that can write is about to, or is about to enter its handler. -/
theorem speaks_of_canWrite
    {armed : Signal → Bool}
    {thread : Thread}
    (idle : thread.inFlight = none)
    (writes : thread.canWrite armed = true)
    (ctx : PgRunctx)
    (nowNs : UInt64) :
    (∃ record, thread.intent ctx nowNs = .begin record) ∨
      ∃ signal,
        armed signal = true ∧
          thread.intent ctx nowNs = .fault signal ∧
          (thread.after false).inFlight = none ∧
          (thread.after false).intent ctx nowNs =
            .begin (crashEvent signal) := by
  rcases thread with ⟨tag, pending, ending, stage, inFlight⟩
  obtain rfl : inFlight = none := idle
  cases stage with
  | running =>
      cases pending with
      | cons event rest =>
          exact Or.inl ⟨_, rfl⟩
      | nil =>
          cases ending with
          | finishes | fires what =>
              exact Or.inl ⟨_, rfl⟩
          | crashes signal =>
              exact Or.inr ⟨signal, writes, rfl, rfl, rfl⟩
          | hangs =>
              exact absurd writes Bool.false_ne_true
  | inHandler signal =>
      exact Or.inl ⟨_, rfl⟩
  | afterDone earlier | afterClose earlier | afterWatchdog earlier
  | afterCrash earlier =>
      exact absurd writes Bool.false_ne_true

/-- A thread that can write can put a record into the pipe. -/
theorem exists_run_of_canWrite
    {index : Fin n}
    (alive : state.alive = true)
    (isOpen : state.fdOpen = true)
    (writes : (state.threads index).canWrite state.armed = true) :
    ∃ labels final record,
      state.run? labels = some final ∧
        final.stream = state.stream ++ [record] := by
  cases inFlight : (state.threads index).inFlight with
  | some record =>
      exact ⟨[.step index 0 true], _, record,
        Transition.run?_cons_eq_some.mpr
          ⟨_, step?_land alive inFlight, rfl⟩, rfl⟩
  | none =>
      rcases speaks_of_canWrite inFlight writes state.ctx 0 with
        ⟨record, intends⟩ | ⟨signal, armed, faults, idle, handles⟩
      · exact ⟨_, _, record, run?_speak alive isOpen inFlight intends, rfl⟩
      · have acts : state.action index 0 = .fault signal := by
          simp only [action, Thread.action, inFlight, faults]
        have faulted :
            state.step? (.step index 0 true) =
              some
                { state.setThread index
                    ((state.threads index).after false) with
                  armed := Function.update state.armed signal false } := by
          simp only [step?, alive, acts, armed, ↓reduceIte]
        have here :
            (state.setThread index
              ((state.threads index).after false)).threads index =
                (state.threads index).after false :=
          Function.update_self _ _ _
        have spoken :=
          @run?_speak n
            { state.setThread index
                ((state.threads index).after false) with
              armed := Function.update state.armed signal false }
            index (crashEvent signal) alive isOpen
            (by rw [here]; exact idle) (by rw [here]; exact handles)
        exact ⟨_, _, _,
          Transition.run?_cons_eq_some.mpr ⟨_, faulted, spoken⟩, rfl⟩

/-- A watchdog that has begun nothing can come to its record. -/
theorem exists_run_of_fires
    {index : Fin n}
    {tag : UInt32}
    {pending : List PgEvent}
    {what : List UInt8}
    (alive : state.alive = true)
    (isOpen : state.fdOpen = true)
    (here :
      state.threads index =
        ⟨tag, pending, .fires what, .running, none⟩) :
    ∃ labels final extra,
      state.run? labels = some final ∧
        final.stream = state.stream ++ extra ∧
        ∃ event ∈ extra, IsWatchdog event := by
  induction pending generalizing state with
  | nil =>
      refine ⟨_, _, _, run?_speak alive isOpen (by rw [here])
        (by rw [here]; rfl), rfl, _, List.mem_cons_self, ?_⟩
      exact kind_pgEmitCopy _ _ _ _
  | cons event rest inductionHypothesis =>
      have spoken :
          state.run? [.step index 0 true, .step index 0 true] = _ :=
        run?_speak alive isOpen (by rw [here]) (by rw [here]; rfl)
      obtain ⟨labels, final, extra, ran, whole, barks⟩ :=
        @inductionHypothesis
          { state.setThread index
              ((state.threads index).after true) with
            stream := state.stream ++
              [pgEmitCopy state.ctx tag 0 event] }
          alive isOpen
          (by
            simp only [setThread, Function.update_self, here]
            rfl)
      refine ⟨_, final, pgEmitCopy state.ctx tag 0 event :: extra,
        Transition.run?_append spoken ran, ?_, ?_⟩
      · rw [whole, List.append_assoc]
        rfl
      · obtain ⟨event, member, watchdog⟩ := barks
        exact ⟨event, List.mem_cons_of_mem _ member, watchdog⟩

/-- A watchdog that is still to fire can come to its record. -/
theorem Linked.exists_run_of_canFire
    {index : Fin n}
    (linked : state.Linked)
    (alive : state.alive = true)
    (isOpen : state.fdOpen = true)
    (fires : (state.threads index).canFire = true) :
    ∃ labels final extra,
      state.run? labels = some final ∧
        final.stream = state.stream ++ extra ∧
        ∃ event ∈ extra, IsWatchdog event := by
  rcases here : state.threads index with
    ⟨tag, pending, ending, stage, inFlight⟩
  rw [here] at fires
  cases stage with
  | running =>
      cases ending with
      | fires what =>
          cases inFlight with
          | none =>
              exact exists_run_of_fires alive isOpen here
          | some record =>
              have held : (state.threads index).inFlight = some record := by
                rw [here]
              obtain ⟨nowNs, intends⟩ := linked.flight index record held
              have landed := step?_land alive held
              rw [here] at intends landed
              cases pending with
              | nil =>
                  refine ⟨[.step index 0 true], _, [record],
                    Transition.run?_cons_eq_some.mpr
                      ⟨_, landed, rfl⟩, rfl, _, List.mem_cons_self, ?_⟩
                  simp only [Thread.intent, Action.begin.injEq] at intends
                  rw [← intends]
                  exact kind_pgEmitCopy _ _ _ _
              | cons event rest =>
                  obtain ⟨labels, final, extra, ran, whole, barks⟩ :=
                    @exists_run_of_fires n
                      { state.setThread index
                          ⟨tag, rest, .fires what, .running, none⟩ with
                        stream := state.stream ++ [record] }
                      index tag rest what alive isOpen
                      (Function.update_self _ _ _)
                  refine ⟨_, final, record :: extra,
                    Transition.run?_cons_eq_some.mpr ⟨_, landed, ran⟩,
                    ?_, ?_⟩
                  · rw [whole, List.append_assoc]
                    rfl
                  · obtain ⟨event, member, watchdog⟩ := barks
                    exact ⟨event, List.mem_cons_of_mem _ member, watchdog⟩
      | hangs | finishes | crashes signal =>
          exact absurd fires Bool.false_ne_true
  | afterDone earlier | afterClose earlier | afterWatchdog earlier
  | inHandler signal | afterCrash earlier =>
      exact absurd fires Bool.false_ne_true

/-- A record that a thread has begun to write can land next. -/
theorem exists_landed
    {index : Fin n}
    {record : PgEvent}
    (alive : state.alive = true) :
    ∃ after,
      (state.setThread index
          ((state.threads index).begun record)).step?
            (.step index 0 true) = some after ∧
        after.stream = state.stream ++ [record] ∧
        after.alive = true ∧ after.fdOpen = state.fdOpen ∧
        after.armed = state.armed ∧
        ∀ other, other ≠ index →
          after.threads other = state.threads other := by
  have held :
      ((state.setThread index
        ((state.threads index).begun record)).threads index).inFlight =
          some record := by
    simp only [setThread, Function.update_self]
    rfl
  refine ⟨_, step?_land (by exact alive) held, rfl, alive, rfl, rfl, ?_⟩
  intro other different
  simp only [setThread, Function.update_of_ne different]

/-- Whoever sets out beside another's record can be overtaken by it. -/
theorem Linked.overtaken
    (linked : state.Linked)
    (stepped : state.step? label = some next)
    (beside : ¬ state.EndsAlone label) :
    ∃ later final,
      next.run? later = some final ∧ ¬ EndsStream final.stream := by
  have linkedNext := linked.step stepped
  obtain ⟨alive, change⟩ := change_of_step? stepped
  cases change with
  | begins index nowNs taken record acts isOpen =>
      obtain ⟨after, landed, stream, living, still, armed, stays⟩ :=
        @exists_landed n state index record alive
      have linkedAfter := linkedNext.step landed
      have writable : after.fdOpen = true := still.trans isOpen
      simp only [EndsAlone, acts, BeginsAlone, isOpen, true_implies,
        MayBegin, not_and_or, Classical.not_imp, not_forall,
        Bool.not_eq_false] at beside
      rcases beside with
        ⟨fatal, other, different, writes⟩ |
          ⟨done, other, different, fires⟩
      · rw [← stays other different, ← armed] at writes
        obtain ⟨labels, final, later, ran, whole⟩ :=
          exists_run_of_canWrite living writable writes
        refine ⟨_, final,
          Transition.run?_cons_eq_some.mpr ⟨_, landed, ran⟩, ?_⟩
        rw [whole, stream, ChildProcess.endsStream_snoc]
        intro kept
        exact kept.1 record
          (List.mem_append_right _ List.mem_cons_self) fatal
      · rw [← stays other different] at fires
        obtain ⟨labels, final, extra, ran, whole, event, member, fired⟩ :=
          linkedAfter.exists_run_of_canFire living writable fires
        refine ⟨_, final,
          Transition.run?_cons_eq_some.mpr ⟨_, landed, ran⟩, ?_⟩
        rw [whole, stream]
        intro kept
        refine kept.exclusive ⟨⟨record, ?_, done⟩, event, ?_, fired⟩
        · exact List.mem_append_left _
            (List.mem_append_right _ List.mem_cons_self)
        · exact List.mem_append_right _ member
  | refused index nowNs taken record acts closed =>
      refine absurd ?_ beside
      simp only [EndsAlone, acts, BeginsAlone, closed,
        Bool.false_eq_true, false_implies]
  | lands index nowNs taken record acts
  | closes index nowNs taken acts
  | faults index nowNs taken signal acts armed =>
      refine absurd ?_ beside
      simp only [EndsAlone, acts, BeginsAlone]
  | dies label silent =>
      refine absurd ?_ beside
      cases label with
      | killed =>
          exact trivial
      | step index nowNs taken =>
          simp only [EndsAlone]
          cases acts : state.action index nowNs with
          | begin record =>
              exact absurd acts (silent index nowNs taken record rfl)
          | land record | close | die | fault signal | idle =>
              exact trivial

end Overtaken

/-- Past its fatal record a thread ends the child. -/
theorem Linked.action_of_pastFatal
    {index : Fin n}
    (linked : state.Linked)
    (past : (state.threads index).pastFatal = true)
    (nowNs : UInt64) :
    state.action index nowNs = .die := by
  have idle : (state.threads index).inFlight = none := by
    by_contra busy
    obtain ⟨record, inFlight⟩ := Option.ne_none_iff_exists'.mp busy
    have before := (linked.writes inFlight).notPastFatal
    exact absurd (before.symm.trans past) (by simp)
  simp only [action, Thread.action, idle]
  exact Thread.intent_of_pastFatal past

end State

/--
When no scenario thread emits the reserved kinds itself, the records of a run
keep the promise to the parent if no thread began to write its fatal record
while another had one to write, or `PG_EV_DONE` while another's watchdog was
to fire; after a step that does, the promise can be broken.  Once a fatal
record is in the pipe, a thread has only the child's end to do.
-/
theorem fatalEvents_exact
    {n : Nat}
    (ctx : PgRunctx)
    (gThreadTags : Fin n → UInt32)
    (emissions : Fin n → List PgEvent)
    (endings : Fin n → Ending)
    (unforged : ∀ index, ∀ event ∈ emissions index, ¬ IsReserved event)
    (labels : List (Label n))
    (state : State n)
    (ran :
      (State.start ctx gThreadTags emissions endings).run? labels =
        some state) :
    (Transition.EachStep State.step? State.EndsAlone
        (State.start ctx gThreadTags emissions endings) labels →
      EndsStream state.stream) ∧
      (∀ label next,
        state.step? label = some next →
        ¬ state.EndsAlone label →
        ∃ later final,
          next.run? later = some final ∧ ¬ EndsStream final.stream) ∧
      (state.alive = true →
        (∃ event ∈ state.stream, IsFatal event) →
        ∃ index, ∀ nowNs, state.action index nowNs = .die) := by
  have linked : state.Linked :=
    Transition.run?_invariant State.Linked.step ran
      (State.linked_start ctx gThreadTags unforged endings)
  refine ⟨fun guarded => ?_, fun label next stepped beside => ?_,
    fun alive present => ?_⟩
  · have orderly : state.Orderly :=
      Transition.run?_invariant_of_eachStep State.Orderly.step ran guarded
        (State.orderly_start ctx gThreadTags unforged endings)
    exact orderly.ends
  · exact linked.overtaken stepped beside
  · obtain ⟨index, past⟩ := linked.fatalStands alive present
    exact ⟨index, fun nowNs => linked.action_of_pastFatal past nowNs⟩

/-- A main thread, a worker that logs and hangs, and a watchdog. -/
def watchedChild (main : Ending) : State 3 :=
  State.start { eventFdW := 4, threadTag := 0, startNs := 100 }
    (fun index => UInt32.ofNat index.val)
    (fun index => if index.val = 1 then [PgEvent.ofKind .log] else [])
    (fun index =>
      if index.val = 0 then
        main
      else if index.val = 1 then
        .hangs
      else
        .fires (Bytes.ascii "deadlock"))

/-- The watchdog fires after the worker's log and ends a child that hangs. -/
def orderlyRun : List (Label 3) :=
  [.step 1 150 true, .step 1 151 true, .step 2 200 true, .step 2 201 true,
    .step 2 202 true]

theorem fatalEvents_exact_watchdog :
    ∃ state,
      (watchedChild .hangs).run? orderlyRun = some state ∧
        state.alive = false ∧ EndsStream state.stream := by
  have ends :
      ((watchedChild .hangs).run? orderlyRun).any
        (fun state => state.alive = false) = true := by
    decide +kernel
  have guarded :
      Transition.EachStep State.step? State.EndsAlone
        (watchedChild .hangs) orderlyRun := by
    decide +kernel
  obtain ⟨state, ran, dead⟩ := (Option.any_eq_true _ _).mp ends
  have promise :=
    (fatalEvents_exact _ _ _ _ (by decide) orderlyRun state ran).1
  exact ⟨state, ran, of_decide_eq_true dead, promise guarded⟩

/-- A worker logs between the watchdog's record and its `_exit`. -/
def workerFollows : List (Label 3) :=
  [.step 2 200 true, .step 2 201 true, .step 1 202 true, .step 1 203 true]

/-- The watchdog's `write` begins before the main thread's `close`. -/
def watchdogFollows : List (Label 3) :=
  [.step 0 200 true, .step 0 201 true, .step 2 202 true, .step 0 203 true,
    .step 2 204 true]

/--
A record follows the watchdog's, and the watchdog's record follows
`PG_EV_DONE`, even when the main thread has closed the pipe in between.
-/
theorem records_follow_fatal :
    (∃ state,
      (watchedChild .finishes).run? workerFollows = some state ∧
        ¬ EndsStream state.stream) ∧
      ∃ state,
        (watchedChild .finishes).run? watchdogFollows = some state ∧
          state.fdOpen = false ∧ ¬ EndsStream state.stream := by
  have follows :
      ((watchedChild .finishes).run? workerFollows).any
        (fun state => ¬ FatalLast state.stream) = true := by
    decide +kernel
  have both :
      ((watchedChild .finishes).run? watchdogFollows).any
        (fun state =>
          state.fdOpen = false ∧
            (∃ event ∈ state.stream, IsDone event) ∧
            ∃ event ∈ state.stream, IsWatchdog event) = true := by
    decide +kernel
  obtain ⟨first, ranFirst, wrong⟩ := (Option.any_eq_true _ _).mp follows
  obtain ⟨second, ranSecond, clash⟩ := (Option.any_eq_true _ _).mp both
  obtain ⟨closed, clash⟩ := of_decide_eq_true clash
  exact ⟨⟨first, ranFirst,
      fun ends => of_decide_eq_true wrong ends.fatalLast⟩,
    ⟨second, ranSecond, closed, fun ends => ends.exclusive clash⟩⟩

end FailurePlayground.ChildProcess
