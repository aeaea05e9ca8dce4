import FailurePlayground.VerdictTold

namespace FailurePlayground.RunVerdict

/-!
# The verdicts of the two callers

Every run, seen from the parent, is a run of a consumer over the records that
the child comes to write.  So `run_headless` has printed them when it speaks,
and its verdict can be checked against what it has printed.
-/

open ChildProcess (Signal IsDone IsWatchdog crashEvent)

section Consumer

variable
  {n : Nat}
  {rc : Int}
  {labels : List (Label n)}
  {state final : State n}

/-- The parent's own calls do not depend on what the child still writes. -/
theorem step?_withPending
    {consumer next : Consumers.State}
    {label : Consumers.Label}
    (own : ¬ (label = .childWrites ∨ label = .childCloses))
    (stepped : consumer.step? label = some next)
    (pending : List PgEvent) :
    ({ consumer with pending := pending } : Consumers.State).step? label =
      some { next with pending := pending } := by
  have settles (before : Consumers.State) (poll : PollState) :
      ({ before with pending := pending } : Consumers.State).settle poll =
        { before.settle poll with pending := pending } := by
    cases poll <;> rfl
  cases label with
  | childWrites | childCloses =>
      exact absurd (by simp) own
  | pollIdle | pollReady | pollInterrupted =>
      simp only [Consumers.State.step?, Option.ite_none_right_eq_some,
        Option.some.injEq] at stepped ⊢
      obtain ⟨guarded, rfl⟩ := stepped
      exact ⟨guarded, rfl⟩
  | innerPollReady | innerPollTimesOut | innerPollInterrupted
  | callsPoll =>
      simp only [Consumers.State.step?, Option.ite_none_right_eq_some,
        Option.some.injEq] at stepped ⊢
      obtain ⟨guarded, rfl⟩ := stepped
      exact ⟨guarded, settles _ _⟩
  | read count =>
      obtain ⟨got, reading, guarded, rfl⟩ :=
        Consumers.State.step?_read stepped
      simp only [Consumers.State.step?, reading, ← settles]
      exact if_pos guarded
  | readInterrupted =>
      obtain ⟨got, reading, rfl⟩ :=
        Consumers.State.step?_readInterrupted stepped
      simp only [Consumers.State.step?, reading, ← settles]
  | readEof =>
      obtain ⟨got, reading, guarded, rfl⟩ :=
        Consumers.State.step?_readEof stepped
      simp only [Consumers.State.step?, reading, ← settles]
      exact if_pos guarded

/-- The parent's own calls leave the writing end alone. -/
theorem writerOpen_of_step?
    {consumer next : Consumers.State}
    {label : Consumers.Label}
    (own : ¬ (label = .childWrites ∨ label = .childCloses))
    (stepped : consumer.step? label = some next) :
    next.writerOpen = consumer.writerOpen := by
  have settles (before : Consumers.State) (poll : PollState) :
      (before.settle poll).writerOpen = before.writerOpen := by
    cases poll <;> rfl
  cases label with
  | childWrites | childCloses =>
      exact absurd (by simp) own
  | pollIdle | pollReady | pollInterrupted | innerPollReady
  | innerPollTimesOut | innerPollInterrupted | callsPoll =>
      simp only [Consumers.State.step?, Option.ite_none_right_eq_some,
        Option.some.injEq] at stepped
      obtain ⟨_, rfl⟩ := stepped
      simp only [settles]
  | read count =>
      obtain ⟨got, _, _, rfl⟩ := Consumers.State.step?_read stepped
      exact settles _ _
  | readInterrupted =>
      obtain ⟨got, _, rfl⟩ :=
        Consumers.State.step?_readInterrupted stepped
      exact settles _ _
  | readEof =>
      obtain ⟨got, _, _, rfl⟩ := Consumers.State.step?_readEof stepped
      exact settles _ _

/-- A thread with a `write` in progress holds the pipe. -/
theorem attached_of_inFlight
    {child : ChildProcess.State n}
    {index : Fin n}
    {record : PgEvent}
    (alive : child.alive = true)
    (inFlight : (child.threads index).inFlight = some record) :
    Attached child = true := by
  have busy :
      ((List.finRange n).any fun index =>
        (child.threads index).inFlight.isSome) = true :=
    List.any_eq_true.mpr
      ⟨index, List.mem_finRange index, by rw [inFlight]; rfl⟩
  rw [Attached, alive, busy, Bool.or_true]
  rfl

/-- No thread comes to hold a pipe that the child has let go. -/
theorem attached_of_kept
    {child next : ChildProcess.State n}
    (alive : child.alive = true)
    (shut : next.fdOpen = true → child.fdOpen = true)
    (kept :
      ∀ index, (next.threads index).inFlight.isSome = true →
        (child.threads index).inFlight.isSome = true)
    (attached : Attached next = true) :
    Attached child = true := by
  simp only [Attached, Bool.and_eq_true, Bool.or_eq_true,
    List.any_eq_true] at attached
  rcases attached.2 with isOpen | ⟨index, _, busy⟩
  · rw [Attached, alive, shut isOpen]
    rfl
  · obtain ⟨record, inFlight⟩ :=
      Option.isSome_iff_exists.mp (kept index busy)
    exact attached_of_inFlight alive inFlight

/-- A step of the child writes a record, or lets the pipe be, or lets it go. -/
theorem attached_of_step?
    {child next : ChildProcess.State n}
    {label : ChildProcess.Label n}
    (linked : child.Linked)
    (stepped : child.step? label = some next) :
    (∃ record, next.stream = child.stream ++ [record] ∧
        Attached child = true) ∨
      next.stream = child.stream ∧
        (Attached next = true → Attached child = true) := by
  obtain ⟨alive, change⟩ := ChildProcess.State.change_of_step? stepped
  have quietly
      {index : Fin n}
      {thread : ChildProcess.Thread}
      (none : thread.inFlight = none) :
      ∀ other,
        ((child.setThread index thread).threads other).inFlight.isSome =
            true →
          (child.threads other).inFlight.isSome = true := by
    intro other busy
    by_cases same : other = index
    · subst same
      simp [ChildProcess.State.setThread, none] at busy
    · simpa only [ChildProcess.State.setThread,
        Function.update_of_ne same] using busy
  cases change with
  | begins index nowNs taken record acts isOpen =>
      refine Or.inr ⟨rfl, fun _ => ?_⟩
      rw [Attached, alive, isOpen]
      rfl
  | refused index nowNs taken record acts closed =>
      have writes :=
        ChildProcess.Thread.writes_of_intent (linked.unforged index)
          (ChildProcess.Thread.begin_of_action acts).2
      exact Or.inr ⟨rfl,
        attached_of_kept alive id (quietly (writes.inFlight false))⟩
  | lands index nowNs taken record acts =>
      have inFlight := ChildProcess.Thread.land_of_action acts
      have attached := attached_of_inFlight alive inFlight
      cases taken with
      | true =>
          exact Or.inl ⟨record, rfl, attached⟩
      | false =>
          exact Or.inr ⟨rfl, fun _ => attached⟩
  | closes index nowNs taken acts =>
      have quiet := ChildProcess.Thread.quiet_of_action (Or.inl acts)
      refine Or.inr ⟨rfl,
        attached_of_kept alive (fun shut => ?_)
          (quietly quiet.afterFlight)⟩
      exact absurd shut Bool.false_ne_true
  | faults index nowNs taken signal acts armed =>
      have quiet :=
        ChildProcess.Thread.quiet_of_action (Or.inr ⟨signal, acts⟩)
      exact Or.inr ⟨rfl,
        attached_of_kept alive id (quietly quiet.afterFlight)⟩
  | dies label silent =>
      exact Or.inr ⟨rfl, fun attached =>
        absurd attached (by simp [Attached])⟩

/--
A consumer that has the records ahead of it which the child still writes comes
from the parent's state in one state of a run to its state in a later one.
-/
def Consumed (state final : State n) : Prop :=
  ∃ rest calls,
    final.child.stream = state.child.stream ++ rest ∧
      (Attached state.child = false → rest = []) ∧
      ({ state.consumer with pending := rest } :
          Consumers.State).run? calls =
        some { final.consumer with pending := [] }

/-- The consumer's child lets its end go when nothing follows. -/
theorem consumed_of_detached
    {consumer last : Consumers.State}
    {rest : List PgEvent}
    {calls : List Consumers.Label}
    {attached : Bool}
    (writer : consumer.writerOpen = true)
    (shut : attached = false → rest = [])
    (ran :
      ({ consumer with
          writerOpen := attached
          pending := rest } : Consumers.State).run? calls = some last) :
    ∃ calls,
      ({ consumer with pending := rest } : Consumers.State).run? calls =
        some last := by
  cases attached with
  | true =>
      rw [← writer] at ran
      exact ⟨calls, ran⟩
  | false =>
      obtain rfl := shut rfl
      have closes :
          ({ consumer with pending := [] } :
              Consumers.State).step? .childCloses =
            some { consumer with
              pending := []
              writerOpen := false } := rfl
      exact ⟨.childCloses :: calls,
        Transition.run?_cons_eq_some.mpr ⟨_, closes, ran⟩⟩

/-- The child's step is a step of the consumer's child, or none. -/
theorem Consumed.of_follow
    {childLabel : ChildProcess.Label n}
    {childNext : ChildProcess.State n}
    {ended : WaitStatus}
    (linked : state.child.Linked)
    (writer : state.consumer.writerOpen = Attached state.child)
    (taken : state.child.step? childLabel = some childNext)
    (later : Consumed (state.follow childNext ended) final) :
    Consumed state final := by
  obtain ⟨rest, calls, whole, shut, ran⟩ := later
  change final.child.stream = childNext.stream ++ rest at whole
  rcases attached_of_step? linked taken with
    ⟨record, grown, attached⟩ | ⟨same, keeps⟩
  · -- The consumer's child writes the record, and may then let go.
    have writes :
        (state.follow childNext ended).consumer =
          { state.consumer with
            pipe := state.consumer.pipe ++ record.encode
            writerOpen := Attached childNext } := by
      simp only [State.follow, grown, List.drop_left,
        List.flatMap_cons, List.flatMap_nil, List.append_nil]
    rw [writes] at ran
    obtain ⟨calls, consumed⟩ :=
      @consumed_of_detached
        { state.consumer with
          pipe := state.consumer.pipe ++ record.encode }
        _ _ _ _ (writer.trans attached) shut ran
    refine ⟨record :: rest, .childWrites :: calls, ?_,
      fun closed => absurd (attached.symm.trans closed) (by simp),
      Transition.run?_cons_eq_some.mpr ⟨_, rfl, ?_⟩⟩
    · rw [whole, grown, List.append_assoc]
      rfl
    · exact consumed
  · have quiet :
        (state.follow childNext ended).consumer =
          { state.consumer with writerOpen := Attached childNext } := by
      simp only [State.follow, same, List.drop_length,
        List.flatMap_nil, List.append_nil]
    rw [same] at whole
    rw [quiet] at ran
    cases attached : Attached state.child with
    | true =>
        obtain ⟨calls, consumed⟩ :=
          consumed_of_detached (writer.trans attached) shut ran
        exact ⟨rest, calls, whole,
          fun closed => absurd (attached.symm.trans closed) (by simp),
          consumed⟩
    | false =>
        have gone : Attached childNext = false :=
          Bool.eq_false_iff.mpr fun holds =>
            absurd (attached.symm.trans (keeps holds)) (by simp)
        rw [gone, ← attached, ← writer] at ran
        exact ⟨rest, calls, whole, fun _ => shut gone, ran⟩

/-- The parent's own call is the consumer's. -/
theorem Consumed.of_call
    {next : Consumers.State}
    {call : Consumers.Label}
    (own : ¬ (call = .childWrites ∨ call = .childCloses))
    (taken : state.consumer.step? call = some next)
    (later : Consumed { state with consumer := next } final) :
    Consumed state final := by
  obtain ⟨rest, calls, whole, shut, ran⟩ := later
  exact ⟨rest, call :: calls, whole, shut,
    Transition.run?_cons_eq_some.mpr
      ⟨_, step?_withPending own taken rest, ran⟩⟩

/-- The parent of a run takes the steps of a consumer. -/
theorem consumed_of_run
    (linked : state.child.Linked)
    (writer : state.consumer.writerOpen = Attached state.child)
    (ran : State.run? rc state labels = some final) :
    Consumed state final := by
  induction labels generalizing state with
  | nil =>
      obtain rfl := Option.some.inj ran
      exact ⟨[], [], (List.append_nil _).symm, fun _ => rfl, rfl⟩
  | cons label later inductionHypothesis =>
      obtain ⟨mid, stepped, ranLater⟩ :=
        Transition.run?_cons_eq_some.mp ran
      cases label with
      | thread index nowNs =>
          obtain ⟨childNext, taken, rfl⟩ :=
            Option.map_eq_some_iff.mp stepped
          exact .of_follow linked writer taken
            (inductionHypothesis (linked.step taken) rfl ranLater)
      | interrupted index =>
          simp only [State.step?, Option.ite_none_right_eq_some,
            Option.map_eq_some_iff] at stepped
          obtain ⟨_, childNext, taken, rfl⟩ := stepped
          exact .of_follow linked writer taken
            (inductionHypothesis (linked.step taken) rfl ranLater)
      | killed signal =>
          obtain ⟨childNext, taken, rfl⟩ :=
            Option.map_eq_some_iff.mp stepped
          exact .of_follow linked writer taken
            (inductionHypothesis (linked.step taken) rfl ranLater)
      | terminated =>
          simp only [State.step?, Option.ite_none_right_eq_some,
            Option.map_eq_some_iff] at stepped
          obtain ⟨_, childNext, taken, rfl⟩ := stepped
          exact .of_follow linked writer taken
            (inductionHypothesis (linked.step taken) rfl ranLater)
      | parent call =>
          simp only [State.step?, Option.ite_none_left_eq_some,
            Option.map_eq_some_iff] at stepped
          obtain ⟨own, consumer, taken, rfl⟩ := stepped
          exact .of_call own taken
            (inductionHypothesis linked
              ((writerOpen_of_step? own taken).trans writer) ranLater)
      | reap =>
          simp only [State.step?, Option.ite_none_right_eq_some,
            Option.map_eq_some_iff] at stepped
          obtain ⟨_, _, _, rfl⟩ := stepped
          have spoken :=
            inductionHypothesis (by exact linked) (by exact writer)
              ranLater
          exact spoken
      | reapFails =>
          simp only [State.step?, Option.ite_none_right_eq_some,
            Option.some.injEq] at stepped
          obtain ⟨_, rfl⟩ := stepped
          have spoken :=
            inductionHypothesis (by exact linked) (by exact writer)
              ranLater
          exact spoken

end Consumer

section Verdicts

variable
  {n : Nat}
  {rc : Int}
  {labels : List (Label n)}
  {stream : List PgEvent}
  {state final : State n}

/-- What is printed is an initial piece of the stream. -/
theorem prefix_printed
    (accepted : ∀ record ∈ stream, headerAccepted record = true) :
    Consumers.printed stream <+: stream := by
  induction stream with
  | nil =>
      rw [(Consumers.printed_eq_nil_iff []).mpr (Or.inl rfl)]
  | cons record rest inductionHypothesis =>
      have here := accepted record List.mem_cons_self
      have later := inductionHypothesis fun other member =>
        accepted other (List.mem_cons_of_mem record member)
      by_cases done : record.kind = PgEventKind.done.code
      · rw [Consumers.printed_done here done]
        exact List.prefix_append [record] rest
      · rw [Consumers.printed_accepted here done]
        exact (List.prefix_cons_inj record).mpr later

/-- A stream with `PG_EV_DONE` is printed up to it. -/
theorem done_printed
    (accepted : ∀ record ∈ stream, headerAccepted record = true)
    (done : Done stream) :
    Done (Consumers.printed stream) := by
  induction stream with
  | nil =>
      obtain ⟨_, member, _⟩ := done
      exact absurd member List.not_mem_nil
  | cons record rest inductionHypothesis =>
      have here := accepted record List.mem_cons_self
      by_cases isDone : record.kind = PgEventKind.done.code
      · rw [Consumers.printed_done here isDone]
        exact ⟨record, List.mem_cons_self, isDone⟩
      · obtain ⟨event, member, eventDone⟩ := done
        have inRest : event ∈ rest := by
          rcases List.mem_cons.mp member with rfl | inRest
          · exact absurd eventDone isDone
          · exact inRest
        obtain ⟨other, printed, otherDone⟩ :=
          inductionHypothesis
            (fun other member =>
              accepted other (List.mem_cons_of_mem record member))
            ⟨event, inRest, eventDone⟩
        rw [Consumers.printed_accepted here isDone]
        exact ⟨other, List.mem_cons_of_mem record printed, otherDone⟩

/-- A stream without `PG_EV_DONE` is printed to its end. -/
theorem printed_of_not_done
    (accepted : ∀ record ∈ stream, headerAccepted record = true)
    (undone : ¬ Done stream) :
    Consumers.printed stream = stream := by
  induction stream with
  | nil =>
      exact (Consumers.printed_eq_nil_iff []).mpr (Or.inl rfl)
  | cons record rest inductionHypothesis =>
      have here := accepted record List.mem_cons_self
      have other : record.kind ≠ PgEventKind.done.code :=
        fun isDone => undone ⟨record, List.mem_cons_self, isDone⟩
      rw [Consumers.printed_accepted here other,
        inductionHypothesis
          (fun other member =>
            accepted other (List.mem_cons_of_mem record member))
          fun ⟨event, member, done⟩ =>
            undone ⟨event, List.mem_cons_of_mem record member, done⟩]

/-- `saw_done` says whether `PG_EV_DONE` has been printed. -/
theorem sawDone_iff (shown : List PgEvent) :
    sawDone shown = true ↔ Done shown := by
  simp only [sawDone, Done, List.any_eq_true, decide_eq_true_eq]

/-- What `waitpid` leaves the parent with when it fails does not change. -/
theorem unwaited_of_step?
    {label : Label n}
    {next : State n}
    (stepped : State.step? rc state label = some next) :
    next.unwaited = state.unwaited := by
  cases label with
  | thread index nowNs | killed signal =>
      obtain ⟨childNext, _, rfl⟩ := Option.map_eq_some_iff.mp stepped
      rfl
  | interrupted index | terminated | reap =>
      simp only [State.step?, Option.ite_none_right_eq_some,
        Option.map_eq_some_iff] at stepped
      obtain ⟨_, _, _, rfl⟩ := stepped
      rfl
  | parent call =>
      simp only [State.step?, Option.ite_none_left_eq_some,
        Option.map_eq_some_iff] at stepped
      obtain ⟨_, _, _, rfl⟩ := stepped
      rfl
  | reapFails =>
      simp only [State.step?, Option.ite_none_right_eq_some,
        Option.some.injEq] at stepped
      obtain ⟨_, rfl⟩ := stepped
      rfl

/-- Nor does it in a whole run. -/
theorem unwaited_of_run
    (ran : State.run? rc state labels = some final) :
    final.unwaited = state.unwaited := by
  have kept :
      ∀ {before : State n} {label : Label n} {after : State n},
        before.unwaited = state.unwaited →
          State.step? rc before label = some after →
            after.unwaited = state.unwaited :=
    fun same stepped => (unwaited_of_step? stepped).trans same
  exact Transition.run?_invariant kept ran rfl

/-- The parent of a run is a consumer of all that the child comes to write. -/
theorem consumer_of_start
    {caller : RunLoop.Caller}
    {child : ChildProcess.State n}
    {gLastExit : WaitStatus}
    (linked : child.Linked)
    (fresh : child.stream = [])
    (attached : Attached child = true)
    (ran :
      State.run? rc (State.start caller child gLastExit) labels =
        some final) :
    final.consumer.caller = caller ∧
      ∃ calls,
        (Consumers.State.start caller final.child.stream).run? calls =
          some { final.consumer with pending := [] } := by
  obtain ⟨rest, calls, whole, _, consumed⟩ :=
    consumed_of_run linked attached.symm ran
  have same : final.child.stream = rest := by
    rw [whole]
    change child.stream ++ rest = rest
    rw [fresh, List.nil_append]
  subst same
  have kept :
      ∀ {before : Consumers.State} {label : Consumers.Label}
        {after : Consumers.State},
        before.caller = caller →
          before.step? label = some after →
            after.caller = caller :=
    fun same stepped => (Consumers.State.caller_step stepped).trans same
  have called :
      ({ final.consumer with pending := [] } : Consumers.State).caller =
        caller :=
    Transition.run?_invariant kept consumed rfl
  exact ⟨called, calls, consumed⟩

/-- What `run_headless` may say, and what it has printed before. -/
inductive HeadlessTold
    (labels : List (Label n))
    (final : State n) : List UInt8 → Prop where
  | nothing
      (done : Done final.consumer.shown)
      (finished : Finished final.child) :
      HeadlessTold labels final []
  | early
      (undone : ¬ Done final.consumer.shown)
      (barked : Barked final.consumer.shown) :
      HeadlessTold labels final (earlyLine 2)
  | killed
      (signal : Nat)
      (undone : ¬ Done final.consumer.shown)
      (killed : .killed signal ∈ labels) :
      HeadlessTold labels final (diedLine signal)
  | crashed
      (signal : Signal)
      (index : Fin n)
      (undone : ¬ Done final.consumer.shown)
      (ending : (final.child.threads index).ending = .crashes signal)
      (seen :
        crashEvent signal ∈ final.consumer.shown ∨
          (final.child.threads index).stage = .inHandler signal) :
      HeadlessTold labels final (diedLine (signalNumber signal))
  | unwaited
      (undone : ¬ Done final.consumer.shown)
      (failed : .reapFails ∈ labels) :
      HeadlessTold labels final (earlyLine 0)

/-- What `run_scenario` may say, and what the child has done before. -/
inductive ScenarioTold
    (rc : Int)
    (gLastExit : WaitStatus)
    (labels : List (Label n))
    (final : State n) : List UInt8 → Prop where
  | nothing (well : rc = 0) (finished : Finished final.child) :
      ScenarioTold rc gLastExit labels final []
  | failed (ill : rc ≠ 0) (finished : Finished final.child) :
      ScenarioTold rc gLastExit labels final (exitedLine 1)
  | terminated (terminated : .terminated ∈ labels) :
      ScenarioTold rc gLastExit labels final (exitedLine 1)
  | watchdog (fired : Fired final.child) :
      ScenarioTold rc gLastExit labels final (exitedLine 2)
  | killed (signal : Nat) (killed : .killed signal ∈ labels) :
      ScenarioTold rc gLastExit labels final (killedLine signal)
  | crashed (signal : Signal) (crashed : Crashed labels final.child signal) :
      ScenarioTold rc gLastExit labels final
        (killedLine (signalNumber signal))
  | unwaited (failed : .reapFails ∈ labels) :
      ScenarioTold rc gLastExit labels final
        (verdict .runScenario final.consumer.shown gLastExit)

variable
  {ctx : PgRunctx}
  {gThreadTags : Fin n → UInt32}
  {emissions : Fin n → List PgEvent}
  {endings : Fin n → ChildProcess.Ending}
  {gLastExit : WaitStatus}
  {text : List UInt8}

/--
Whatever the threads of the child do, however they and the parent are
interleaved, and whatever signal ends the child, `run_headless` has printed
the child's records up to `PG_EV_DONE` when it speaks, and it tells the truth:
it says nothing exactly when `PG_EV_DONE` has been printed, which only a main
thread that came through sends; an exit with 2 is that of a watchdog whose
record has been printed; and a death by a signal is a kill or the crash of a
thread whose record has been printed, unless a second thread crashed before
the handler had written it.  Only a failed `waitpid` makes it report an exit
with 0 that it has not seen.
-/
theorem headless_verdict
    (unforged :
      ∀ index, ∀ event ∈ emissions index,
        ¬ ChildProcess.IsReserved event)
    (ran :
      State.run? rc
          (State.start .runHeadless
            (ChildProcess.State.start ctx gThreadTags emissions endings)
            gLastExit)
          labels =
        some final)
    (said : final.said = some text) :
    final.consumer.shown = Consumers.printed final.child.stream ∧
      HeadlessTold labels final text := by
  have explained : Explained rc labels final :=
    explained_of_run
      (explained_start .runHeadless ctx gThreadTags unforged endings
        gLastExit) ran
  obtain ⟨_, left, status, rfl, known⟩ := explained.told text said
  obtain ⟨headless, calls, consumed⟩ :=
    consumer_of_start
      (ChildProcess.State.linked_start ctx gThreadTags unforged endings)
      rfl rfl ran
  have shown :
      final.consumer.shown = Consumers.printed final.child.stream := by
    have complete := Consumers.headless_complete consumed
    exact complete left
  have accepted := explained.explains.accepted
  refine ⟨shown, ?_⟩
  rw [headless]
  by_cases done : Done final.consumer.shown
  · have finished : Finished final.child := by
      rw [shown] at done
      obtain ⟨event, member, isDone⟩ := done
      exact explained.explains.finished
        ⟨event, (prefix_printed accepted).subset member, isDone⟩
    have saw := (sawDone_iff final.consumer.shown).mpr done
    cases status with
    | exited code | signaled signal =>
        simp only [verdict, saw, if_true]
        exact .nothing done finished
  · have unseen : ¬ sawDone final.consumer.shown = true :=
      fun saw => done ((sawDone_iff _).mp saw)
    have unsent : ¬ Done final.child.stream := fun sent =>
      done (shown ▸ done_printed accepted sent)
    have stillOpen : final.child.fdOpen ≠ false := fun closed =>
      unsent (explained.explains.closed closed)
    have ownChild :
        ¬ (.terminated ∈ labels ∨ ∃ index, .interrupted index ∈ labels) :=
      fun inherited => absurd
        ((explained.inherited inherited).symm.trans headless) (by simp)
    have all : final.consumer.shown = final.child.stream :=
      shown.trans (printed_of_not_done accepted unsent)
    rcases known with gone | ⟨rfl, failed⟩
    · have ended := explained.ended status gone
      cases status with
      | exited code =>
          simp only [verdict, unseen]
          rcases ended with ⟨_, sent⟩ |
            ⟨rfl, _, _, _, _, _, barked | closed⟩ | ⟨_, terminated⟩
          · exact absurd sent unsent
          · exact .early done (all ▸ barked)
          · exact absurd closed stillOpen
          · exact absurd (Or.inl terminated) ownChild
      | signaled number =>
          simp only [verdict, unseen]
          rcases ended with killed | ⟨signal, rfl, index, ending, seen⟩
          · exact .killed number done killed
          · refine .crashed signal index done ending ?_
            rcases seen with busy | ⟨_, _, said | closed | interrupted⟩
            · exact Or.inr busy
            · exact Or.inl (all ▸ said)
            · exact absurd closed stillOpen
            · exact absurd (Or.inr ⟨index, interrupted⟩) ownChild
    · have zero : final.unwaited = .exited 0 := unwaited_of_run ran
      rw [zero]
      simp only [verdict, unseen]
      exact .unwaited done failed

/-- A worker logs, and the watchdog ends a child that hangs. -/
def watchdogRun : List (Label 3) :=
  let worker : Fin 3 := (Fin.last 1).castSucc
  let watchdog : Fin 3 := Fin.last 2
  [.parent .callsPoll, .thread worker 150, .thread worker 151,
    .parent (.read 100), .parent (.read 156), .thread watchdog 200,
    .thread watchdog 201, .parent .callsPoll, .parent (.read 256),
    .parent .callsPoll, .thread watchdog 202, .parent .readEof, .reap]

/-- `run_headless` reports the exit of the watchdog after its record. -/
theorem headless_verdict_watchdog :
    ∃ final,
      State.run? 0
          (State.start .runHeadless (ChildProcess.watchedChild .hangs)
            (.exited 0))
          watchdogRun =
        some final ∧
      final.consumer.shown = Consumers.printed final.child.stream ∧
      HeadlessTold watchdogRun final (earlyLine 2) := by
  have enabled :
      (State.run? 0
          (State.start .runHeadless (ChildProcess.watchedChild .hangs)
            (.exited 0))
          watchdogRun).map State.said =
        some (some (earlyLine 2)) := by
    decide +kernel
  obtain ⟨final, ran, said⟩ := Option.map_eq_some_iff.mp enabled
  exact ⟨final, ran, headless_verdict (by decide) ran said⟩

/--
Whatever the threads of the child do, however they and the parent are
interleaved, and wherever a signal interrupts the parent, `run_scenario` tells
the truth when it speaks: it is silent only about a scenario that returned 0,
and every other line names the way in which the child ended: by its main
thread, by ncurses' handler, by a watchdog that fired, by a signal, or by the
crash of one of its threads.  Only a failed `waitpid` makes it repeat the
verdict on the run before.
-/
theorem scenario_verdict
    (unforged :
      ∀ index, ∀ event ∈ emissions index,
        ¬ ChildProcess.IsReserved event)
    (ran :
      State.run? rc
          (State.start .runScenario
            (ChildProcess.State.start ctx gThreadTags emissions endings)
            gLastExit)
          labels =
        some final)
    (said : final.said = some text) :
    ScenarioTold rc gLastExit labels final text := by
  have explained : Explained rc labels final :=
    explained_of_run
      (explained_start .runScenario ctx gThreadTags unforged endings
        gLastExit) ran
  obtain ⟨_, left, status, rfl, known⟩ := explained.told text said
  obtain ⟨scenario, _⟩ :=
    consumer_of_start
      (ChildProcess.State.linked_start ctx gThreadTags unforged endings)
      rfl rfl ran
  rw [scenario]
  rcases known with gone | ⟨rfl, failed⟩
  · have ended := explained.ended status gone
    cases status with
    | exited code =>
        rcases ended with ⟨rfl, sent⟩ | ⟨rfl, fired⟩ | ⟨rfl, terminated⟩
        · have finished := explained.explains.finished sent
          by_cases well : rc = 0
          · have code : exitCode rc = 0 := if_pos well
            simp only [verdict, code, ne_eq, not_true_eq_false, if_false]
            exact .nothing well finished
          · have code : exitCode rc = 1 := if_neg well
            simp only [verdict, code, ne_eq, one_ne_zero,
              not_false_eq_true, if_true]
            exact .failed well finished
        · exact .watchdog fired
        · exact .terminated terminated
    | signaled number =>
        rcases ended with killed | ⟨signal, rfl, crashed⟩
        · exact .killed number killed
        · exact .crashed signal crashed
  · have last : final.unwaited = gLastExit := unwaited_of_run ran
    rw [last]
    exact .unwaited failed

/-- A signal ends the parent's loop before the child has sent anything. -/
def interruptedRun : List (Label 1) :=
  let main : Fin 1 := Fin.last 0
  [.parent .pollInterrupted, .thread main 10, .thread main 11,
    .thread main 12, .thread main 13, .reap]

/-- `run_scenario` still reports that the scenario returned an error. -/
theorem scenario_verdict_interrupted :
    ∃ final,
      State.run? (-1)
          (State.start .runScenario
            (ChildProcess.State.start
              { eventFdW := 4, threadTag := 0, startNs := 0 }
              (fun _ : Fin 1 => 0) (fun _ => []) fun _ => .finishes)
            (.exited 0))
          interruptedRun =
        some final ∧
      ScenarioTold (-1) (.exited 0) interruptedRun final
        (exitedLine 1) := by
  have enabled :
      (State.run? (-1)
          (State.start .runScenario
            (ChildProcess.State.start
              { eventFdW := 4, threadTag := 0, startNs := 0 }
              (fun _ : Fin 1 => 0) (fun _ => []) fun _ => .finishes)
            (.exited 0))
          interruptedRun).map State.said =
        some (some (exitedLine 1)) := by
    decide +kernel
  obtain ⟨final, ran, said⟩ := Option.map_eq_some_iff.mp enabled
  exact ⟨final, ran, scenario_verdict (by simp) ran said⟩

end Verdicts

end FailurePlayground.RunVerdict
