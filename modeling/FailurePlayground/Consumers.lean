import FailurePlayground.RunLoop
import FailurePlayground.TornRecord

namespace FailurePlayground.Consumers

/-!
# Two consumers of one stream

`run_headless` calls `pg_run_poll` without a timeout; `run_scenario` waits in
a `poll` of its own, then calls `pg_run_poll` with timeout 0.  Both read the
records byte by byte as the kernel hands them over, and a signal may interrupt
every one of these calls.
-/

/-- Where a consumer stands in its loop. -/
inductive Parent where
  | polling
  | innerPolling
  | reading (got : List UInt8)
  | left
  deriving Repr, DecidableEq

/-- The consumer, what it has handed over, the pipe, and the child's records. -/
structure State where
  caller : RunLoop.Caller
  parent : Parent
  shown : List PgEvent
  pipe : List UInt8
  writerOpen : Bool
  pending : List PgEvent
  deriving DecidableEq

/-- One system call, or a write of the child. -/
inductive Label where
  | childWrites
  | childCloses
  | pollIdle
  | pollReady
  | pollInterrupted
  | innerPollReady
  | innerPollTimesOut
  | innerPollInterrupted
  | callsPoll
  | read (count : Nat)
  | readInterrupted
  | readEof
  deriving Repr, DecidableEq

namespace State

/-- `poll` reports the event descriptor readable or hung up. -/
def readable (state : State) : Bool :=
  !state.pipe.isEmpty || !state.writerOpen

/--
Adopt the state of a `pg_run_poll` call.  An event is handed over, and the
loop goes on after it unless it is `PG_EV_DONE`.
-/
def settle (state : State) : PollState → State
  | .reading got =>
      { state with parent := .reading got }
  | .returned result =>
      { state with
        parent :=
          if RunLoop.loopContinues (.returned result) then
            .polling
          else
            .left
        shown := state.shown ++ result.event?.toList }

/-- Execute one enabled label. -/
def step? (state : State) : Label → Option State
  | .childWrites =>
      match state.pending with
      | record :: rest =>
          some { state with
            pending := rest
            pipe := state.pipe ++ record.encode }
      | [] => none
  | .childCloses =>
      if state.pending = [] then
        some { state with writerOpen := false }
      else
        none
  | .pollIdle =>
      if state.parent = .polling ∧ state.caller = .runScenario ∧
          ¬ state.readable then
        some state
      else
        none
  | .pollReady =>
      if state.parent = .polling ∧ state.caller = .runScenario ∧
          state.readable then
        some { state with parent := .innerPolling }
      else
        none
  | .pollInterrupted =>
      if state.parent = .polling ∧ state.caller = .runScenario then
        some { state with parent := .left }
      else
        none
  | .innerPollReady =>
      if state.parent = .innerPolling ∧ state.readable then
        some (state.settle (pgRunPoll 0 0 .ready))
      else
        none
  | .innerPollTimesOut =>
      if state.parent = .innerPolling ∧ ¬ state.readable then
        some (state.settle (pgRunPoll 0 0 .timedOut))
      else
        none
  | .innerPollInterrupted =>
      if state.parent = .innerPolling then
        some (state.settle (pgRunPoll 0 0 .failed))
      else
        none
  | .callsPoll =>
      if state.parent = .polling ∧ state.caller = .runHeadless then
        some (state.settle (pgRunPoll 0 (-1) .ready))
      else
        none
  | .read count =>
      match state.parent with
      | .reading got =>
          if 0 < count ∧ count ≤ state.pipe.length ∧
              got.length + count ≤ pgEventSize then
            some ({ state with pipe := state.pipe.drop count }.settle
              (pgRunPollIteration got
                (.bytes (state.pipe.take count))))
          else
            none
      | _ => none
  | .readInterrupted =>
      match state.parent with
      | .reading got =>
          some (state.settle (pgRunPollIteration got .interrupted))
      | _ => none
  | .readEof =>
      match state.parent with
      | .reading got =>
          if state.pipe = [] ∧ ¬ state.writerOpen then
            some (state.settle (pgRunPollIteration got .eof))
          else
            none
      | _ => none

/-- Execute a finite schedule. -/
abbrev run? : State → List Label → Option State :=
  Transition.run? step?

/-- The consumer and the child after `pg_run_start`. -/
def start (caller : RunLoop.Caller) (records : List PgEvent) : State where
  caller := caller
  parent := .polling
  shown := []
  pipe := []
  writerOpen := true
  pending := records

/-- The bytes read of the record under way. -/
def held (state : State) : List UInt8 :=
  match state.parent with
  | .reading got => got
  | .polling | .innerPolling | .left => []

/-- The bytes that have not been read yet. -/
def unread (state : State) : List UInt8 :=
  state.pipe ++ state.pending.flatMap PgEvent.encode

/-- Nothing is left that the other consumer would hand over. -/
def nothingLeft (state : State) : Prop :=
  state.unread = [] ∨
    headerAccepted (PgEvent.decode (state.unread.take pgEventSize)) =
      false

instance (state : State) : Decidable state.nothingLeft :=
  inferInstanceAs (Decidable (_ ∨ _))

/-- A signal interrupts a `poll` only when nothing is left. -/
def InterruptedLate (state : State) : Label → Prop
  | .pollInterrupted | .innerPollInterrupted => state.nothingLeft
  | _ => True

instance (state : State) : (label : Label) →
    Decidable (state.InterruptedLate label)
  | .pollInterrupted | .innerPollInterrupted =>
      inferInstanceAs (Decidable state.nothingLeft)
  | .childWrites | .childCloses | .pollIdle | .pollReady
  | .innerPollReady | .innerPollTimesOut | .callsPoll | .read _
  | .readInterrupted | .readEof =>
      inferInstanceAs (Decidable True)

end State

namespace State

variable {state next : State}

/-- The child writes its next record. -/
theorem step?_childWrites
    (stepped : state.step? .childWrites = some next) :
    ∃ record rest,
      state.pending = record :: rest ∧
        next =
          { state with
            pending := rest
            pipe := state.pipe ++ record.encode } := by
  simp only [step?] at stepped
  split at stepped
  · rename_i record rest pending
    exact ⟨record, rest, pending, (Option.some.inj stepped).symm⟩
  · exact absurd stepped (by simp)

/-- A `read` takes what the record under way still lacks, or less. -/
theorem step?_read
    {count : Nat}
    (stepped : state.step? (.read count) = some next) :
    ∃ got,
      state.parent = .reading got ∧
        (0 < count ∧ count ≤ state.pipe.length ∧
          got.length + count ≤ pgEventSize) ∧
        next =
          settle { state with pipe := state.pipe.drop count }
            (pgRunPollIteration got
              (.bytes (state.pipe.take count))) := by
  simp only [step?] at stepped
  split at stepped
  · rename_i got reading
    simp only [Option.ite_none_right_eq_some,
      Option.some.injEq] at stepped
    exact ⟨got, reading, stepped.1, stepped.2.symm⟩
  · exact absurd stepped (by simp)

/-- An interrupted `read` is tried again. -/
theorem step?_readInterrupted
    (stepped : state.step? .readInterrupted = some next) :
    ∃ got,
      state.parent = .reading got ∧
        next = state.settle (pgRunPollIteration got .interrupted) := by
  simp only [step?] at stepped
  split at stepped
  · rename_i got reading
    exact ⟨got, reading, (Option.some.inj stepped).symm⟩
  · exact absurd stepped (by simp)

/-- End of file needs an empty pipe without a writer. -/
theorem step?_readEof
    (stepped : state.step? .readEof = some next) :
    ∃ got,
      state.parent = .reading got ∧
        (state.pipe = [] ∧ ¬ state.writerOpen) ∧
        next = state.settle (pgRunPollIteration got .eof) := by
  simp only [step?] at stepped
  split at stepped
  · rename_i got reading
    simp only [Option.ite_none_right_eq_some,
      Option.some.injEq] at stepped
    exact ⟨got, reading, stepped.1, stepped.2.symm⟩
  · exact absurd stepped (by simp)

end State

section Printed

/-- The results of `pg_run_poll` for some records. -/
def pollResults (records : List PgEvent) : List PollResult :=
  records.map fun record => EventPipe.pollWindow record.encode

/-- What `run_headless` prints for some records and the end of file. -/
def printed (records : List PgEvent) : List PgEvent :=
  runHeadlessPrinted (pollResults records ++ [.eof])

/-- A record passes the header check as it was sent. -/
theorem pollWindow_encode_eq (record : PgEvent) :
    EventPipe.pollWindow record.encode =
      if headerAccepted record then .event record else .error := by
  simp only [EventPipe.pollWindow, PgEvent.decode_encode]

/-- Nothing is printed past a rejected record. -/
theorem printed_rejected
    {record : PgEvent}
    (rejected : headerAccepted record = false)
    (rest : List PgEvent) :
    printed (record :: rest) = [] := by
  simp only [printed, pollResults, List.map_cons, pollWindow_encode_eq,
    rejected, Bool.false_eq_true, ↓reduceIte, List.cons_append,
    runHeadlessPrinted]

/-- Nothing is printed past `PG_EV_DONE`. -/
theorem printed_done
    {record : PgEvent}
    (accepted : headerAccepted record = true)
    (done : record.kind = PgEventKind.done.code)
    (rest : List PgEvent) :
    printed (record :: rest) = [record] := by
  simp only [printed, pollResults, List.map_cons, pollWindow_encode_eq,
    accepted, ↓reduceIte, List.cons_append, runHeadlessPrinted, done]

/-- Any other accepted record is printed before the rest. -/
theorem printed_accepted
    {record : PgEvent}
    (accepted : headerAccepted record = true)
    (other : record.kind ≠ PgEventKind.done.code)
    (rest : List PgEvent) :
    printed (record :: rest) = record :: printed rest := by
  simp only [printed, pollResults, List.map_cons, pollWindow_encode_eq,
    accepted, ↓reduceIte, List.cons_append, runHeadlessPrinted, other]

/-- Nothing is printed exactly when no accepted record comes next. -/
theorem printed_eq_nil_iff (records : List PgEvent) :
    printed records = [] ↔
      records.flatMap PgEvent.encode = [] ∨
        headerAccepted
            (PgEvent.decode
              ((records.flatMap PgEvent.encode).take pgEventSize)) =
          false := by
  cases records with
  | nil =>
      exact iff_of_true rfl (Or.inl rfl)
  | cons record rest =>
      have window :
          ((record :: rest).flatMap PgEvent.encode).take pgEventSize =
            record.encode := by
        rw [List.flatMap_cons,
          List.take_append_of_le_length
            (Nat.le_of_eq (PgEvent.length_encode record).symm),
          List.take_of_length_le
            (Nat.le_of_eq (PgEvent.length_encode record))]
      have nonempty : (record :: rest).flatMap PgEvent.encode ≠ [] := by
        intro empty
        have records :=
          Bytes.eq_nil_of_flatMap_eq_nil PgEvent.length_encode
            (by decide) empty
        exact absurd records (by simp)
      rw [window, PgEvent.decode_encode, or_iff_right nonempty]
      cases accepted : headerAccepted record with
      | false =>
          exact iff_of_true (printed_rejected accepted rest) rfl
      | true =>
          refine iff_of_false ?_ (by simp)
          by_cases done : record.kind = PgEventKind.done.code
          · rw [printed_done accepted done]
            exact List.cons_ne_nil _ _
          · rw [printed_accepted accepted done]
            exact List.cons_ne_nil _ _

end Printed

/--
The consumer stands at a record boundary of the stream plus the bytes it
holds, and what it has handed over with what the rest would print is expected.
-/
structure Following
    (expected : List PgEvent)
    (state : State) : Prop where
  short : state.held.length < pgEventSize
  dry : state.writerOpen = false → state.pending = []
  waitsReady : state.parent = .innerPolling → state.readable = true
  waitsAlone :
    state.parent = .innerPolling → state.caller = .runScenario
  follows :
    state.parent ≠ .left →
      ∃ queued,
        state.held ++ state.pipe = queued.flatMap PgEvent.encode ∧
          expected = state.shown ++ printed (queued ++ state.pending)

/-- A result without an event ends the loop. -/
theorem State.settle_silent
    (state : State)
    {result : PollResult}
    (silent : result.event? = none) :
    state.settle (.returned result) = { state with parent := .left } := by
  cases result with
  | event record =>
      exact absurd silent (by simp [PollResult.event?])
  | eof | error | timeout =>
      simp [settle, RunLoop.loopContinues, PollResult.event?]

/-- `PG_EV_DONE` is handed over and ends the loop. -/
theorem State.settle_done
    (state : State)
    {record : PgEvent}
    (done : record.kind = PgEventKind.done.code) :
    state.settle (.returned (.event record)) =
      { state with parent := .left, shown := state.shown ++ [record] } := by
  simp [settle, RunLoop.loopContinues, PollResult.event?, done]

/-- Any other event is handed over and the loop goes on. -/
theorem State.settle_event
    (state : State)
    {record : PgEvent}
    (other : record.kind ≠ PgEventKind.done.code) :
    state.settle (.returned (.event record)) =
      { state with
        parent := .polling
        shown := state.shown ++ [record] } := by
  simp [settle, RunLoop.loopContinues, PollResult.event?, other]

namespace Following

variable
  {expected : List PgEvent}
  {state next : State}
  {label : Label}

/-- A consumer that has left its loop follows nothing any more. -/
theorem of_left
    (dry : state.writerOpen = false → state.pending = [])
    (left : state.parent = .left) :
    Following expected state where
  short := by simp [State.held, left, pgEventSize]
  dry := dry
  waitsReady inner := by
    rw [left] at inner
    exact absurd inner (by simp)
  waitsAlone inner := by
    rw [left] at inner
    exact absurd inner (by simp)
  follows inside := absurd left inside

/-- With no byte held, what is unread is what would be printed. -/
theorem nothingLeft_iff
    (following : Following expected state)
    (inside : state.parent ≠ .left)
    (idle : state.held = []) :
    state.nothingLeft ↔ state.shown = expected := by
  obtain ⟨queued, aligned, whole⟩ := following.follows inside
  rw [idle, List.nil_append] at aligned
  have bytes :
      state.unread =
        (queued ++ state.pending).flatMap PgEvent.encode := by
    rw [State.unread, aligned, List.flatMap_append]
  rw [State.nothingLeft, bytes, ← printed_eq_nil_iff]
  constructor
  · intro nothing
    rw [whole, nothing, List.append_nil]
  · intro same
    rw [← same] at whole
    exact List.append_right_eq_self.mp whole.symm

/-- A write of the child puts its next record after the unread ones. -/
theorem childWrites
    (following : Following expected state)
    (stepped : state.step? .childWrites = some next) :
    Following expected next ∧ next.parent = state.parent ∧
      next.shown = state.shown := by
  obtain ⟨record, rest, pending, rfl⟩ := State.step?_childWrites stepped
  refine ⟨?_, rfl, rfl⟩
  exact {
    short := following.short
    dry := fun closed => by
      have none := following.dry closed
      rw [pending] at none
      exact absurd none (by simp)
    waitsReady := fun inner => by
      have nonempty : record.encode ≠ [] := by
        intro empty
        have length := PgEvent.length_encode record
        rw [empty] at length
        exact absurd length (by decide)
      simp [State.readable, nonempty]
    waitsAlone := following.waitsAlone
    follows := fun inside => by
      obtain ⟨queued, aligned, whole⟩ := following.follows inside
      refine ⟨queued ++ [record], ?_, ?_⟩
      · rw [List.flatMap_append, ← aligned]
        simp [State.held]
      · rw [whole, pending]
        simp
  }

/--
What `pg_run_poll` returns for the next record is handed over, or ends the
loop with everything handed over.
-/
theorem handsOver
    (state : State)
    {record : PgEvent}
    {rest : List PgEvent}
    (dry : state.writerOpen = false → state.pending = [])
    (pipe : state.pipe = rest.flatMap PgEvent.encode)
    (whole :
      expected =
        state.shown ++ printed (record :: (rest ++ state.pending)))
    (settled :
      state.settle (.returned (EventPipe.pollWindow record.encode)) =
        next) :
    Following expected next ∧
      (next.parent = .left → next.shown = expected) := by
  subst settled
  rw [pollWindow_encode_eq]
  cases accepted : headerAccepted record with
  | false =>
      rw [printed_rejected accepted, List.append_nil] at whole
      simp only [Bool.false_eq_true, ↓reduceIte]
      rw [State.settle_silent _ rfl]
      exact ⟨of_left dry rfl, fun _ => whole.symm⟩
  | true =>
      simp only [↓reduceIte]
      by_cases done : record.kind = PgEventKind.done.code
      · rw [printed_done accepted done] at whole
        rw [State.settle_done _ done]
        exact ⟨of_left dry rfl, fun _ => whole.symm⟩
      · rw [printed_accepted accepted done] at whole
        rw [State.settle_event _ done]
        refine ⟨?_, fun left => absurd left (by simp)⟩
        exact {
          short := by simp [State.held, pgEventSize]
          dry := dry
          waitsReady := fun inner => absurd inner (by simp)
          waitsAlone := fun inner => absurd inner (by simp)
          follows := fun _ => ⟨rest, pipe, by
            rw [whole]
            simp⟩
        }

/-- A read extends the record under way, or completes and hands it over. -/
theorem read
    {count : Nat}
    (following : Following expected state)
    (stepped : state.step? (.read count) = some next) :
    Following expected next ∧
      (next.parent = .left → next.shown = expected) := by
  obtain ⟨got, reading, ⟨positive, available, fits⟩, rfl⟩ :=
    State.step?_read stepped
  have inside : state.parent ≠ .left := by rw [reading]; simp
  obtain ⟨queued, aligned, whole⟩ := following.follows inside
  have holds : state.held = got := by simp only [State.held, reading]
  rw [holds] at aligned
  have split :
      (got ++ state.pipe.take count) ++ state.pipe.drop count =
        queued.flatMap PgEvent.encode := by
    rw [List.append_assoc, List.take_append_drop, aligned]
  by_cases short : (got ++ state.pipe.take count).length < pgEventSize
  · rw [pgRunPollIteration_short short]
    refine ⟨?_, fun left => absurd left (by simp [State.settle])⟩
    exact {
      short := short
      dry := following.dry
      waitsReady := fun inner => absurd inner (by simp [State.settle])
      waitsAlone := fun inner => absurd inner (by simp [State.settle])
      follows := fun _ => ⟨queued, split, whole⟩
    }
  · rw [EventPipe.pgRunPollIteration_full short]
    have full :
        (got ++ state.pipe.take count).length = pgEventSize := by
      rw [List.length_append,
        List.length_take_of_le available] at short ⊢
      omega
    have stream :
        ([] : List PgEvent).flatMap PgEvent.encode ++
            (got ++ state.pipe.take count) ++ state.pipe.drop count =
          queued.flatMap PgEvent.encode := split
    obtain ⟨record, rest, shape, image, later⟩ :=
      Bytes.next_of_stream_eq PgEvent.length_encode
        PgEvent.encode_injective (by decide) full stream
    rw [List.nil_append] at shape
    rw [shape, List.cons_append] at whole
    exact handsOver { state with pipe := state.pipe.drop count }
      following.dry later.symm whole (by rw [image])

/-- End of file comes at a record boundary, after everything was printed. -/
theorem readEof
    (following : Following expected state)
    (stepped : state.step? .readEof = some next) :
    Following expected next ∧ next.shown = expected := by
  obtain ⟨got, reading, ⟨empty, closed⟩, rfl⟩ :=
    State.step?_readEof stepped
  have dry := following.dry (Bool.eq_false_of_not_eq_true closed)
  have short := following.short
  have inside : state.parent ≠ .left := by rw [reading]; simp
  obtain ⟨queued, aligned, whole⟩ := following.follows inside
  rw [empty, List.append_nil] at aligned
  rw [aligned] at short
  have drained : queued = [] :=
    Bytes.eq_nil_of_length_flatMap_lt PgEvent.length_encode short
  rw [drained, dry] at whole
  have shown : state.shown = expected := by
    rw [whole]
    exact (List.append_nil state.shown).symm
  have ended :
      state.settle (pgRunPollIteration got .eof) =
        { state with parent := .left } := by
    simp only [pgRunPollIteration]
    split
    · exact state.settle_silent rfl
    · exact state.settle_silent rfl
  rw [ended]
  exact ⟨of_left (fun _ => dry) rfl, shown⟩

/-- A consumer may go on reading after the bytes it holds. -/
theorem reads
    {got : List UInt8}
    (following : Following expected state)
    (inside : state.parent ≠ .left)
    (holds : state.held = got) :
    Following expected { state with parent := .reading got } where
  short := by
    have short := following.short
    rw [holds] at short
    exact short
  dry := following.dry
  waitsReady inner := absurd inner (by simp)
  waitsAlone inner := absurd inner (by simp)
  follows _ := by
    obtain ⟨queued, aligned, whole⟩ := following.follows inside
    rw [holds] at aligned
    exact ⟨queued, aligned, whole⟩

/-- An interrupted `poll` leaves the loop with what was handed over. -/
theorem interrupted
    (following : Following expected state)
    (inside : state.parent ≠ .left)
    (idle : state.held = []) :
    Following expected { state with parent := .left } ∧
      (state.nothingLeft ↔
        ({ state with parent := .left } : State).shown = expected) :=
  ⟨of_left following.dry rfl, following.nothingLeft_iff inside idle⟩

/--
What a consumer hands over together with what the rest would print never
changes.  It leaves the loop with all of it exactly when a step that
interrupts a `poll` does so late.
-/
theorem step
    (following : Following expected state)
    (stepped : state.step? label = some next) :
    Following expected next ∧
      (state.parent ≠ .left →
        next.parent = .left →
        (state.InterruptedLate label ↔ next.shown = expected)) := by
  cases label with
  | childWrites =>
      obtain ⟨followed, parent, _⟩ := following.childWrites stepped
      exact ⟨followed, fun inside left =>
        absurd (parent.symm.trans left) inside⟩
  | childCloses =>
      simp only [State.step?, Option.ite_none_right_eq_some,
        Option.some.injEq] at stepped
      obtain ⟨dry, rfl⟩ := stepped
      refine ⟨?_, fun inside left => absurd left inside⟩
      exact {
        short := following.short
        dry := fun _ => dry
        waitsReady := fun _ => by simp [State.readable]
        waitsAlone := following.waitsAlone
        follows := following.follows
      }
  | pollIdle =>
      simp only [State.step?, Option.ite_none_right_eq_some,
        Option.some.injEq] at stepped
      obtain ⟨_, rfl⟩ := stepped
      exact ⟨following, fun inside left => absurd left inside⟩
  | pollReady =>
      simp only [State.step?, Option.ite_none_right_eq_some,
        Option.some.injEq] at stepped
      obtain ⟨⟨polling, caller, ready⟩, rfl⟩ := stepped
      have inside : state.parent ≠ .left := by rw [polling]; simp
      obtain ⟨queued, aligned, whole⟩ := following.follows inside
      refine ⟨?_, fun _ left => absurd left (by simp)⟩
      exact {
        short := by simp [State.held, pgEventSize]
        dry := following.dry
        waitsReady := fun _ => ready
        waitsAlone := fun _ => caller
        follows := fun _ => ⟨queued, by
          simpa only [State.held, polling] using aligned, whole⟩
      }
  | pollInterrupted =>
      simp only [State.step?, Option.ite_none_right_eq_some,
        Option.some.injEq] at stepped
      obtain ⟨⟨polling, _⟩, rfl⟩ := stepped
      obtain ⟨followed, late⟩ := following.interrupted
        (by rw [polling]; simp) (by simp only [State.held, polling])
      exact ⟨followed, fun _ _ => late⟩
  | innerPollReady =>
      simp only [State.step?, Option.ite_none_right_eq_some,
        Option.some.injEq] at stepped
      obtain ⟨⟨inner, _⟩, rfl⟩ := stepped
      have inside : state.parent ≠ .left := by rw [inner]; simp
      have idle : state.held = [] := by simp only [State.held, inner]
      exact ⟨following.reads inside idle,
        fun _ left => absurd left (by simp [State.settle, pgRunPoll])⟩
  | innerPollTimesOut =>
      simp only [State.step?, Option.ite_none_right_eq_some,
        Option.some.injEq] at stepped
      obtain ⟨⟨inner, notReady⟩, _⟩ := stepped
      exact absurd (following.waitsReady inner) notReady
  | innerPollInterrupted =>
      simp only [State.step?, Option.ite_none_right_eq_some,
        Option.some.injEq] at stepped
      obtain ⟨inner, rfl⟩ := stepped
      obtain ⟨followed, late⟩ := following.interrupted
        (by rw [inner]; simp) (by simp only [State.held, inner])
      have failed :
          state.settle (pgRunPoll 0 0 .failed) =
            { state with parent := .left } :=
        state.settle_silent rfl
      rw [failed]
      exact ⟨followed, fun _ _ => late⟩
  | callsPoll =>
      simp only [State.step?, Option.ite_none_right_eq_some,
        Option.some.injEq] at stepped
      obtain ⟨⟨polling, _⟩, rfl⟩ := stepped
      have inside : state.parent ≠ .left := by rw [polling]; simp
      have idle : state.held = [] := by simp only [State.held, polling]
      exact ⟨following.reads inside idle,
        fun _ left => absurd left (by simp [State.settle, pgRunPoll])⟩
  | read count =>
      obtain ⟨followed, complete⟩ := following.read stepped
      exact ⟨followed, fun _ left => iff_of_true trivial (complete left)⟩
  | readInterrupted =>
      obtain ⟨got, reading, rfl⟩ := State.step?_readInterrupted stepped
      have inside : state.parent ≠ .left := by rw [reading]; simp
      have holds : state.held = got := by
        simp only [State.held, reading]
      exact ⟨following.reads inside holds,
        fun _ left =>
          absurd left (by simp [State.settle, pgRunPollIteration])⟩
  | readEof =>
      obtain ⟨followed, complete⟩ := following.readEof stepped
      exact ⟨followed, fun _ _ => iff_of_true trivial complete⟩

end Following

namespace State

variable
  {state next : State}
  {label : Label}

@[simp] theorem settle_caller
    (state : State)
    (poll : PollState) :
    (state.settle poll).caller = state.caller := by
  cases poll with
  | reading got =>
      rfl
  | returned result =>
      rfl

/-- A consumer stays the consumer it is. -/
theorem caller_step
    (stepped : state.step? label = some next) :
    next.caller = state.caller := by
  cases label with
  | childWrites =>
      obtain ⟨record, rest, _, rfl⟩ := step?_childWrites stepped
      rfl
  | read count =>
      obtain ⟨got, _, _, rfl⟩ := step?_read stepped
      rw [settle_caller]
  | readInterrupted =>
      obtain ⟨got, _, rfl⟩ := step?_readInterrupted stepped
      rw [settle_caller]
  | readEof =>
      obtain ⟨got, _, _, rfl⟩ := step?_readEof stepped
      rw [settle_caller]
  | childCloses | pollIdle | pollReady | pollInterrupted
  | innerPollReady | innerPollTimesOut | innerPollInterrupted
  | callsPoll =>
      simp only [step?, Option.ite_none_right_eq_some,
        Option.some.injEq] at stepped
      obtain ⟨_, rfl⟩ := stepped
      simp

/-- Once out of its loop, a consumer hands over nothing more. -/
theorem left_step
    (left : state.parent = .left)
    (stepped : state.step? label = some next) :
    next.parent = .left ∧ next.shown = state.shown := by
  cases label with
  | childWrites =>
      obtain ⟨record, rest, _, rfl⟩ := step?_childWrites stepped
      exact ⟨left, rfl⟩
  | childCloses =>
      simp only [step?, Option.ite_none_right_eq_some,
        Option.some.injEq] at stepped
      obtain ⟨_, rfl⟩ := stepped
      exact ⟨left, rfl⟩
  | pollIdle | pollReady | pollInterrupted | innerPollReady
  | innerPollTimesOut | innerPollInterrupted | callsPoll | read count
  | readInterrupted | readEof =>
      simp [step?, left] at stepped

/-- Only a step that leaves the loop can come too early. -/
theorem interruptedLate_of_not_leaving
    (stepped : state.step? label = some next)
    (stays : state.parent ≠ .left → next.parent ≠ .left) :
    state.InterruptedLate label := by
  cases label with
  | pollInterrupted =>
      simp only [step?, Option.ite_none_right_eq_some,
        Option.some.injEq] at stepped
      obtain ⟨⟨polling, _⟩, rfl⟩ := stepped
      exact absurd rfl (stays (by rw [polling]; simp))
  | innerPollInterrupted =>
      simp only [step?, Option.ite_none_right_eq_some,
        Option.some.injEq] at stepped
      obtain ⟨inner, rfl⟩ := stepped
      exact absurd (congrArg State.parent (state.settle_silent rfl))
        (stays (by rw [inner]; simp))
  | childWrites | childCloses | pollIdle | pollReady | innerPollReady
  | innerPollTimesOut | callsPoll | read count | readInterrupted
  | readEof =>
      exact trivial

/-- A consumer that left its loop handed over everything expected. -/
def Complete
    (expected : List PgEvent)
    (state : State) : Prop :=
  state.parent = .left → state.shown = expected

end State

/-- The consumer starts with the whole stream ahead of it. -/
theorem following_start
    (caller : RunLoop.Caller)
    (records : List PgEvent) :
    Following (printed records) (State.start caller records) where
  short := by simp [State.held, State.start, pgEventSize]
  dry closed := absurd closed (by simp [State.start])
  waitsReady inner := absurd inner (by simp [State.start])
  waitsAlone inner := absurd inner (by simp [State.start])
  follows _ := ⟨[], rfl, rfl⟩

section Runs

variable
  {caller : RunLoop.Caller}
  {records : List PgEvent}
  {labels : List Label}
  {state : State}

/--
A consumer that has left its loop handed over what the whole stream prints
exactly when no `poll` was interrupted before everything was handed over.
-/
theorem interruptedLate_iff_complete
    (ran : (State.start caller records).run? labels = some state) :
    Transition.EachStep State.step? State.InterruptedLate
        (State.start caller records) labels ↔
      state.Complete (printed records) := by
  have started := following_start caller records
  constructor
  · intro late
    have both :
        Following (printed records) state ∧
          state.Complete (printed records) :=
      Transition.run?_invariant_of_eachStep
        (fun {before label after}
            (holds : Following (printed records) before ∧
              before.Complete (printed records))
            late stepped => by
          obtain ⟨followed, leaves⟩ := holds.1.step stepped
          refine ⟨followed, fun left => ?_⟩
          by_cases already : before.parent = .left
          · rw [(State.left_step already stepped).2]
            exact holds.2 already
          · exact (leaves already left).mp late)
        ran late ⟨started, fun left => absurd left (by simp [State.start])⟩
    exact both.2
  · intro complete
    exact (Transition.eachStep_of_final
      (fun holds stepped => (Following.step holds stepped).1)
      (fun {before label after} stepped complete already => by
        obtain ⟨left, same⟩ := State.left_step already stepped
        rw [← same]
        exact complete left)
      (fun {before label after} followed stepped complete => by
        by_cases leaving :
            before.parent ≠ .left ∧ after.parent = .left
        · exact (followed.step stepped).2 leaving.1 leaving.2 |>.mpr
            (complete leaving.2)
        · exact State.interruptedLate_of_not_leaving stepped
            (not_and.mp leaving))
      ran started complete).1

/-- `run_headless` has no `poll` that a signal could interrupt. -/
theorem headless_complete
    (ran :
      (State.start .runHeadless records).run? labels = some state) :
    state.Complete (printed records) := by
  have alone :
      ∀ {before : State} {label : Label} {after : State},
        Following (printed records) before ∧
            before.caller = .runHeadless →
          True →
          before.step? label = some after →
          before.InterruptedLate label := by
    rintro before label after ⟨followed, headless⟩ _ stepped
    cases label with
    | pollInterrupted =>
        simp [State.step?, headless] at stepped
    | innerPollInterrupted =>
        simp only [State.step?, Option.ite_none_right_eq_some,
          Option.some.injEq] at stepped
        have scenario := followed.waitsAlone stepped.1
        rw [headless] at scenario
        exact absurd scenario (by simp)
    | childWrites | childCloses | pollIdle | pollReady
    | innerPollReady | innerPollTimesOut | callsPoll | read count
    | readInterrupted | readEof =>
        exact trivial
  refine (interruptedLate_iff_complete ran).mp
    (Transition.eachStep_mono (fun holds _ stepped => ?_) alone ran
      (Transition.eachStep_of_forall (fun _ _ => trivial) _)
      ⟨following_start .runHeadless records, rfl⟩)
  exact ⟨(holds.1.step stepped).1,
    (State.caller_step stepped).trans holds.2⟩

end Runs

/--
For one stream of records, `run_scenario` hands over the list that
`run_headless` prints exactly when no signal interrupted a `poll` of
`run_scenario` while something was left to hand over.
-/
theorem consumersAgree_exact
    (records : List PgEvent)
    (scenarioLabels headlessLabels : List Label)
    (scenario headless : State)
    (ranScenario :
      (State.start .runScenario records).run? scenarioLabels =
        some scenario)
    (ranHeadless :
      (State.start .runHeadless records).run? headlessLabels =
        some headless)
    (scenarioLeft : scenario.parent = .left)
    (headlessLeft : headless.parent = .left) :
    headless.shown = printed records ∧
      (Transition.EachStep State.step? State.InterruptedLate
          (State.start .runScenario records) scenarioLabels ↔
        scenario.shown = headless.shown) := by
  have prints : headless.shown = printed records :=
    headless_complete ranHeadless headlessLeft
  refine ⟨prints, ?_⟩
  rw [interruptedLate_iff_complete ranScenario, prints]
  exact ⟨fun complete => complete scenarioLeft, fun same _ => same⟩

/-- A log record and `PG_EV_DONE`, as a child sends them. -/
def logThenDone : List PgEvent :=
  [pgEmitCopy { eventFdW := 3, threadTag := 0, startNs := 0 } 1 5
      (PgEvent.ofKind .log),
    pgEmitCopy { eventFdW := 3, threadTag := 0, startNs := 0 } 1 6
      (PgEvent.ofKind .done)]

/-- Every record arrives in one read; the reads are interrupted once. -/
def scenarioRun : List Label :=
  [.pollIdle, .childWrites, .pollReady, .innerPollReady, .readInterrupted,
    .read 256, .childWrites, .pollReady, .innerPollReady, .read 256]

/-- The first record arrives in two reads. -/
def headlessRun : List Label :=
  [.callsPoll, .childWrites, .read 100, .childWrites, .read 156,
    .callsPoll, .read 256]

theorem consumersAgree_exact_logThenDone :
    ∃ scenario headless,
      (State.start .runScenario logThenDone).run? scenarioRun =
          some scenario ∧
        (State.start .runHeadless logThenDone).run? headlessRun =
          some headless ∧
        scenario.shown = headless.shown := by
  have scenarioEnds :
      ((State.start .runScenario logThenDone).run? scenarioRun).any
        (fun state => state.parent = .left) = true := by
    decide +kernel
  have headlessEnds :
      ((State.start .runHeadless logThenDone).run? headlessRun).any
        (fun state => state.parent = .left) = true := by
    decide +kernel
  have late :
      Transition.EachStep State.step? State.InterruptedLate
        (State.start .runScenario logThenDone) scenarioRun := by
    decide +kernel
  obtain ⟨scenario, ranScenario, scenarioLeft⟩ :=
    (Option.any_eq_true _ _).mp scenarioEnds
  obtain ⟨headless, ranHeadless, headlessLeft⟩ :=
    (Option.any_eq_true _ _).mp headlessEnds
  exact ⟨scenario, headless, ranScenario, ranHeadless,
    (consumersAgree_exact logThenDone scenarioRun headlessRun scenario
      headless ranScenario ranHeadless (of_decide_eq_true scenarioLeft)
      (of_decide_eq_true headlessLeft)).2.mp late⟩

/--
A signal interrupts the `poll` of `run_scenario` before the child has written
its two records: neither is handed over, and `run_headless` prints both.
-/
theorem consumers_disagree_interrupted :
    ∃ scenario headless,
      (State.start .runScenario logThenDone).run?
            [.pollInterrupted, .childWrites, .childWrites,
              .childCloses] =
          some scenario ∧
        (State.start .runHeadless logThenDone).run? headlessRun =
          some headless ∧
        scenario.parent = .left ∧ headless.parent = .left ∧
        scenario.shown = [] ∧ headless.shown = logThenDone := by
  have scenarioEnds :
      ((State.start .runScenario logThenDone).run?
          [.pollInterrupted, .childWrites, .childWrites,
            .childCloses]).any
        (fun state => state.parent = .left ∧ state.shown = []) =
        true := by
    decide +kernel
  have headlessEnds :
      ((State.start .runHeadless logThenDone).run? headlessRun).any
        (fun state => state.parent = .left) = true := by
    decide +kernel
  have both : printed logThenDone = logThenDone := by
    rw [logThenDone, printed_accepted (by decide) (by decide),
      printed_done (by decide) (by decide)]
  obtain ⟨scenario, ranScenario, interrupted⟩ :=
    (Option.any_eq_true _ _).mp scenarioEnds
  obtain ⟨headless, ranHeadless, ended⟩ :=
    (Option.any_eq_true _ _).mp headlessEnds
  obtain ⟨scenarioLeft, nothing⟩ := of_decide_eq_true interrupted
  have headlessLeft := of_decide_eq_true ended
  have shown := headless_complete ranHeadless headlessLeft
  rw [both] at shown
  exact ⟨scenario, headless, ranScenario, ranHeadless, scenarioLeft,
    headlessLeft, nothing, shown⟩

end FailurePlayground.Consumers
