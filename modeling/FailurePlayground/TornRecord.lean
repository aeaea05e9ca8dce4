import FailurePlayground.EventPipe

namespace FailurePlayground.EventPipe

/-!
# Reading past a torn record

A writer that dies inside its write leaves a proper prefix of a record in the
pipe.  `pg_run_poll` does not look for the next header: it cuts the stream
into 256-byte windows from where it stands, so every window after the tear is
shifted by the length of the prefix.
-/

/-- What `pg_run_poll` returns for a complete window of bytes. -/
def pollWindow (window : List UInt8) : PollResult :=
  if headerAccepted (PgEvent.decode window) then
    .event (PgEvent.decode window)
  else
    .error

/-- The record handed over for a window, when the result is 1. -/
def windowRecord? (window : List UInt8) : Option PgEvent :=
  (pollWindow window).event?

/-- A read that completes a window returns what the window holds. -/
theorem pgRunPollIteration_full
    {got chunk : List UInt8}
    (full : ¬ (got ++ chunk).length < pgEventSize) :
    pgRunPollIteration got (.bytes chunk) =
      .returned (pollWindow (got ++ chunk)) := by
  simp only [pgRunPollIteration, full, ↓reduceIte, pollWindow]
  split <;> rfl

/-- The window of an accepted record returns that record. -/
theorem pollWindow_encode
    {record : PgEvent}
    (accepted : headerAccepted record = true) :
    pollWindow record.encode = .event record := by
  simp only [pollWindow, PgEvent.decode_encode, accepted, ↓reduceIte]

/-- A window that returns a record is that record's image. -/
theorem encode_of_pollWindow
    {window : List UInt8}
    {record : PgEvent}
    (full : window.length = pgEventSize)
    (returned : windowRecord? window = some record) :
    window = record.encode := by
  unfold windowRecord? pollWindow at returned
  split at returned
  · rw [← Option.some.inj returned]
    exact (PgEvent.encode_decode full).symm
  · exact absurd returned (by simp [PollResult.event?])

/-- The reader has cut a stream into windows, and perhaps met its end. -/
inductive Windowed
    (stream : List UInt8)
    (state : State 0)
    (windows : List (List UInt8)) : Prop where
  | reading
      (shape :
        stream =
          windows.flatten ++ (state.reading.getD [] ++ state.pipe))
      (results : state.results = windows.map pollWindow)
  | ended
      (leftover : List UInt8)
      (short : leftover.length < pgEventSize)
      (shape : stream = windows.flatten ++ leftover)
      (drained : state.pipe = [])
      (idle : state.reading.getD [] = [])
      (others : List PollResult)
      (silent : ∀ result ∈ others, result.event? = none)
      (results : state.results = windows.map pollWindow ++ others)

/-- The invariant of a reader whose writers are gone. -/
structure Cut
    (stream : List UInt8)
    (state : State 0)
    (windows : List (List UInt8)) : Prop where
  closed : state.writersOpen = false
  full : ∀ window ∈ windows, window.length = pgEventSize
  readingShort :
    ∀ got, state.reading = some got → got.length < pgEventSize
  windowed : Windowed stream state windows

/-- Before the first read there are no windows. -/
theorem cut_ofStream (stream : List UInt8) :
    Cut stream (State.ofStream stream) [] where
  closed := rfl
  full := fun _ member => absurd member List.not_mem_nil
  readingShort := fun _ absent => nomatch absent
  windowed := .reading rfl rfl

namespace Cut

variable
  {stream : List UInt8}
  {state next : State 0}
  {windows : List (List UInt8)}

/-- Starting to poll keeps the cut. -/
theorem poll
    (cut : Cut stream state windows)
    (stepped : state.step? .poll = some next) :
    Cut stream next windows := by
  obtain ⟨idle, rfl⟩ := State.step?_poll stepped
  refine {
    closed := cut.closed
    full := cut.full
    readingShort := ?_
    windowed := ?_
  }
  · intro got found
    rw [← Option.some.inj found]
    decide
  · cases cut.windowed with
    | reading shape results =>
        rw [idle] at shape
        exact .reading shape results
    | ended leftover short shape drained _ others silent results =>
        exact .ended leftover short shape drained rfl others silent
          results

/-- A read extends the window, or completes it. -/
theorem read
    (cut : Cut stream state windows)
    {count : Nat}
    (stepped : state.step? (.read count) = some next) :
    ∃ later, Cut stream next (windows ++ later) := by
  obtain ⟨got, reading, positive, available, fits, rfl⟩ :=
    State.step?_read stepped
  cases cut.windowed with
  | ended _ _ _ drained _ _ _ _ =>
      rw [drained, List.length_nil] at available
      omega
  | reading shape results =>
      have taken :
          stream =
            windows.flatten ++
              ((got ++ state.pipe.take count) ++
                state.pipe.drop count) := by
        rw [shape, reading, Option.getD_some, List.append_assoc,
          List.take_append_drop]
      by_cases short :
          (got ++ state.pipe.take count).length < pgEventSize
      · rw [pgRunPollIteration_short short]
        refine ⟨[], ?_⟩
        rw [List.append_nil]
        exact {
          closed := cut.closed
          full := cut.full
          readingShort := by
            intro other found
            rw [← Option.some.inj found]
            exact short
          windowed := .reading taken results
        }
      · rw [pgRunPollIteration_full short]
        refine ⟨[got ++ state.pipe.take count], {
          closed := cut.closed
          full := ?_
          readingShort := fun _ absent => nomatch absent
          windowed := .reading ?_ ?_
        }⟩
        · intro window member
          rcases List.mem_append.mp member with old | new
          · exact cut.full window old
          · rw [List.mem_singleton.mp new]
            rw [List.length_append,
              List.length_take_of_le available] at short ⊢
            omega
        · rw [taken, List.flatten_append, List.flatten_singleton]
          simp only [State.settle, Option.getD_none, List.nil_append,
            List.append_assoc]
        · rw [List.map_append]
          exact congrArg (· ++ _) results

/-- End of file leaves less than a window behind. -/
theorem readEof
    (cut : Cut stream state windows)
    (stepped : state.step? .readEof = some next) :
    Cut stream next windows := by
  obtain ⟨got, reading, drained, _, rfl⟩ := State.step?_readEof stepped
  have silent :
      ∃ result,
        pgRunPollIteration got .eof = .returned result ∧
          result.event? = none := by
    cases got with
    | nil =>
        exact ⟨.eof, rfl, rfl⟩
    | cons byte rest =>
        exact ⟨.error, rfl, rfl⟩
  obtain ⟨result, ends, resultSilent⟩ := silent
  rw [ends]
  refine {
    closed := cut.closed
    full := cut.full
    readingShort := fun _ absent => nomatch absent
    windowed := ?_
  }
  cases cut.windowed with
  | reading shape results =>
      rw [reading, drained, Option.getD_some, List.append_nil] at shape
      exact .ended got (cut.readingShort got reading) shape drained rfl
        [result]
        (fun _ member =>
          (List.mem_singleton.mp member).symm ▸ resultSilent)
        (congrArg (· ++ [result]) results)
  | ended leftover short shape _ _ others othersSilent results =>
      refine .ended leftover short shape drained rfl
        (others ++ [result]) ?_ ?_
      · intro other member
        rcases List.mem_append.mp member with old | new
        · exact othersSilent other old
        · rw [List.mem_singleton.mp new]
          exact resultSilent
      · rw [← List.append_assoc]
        exact congrArg (· ++ [result]) results

/-- Every step keeps the cut, with at most one more window. -/
theorem step
    (cut : Cut stream state windows)
    {label : Label 0}
    (stepped : state.step? label = some next) :
    ∃ later, Cut stream next (windows ++ later) := by
  cases label with
  | emit index nowNs | write index | writeInterrupted index =>
      exact index.elim0
  | closeWriters =>
      have wasOpen := (State.step?_closeWriters stepped).2.1
      rw [cut.closed] at wasOpen
      exact absurd wasOpen Bool.false_ne_true
  | poll =>
      exact ⟨[], by simpa using cut.poll stepped⟩
  | read count =>
      exact cut.read stepped
  | readInterrupted =>
      rw [State.step?_readInterrupted stepped]
      exact ⟨[], by simpa using cut⟩
  | readEof =>
      exact ⟨[], by simpa using cut.readEof stepped⟩

/-- Every run keeps a cut. -/
theorem run
    {labels : List (Label 0)}
    (ran : (State.ofStream stream).run? labels = some state) :
    ∃ windows, Cut stream state windows := by
  have preserved :
      ∀ {before : State 0} {label : Label 0} {after : State 0},
        (∃ windows, Cut stream before windows) →
        before.step? label = some after →
        ∃ windows, Cut stream after windows := by
    intro before label after cut stepped
    obtain ⟨earlier, holds⟩ := cut
    obtain ⟨later, holdsNext⟩ := holds.step stepped
    exact ⟨earlier ++ later, holdsNext⟩
  exact Transition.run?_invariant preserved ran
    ⟨[], cut_ofStream stream⟩

/-- The records returned are those held by the windows. -/
theorem returned
    (cut : Cut stream state windows) :
    state.returned =
      windows.filterMap windowRecord? := by
  cases cut.windowed with
  | reading _ results =>
      rw [State.returned, results, List.filterMap_map]
      rfl
  | ended _ _ _ _ _ others silent results =>
      have nothing : others.filterMap PollResult.event? = [] :=
        List.filterMap_eq_nil_iff.mpr silent
      rw [State.returned, results, List.filterMap_append, nothing,
        List.append_nil, List.filterMap_map]
      rfl

/-- The windows are the start of the stream. -/
theorem stream_eq
    (cut : Cut stream state windows) :
    ∃ rest, stream = windows.flatten ++ rest := by
  cases cut.windowed with
  | reading shape _ =>
      exact ⟨_, shape⟩
  | ended leftover _ shape _ _ _ _ _ =>
      exact ⟨leftover, shape⟩

/-- Once end of file is reported, less than a window is left over. -/
theorem stream_of_atEof
    (cut : Cut stream state windows)
    (ended : state.atEof) :
    ∃ leftover,
      leftover.length < pgEventSize ∧
        stream = windows.flatten ++ leftover := by
  cases cut.windowed with
  | reading _ results =>
      rw [State.atEof, results] at ended
      obtain ⟨window, _, isEof⟩ := List.mem_map.mp ended
      unfold pollWindow at isEof
      split at isEof <;> exact absurd isEof (by simp)
  | ended leftover short shape _ _ _ _ _ =>
      exact ⟨leftover, short, shape⟩

end Cut

section Progress

/-- A bound on the reader's steps before end of file is reported. -/
def readerWork (state : State 0) : Nat :=
  4 * state.pipe.length +
    match state.reading with
    | none => 1
    | some [] => 0
    | some (_ :: _) => 2

/-- The reader always has a step that ends or leaves it less to do. -/
theorem Cut.progress
    {stream : List UInt8}
    {state : State 0}
    {windows : List (List UInt8)}
    (cut : Cut stream state windows) :
    ∃ label next,
      state.step? label = some next ∧
        (next.atEof ∨ readerWork next < readerWork state) := by
  cases reading : state.reading with
  | none =>
      refine ⟨.poll, { state with reading := some [] }, ?_, Or.inr ?_⟩
      · simp [State.step?, reading, pgRunPoll, State.settle]
      · simp [readerWork, reading]
  | some got =>
      have short := cut.readingShort got reading
      cases available : state.pipe with
      | nil =>
          cases got with
          | nil =>
              refine ⟨.readEof,
                state.settle (.returned .eof), ?_, Or.inl ?_⟩
              · simp [State.step?, reading, available, cut.closed,
                  pgRunPollIteration]
              · simp [State.atEof, State.settle]
          | cons byte rest =>
              refine ⟨.readEof,
                state.settle (.returned .error), ?_, Or.inr ?_⟩
              · simp [State.step?, reading, available, cut.closed,
                  pgRunPollIteration]
              · simp [readerWork, State.settle, reading, available]
      | cons byte rest =>
          refine ⟨.read 1,
            ({ state with pipe := rest } : State 0).settle
              (pgRunPollIteration got (.bytes [byte])), ?_, Or.inr ?_⟩
          · have fits : got.length + 1 ≤ pgEventSize := short
            simp [State.step?, reading, available, fits]
          · cases pgRunPollIteration got (.bytes [byte]) with
            | reading got' =>
                simp only [readerWork, State.settle, available,
                  List.length_cons]
                split <;> split <;> omega
            | returned result =>
                simp only [readerWork, State.settle, available,
                  List.length_cons]
                split <;> omega

/-- Some run of the reader reaches end of file. -/
theorem exists_run_atEof (stream : List UInt8) :
    ∃ labels state,
      (State.ofStream stream).run? labels = some state ∧
        state.atEof := by
  have progress :
      ∀ state : State 0,
        (∃ windows, Cut stream state windows) →
        ¬ state.atEof →
        ∃ label next,
          state.step? label = some next ∧
            (∃ windows, Cut stream next windows) ∧
            (next.atEof ∨ readerWork next < readerWork state) := by
    intro state cut _
    obtain ⟨windows, holds⟩ := cut
    obtain ⟨label, next, stepped, lower⟩ := holds.progress
    obtain ⟨later, holdsNext⟩ := holds.step stepped
    exact ⟨label, next, stepped, ⟨_, holdsNext⟩, lower⟩
  obtain ⟨labels, state, ran, _, ended⟩ :=
    Transition.exists_run_to_goal readerWork progress
      ⟨[], cut_ofStream stream⟩
  exact ⟨labels, state, ran, ended⟩

end Progress

section Recovery

/-- The stream of complete records. -/
def recordStream (records : List PgEvent) : List UInt8 :=
  records.flatMap PgEvent.encode

/-- Complete emitted records with one torn record among them. -/
structure TornStream
    (before : List PgEvent)
    (torn : List UInt8)
    (after : List PgEvent) : Prop where
  beforeEmitted : ∀ record ∈ before, headerAccepted record = true
  tornFrom :
    ∃ whole written,
      headerAccepted whole = true ∧
        0 < written ∧ written < pgEventSize ∧
        torn = whole.encode.take written
  afterEmitted : ∀ record ∈ after, headerAccepted record = true

/-- The stream the reader finds. -/
def tornBytes
    (before : List PgEvent)
    (torn : List UInt8)
    (after : List PgEvent) : List UInt8 :=
  recordStream before ++ (torn ++ recordStream after)

/--
Only complete emitted records are returned, and once end of file is reported
all of them have been.
-/
structure Recovers
    (before : List PgEvent)
    (torn : List UInt8)
    (after : List PgEvent) : Prop where
  emitted :
    ∀ labels state,
      (State.ofStream (tornBytes before torn after)).run? labels =
          some state →
      ∀ record ∈ state.returned, record ∈ before ++ after
  resynchronised :
    ∀ labels state,
      (State.ofStream (tornBytes before torn after)).run? labels =
          some state →
      state.atEof →
      (before ++ after).Sublist state.returned

/-- A torn record has between 1 and 255 bytes. -/
theorem TornStream.length_torn
    {before after : List PgEvent}
    {torn : List UInt8}
    (tornStream : TornStream before torn after) :
    0 < torn.length ∧ torn.length < pgEventSize := by
  obtain ⟨whole, written, _, positive, proper, rfl⟩ :=
    tornStream.tornFrom
  rw [List.length_take, PgEvent.length_encode]
  omega

/-- The images of complete records are windows. -/
theorem length_of_mem_images
    {records : List PgEvent} :
    ∀ window ∈ records.map PgEvent.encode,
      window.length = pgEventSize := by
  intro window member
  obtain ⟨record, _, rfl⟩ := List.mem_map.mp member
  exact PgEvent.length_encode record

/-- Windows cut at record boundaries return the records. -/
theorem filterMap_images
    {records : List PgEvent}
    (accepted : ∀ record ∈ records, headerAccepted record = true) :
    (records.map PgEvent.encode).filterMap windowRecord? =
      records := by
  rw [List.filterMap_map]
  have each :
      ∀ record ∈ records,
        (windowRecord? ∘ PgEvent.encode) record = some record := by
    intro record member
    simp only [Function.comp_apply, windowRecord?,
      pollWindow_encode (accepted record member), PollResult.event?]
  rw [List.filterMap_congr each, List.filterMap_some]

/-- Windows that return as many records as there are windows hold them. -/
theorem images_of_filterMap
    {windows : List (List UInt8)}
    {records : List PgEvent}
    (full : ∀ window ∈ windows, window.length = pgEventSize)
    (returned : windows.filterMap windowRecord? = records)
    (all : records.length = windows.length) :
    windows = records.map PgEvent.encode := by
  induction windows generalizing records with
  | nil =>
      rw [← returned]
      rfl
  | cons window rest inductionHypothesis =>
      have restFull :
          ∀ other ∈ rest, other.length = pgEventSize :=
        fun other member =>
          full other (List.mem_cons_of_mem window member)
      cases found : windowRecord? window with
      | none =>
          rw [List.filterMap_cons_none found] at returned
          have bound := List.length_filterMap_le windowRecord? rest
          rw [returned, all, List.length_cons] at bound
          omega
      | some record =>
          rw [List.filterMap_cons_some found] at returned
          subst returned
          rw [List.length_cons, List.length_cons,
            Nat.succ_inj] at all
          rw [List.map_cons,
            ← encode_of_pollWindow (full window List.mem_cons_self)
              found,
            ← inductionHypothesis restFull rfl all]

/-- A shifted stream is the complete records and a short remainder. -/
theorem tornBytes_of_repeats
    {before after : List PgEvent}
    {torn : List UInt8}
    (tornStream : TornStream before torn after)
    (repeats : Bytes.Repeats torn (recordStream after)) :
    ∃ leftover,
      leftover.length < pgEventSize ∧
        tornBytes before torn after =
          ((before ++ after).map PgEvent.encode).flatten ++
            leftover := by
  obtain ⟨positive, proper⟩ := tornStream.length_torn
  obtain ⟨leftover, shifted⟩ :=
    (Bytes.repeats_iff_prefix positive).mp repeats
  refine ⟨leftover, ?_, ?_⟩
  · have lengths := congrArg List.length shifted
    rw [List.length_append, List.length_append] at lengths
    omega
  · rw [tornBytes, ← shifted, ← List.flatMap_def,
      List.flatMap_append, List.append_assoc]
    rfl

/-- If the further records repeat the torn prefix, the reader recovers. -/
theorem recovers_of_repeats
    {before after : List PgEvent}
    {torn : List UInt8}
    (tornStream : TornStream before torn after)
    (repeats : Bytes.Repeats torn (recordStream after)) :
    Recovers before torn after := by
  obtain ⟨leftover, short, inStep⟩ :=
    tornBytes_of_repeats tornStream repeats
  have accepted :
      ∀ record ∈ before ++ after, headerAccepted record = true := by
    intro record member
    rcases List.mem_append.mp member with isBefore | isAfter
    · exact tornStream.beforeEmitted record isBefore
    · exact tornStream.afterEmitted record isAfter
  constructor
  · intro labels state ran
    obtain ⟨windows, cut⟩ := Cut.run ran
    obtain ⟨rest, shape⟩ := cut.stream_eq
    have windowsPrefix :=
      Bytes.prefix_of_flatten cut.full length_of_mem_images short
        (shape.symm.trans inStep)
    have returnedPrefix :=
      windowsPrefix.filterMap windowRecord?
    rw [filterMap_images accepted, ← cut.returned] at returnedPrefix
    exact fun record member => returnedPrefix.subset member
  · intro labels state ran ended
    obtain ⟨windows, cut⟩ := Cut.run ran
    obtain ⟨rest, restShort, shape⟩ := cut.stream_of_atEof ended
    have windowsPrefix :=
      Bytes.prefix_of_flatten cut.full length_of_mem_images short
        (shape.symm.trans inStep)
    have imagesPrefix :=
      Bytes.prefix_of_flatten length_of_mem_images cut.full restShort
        (inStep.symm.trans shape)
    have same :=
      windowsPrefix.eq_of_length
        (Nat.le_antisymm windowsPrefix.length_le
          imagesPrefix.length_le)
    rw [cut.returned, same, filterMap_images accepted]

/-- If the reader recovers, the further records repeat the torn prefix. -/
theorem repeats_of_recovers
    {before after : List PgEvent}
    {torn : List UInt8}
    (tornStream : TornStream before torn after)
    (recovers : Recovers before torn after) :
    Bytes.Repeats torn (recordStream after) := by
  obtain ⟨positive, proper⟩ := tornStream.length_torn
  obtain ⟨labels, state, ran, ended⟩ :=
    exists_run_atEof (tornBytes before torn after)
  obtain ⟨windows, cut⟩ := Cut.run ran
  obtain ⟨leftover, short, shape⟩ := cut.stream_of_atEof ended
  have resynchronised :=
    recovers.resynchronised labels state ran ended
  rw [cut.returned] at resynchronised
  -- There are exactly as many windows as complete records.
  have windowCount :
      windows.length = (before ++ after).length := by
    have lengths := congrArg List.length shape
    simp only [tornBytes, recordStream, List.length_append,
      Bytes.length_flatMap PgEvent.length_encode,
      Bytes.length_flatten cut.full] at lengths
    rw [List.length_append]
    simp only [pgEventSize] at lengths proper short
    omega
  have returnedBound := List.length_filterMap_le windowRecord? windows
  have allReturned :=
    resynchronised.eq_of_length_le (windowCount ▸ returnedBound)
  have images :=
    images_of_filterMap cut.full allReturned.symm windowCount.symm
  rw [Bytes.repeats_iff_prefix positive]
  refine ⟨leftover, ?_⟩
  have aligned :
      recordStream before ++ (recordStream after ++ leftover) =
        recordStream before ++ (torn ++ recordStream after) := by
    rw [← tornBytes, shape, images, ← List.flatMap_def,
      List.flatMap_append, List.append_assoc]
    rfl
  exact List.append_cancel_left aligned

/--
The reader recovers from a torn record exactly when the bytes of the records
that follow are the torn prefix repeated end to end, as when there are none.
-/
theorem recovers_iff_repeats
    (before after : List PgEvent)
    (torn : List UInt8)
    (tornStream : TornStream before torn after) :
    Recovers before torn after ↔
      Bytes.Repeats torn (recordStream after) :=
  ⟨repeats_of_recovers tornStream, recovers_of_repeats tornStream⟩

/-- A log record as a child sends it. -/
def sentLog : PgEvent :=
  pgEmitCopy { eventFdW := 3, threadTag := 0, startNs := 0 } 1 5
    (PgEvent.ofKind .log)

/-- A record torn after ten bytes with nothing after it. -/
theorem tornStream_last :
    TornStream [sentLog] (sentLog.encode.take 10) [] where
  beforeEmitted := by decide
  tornFrom := ⟨sentLog, 10, by decide, by decide, by decide, rfl⟩
  afterEmitted := by decide

theorem recovers_iff_repeats_last :
    Recovers [sentLog] (sentLog.encode.take 10) [] :=
  (recovers_iff_repeats [sentLog] [] (sentLog.encode.take 10)
    tornStream_last).mpr fun index bound =>
      absurd bound (Nat.not_lt_zero index)

/-- The window over ten torn bytes and a record decodes to neither. -/
theorem recovers_fails_tornLog :
    TornStream [] (sentLog.encode.take 10) [sentLog] ∧
      ¬ Recovers [] (sentLog.encode.take 10) [sentLog] := by
  have mixture :
      ((State.ofStream
            (tornBytes [] (sentLog.encode.take 10) [sentLog])).run?
          [.poll, .read 256]).any
        (fun state =>
          state.returned.any fun record => record ≠ sentLog) =
        true := by
    decide +kernel
  refine ⟨{
    beforeEmitted := by decide
    tornFrom := ⟨sentLog, 10, by decide, by decide, by decide, rfl⟩
    afterEmitted := by decide
  }, fun recovers => ?_⟩
  obtain ⟨state, ran, found⟩ := (Option.any_eq_true _ _).mp mixture
  obtain ⟨record, member, different⟩ := List.any_eq_true.mp found
  have emitted := recovers.emitted _ state ran record member
  rw [List.nil_append, List.mem_singleton] at emitted
  exact of_decide_eq_true different emitted

end Recovery

end FailurePlayground.EventPipe
