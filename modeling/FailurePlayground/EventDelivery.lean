import FailurePlayground.EventPipe
import FailurePlayground.Lib.Interleaving
import FailurePlayground.Lib.Parties

namespace FailurePlayground.EventPipe

/-!
# Event delivery

What the parent receives is an interleaving of what the threads emitted.  The
invariant aligns the reader with the writers: the records returned so far, the
bytes of the record being read and the bytes in the pipe are together exactly
the records written so far, in write order.
-/

open Interleaving

/-- A received record carries the emitted one's payload. -/
structure Stamped (original copy : PgEvent) : Prop where
  kind : copy.kind = original.kind
  num : copy.num = original.num
  key : copy.key = original.key
  text : copy.text = original.text
  tsNs : original.tsNs ≠ 0 → copy.tsNs = original.tsNs
  threadTag : original.threadTag ≠ 0 → copy.threadTag = original.threadTag

/-- `pg_emit` keeps the payload of the event it copies. -/
theorem stamped_pgEmitCopy
    (ctx : PgRunctx)
    (gThreadTag : UInt32)
    (nowNs : UInt64)
    (event : PgEvent) :
    Stamped event (pgEmitCopy ctx gThreadTag nowNs event) where
  kind := rfl
  num := rfl
  key := rfl
  text := rfl
  tsNs := fun given => by simp [pgEmitCopy, given]
  threadTag := fun given => by simp [pgEmitCopy, given]

/-- A thread between its emission sequence and the records it has written. -/
def ThreadAligned
    (emission : List PgEvent)
    (thread : Thread)
    (sent : List PgEvent) : Prop :=
  ∃ originals,
    List.Forall₂ Stamped originals sent ∧
      match thread.writing with
      | none =>
          emission = originals ++ thread.pending
      | some remaining =>
          ∃ original copy,
            Stamped original copy ∧
              headerAccepted copy = true ∧
              remaining = copy.encode ∧
              emission = originals ++ original :: thread.pending

/-- The reader, the pipe and the writers agree on the records written. -/
structure Aligned
    {n : Nat}
    (emissions : Fin n → List PgEvent)
    (state : State n)
    (written : List (Fin n × PgEvent)) : Prop where
  fdOpen : ¬ state.ctx.eventFdW < 0
  stream :
    state.returned.flatMap PgEvent.encode ++
        state.reading.getD [] ++ state.pipe =
      (written.map Prod.snd).flatMap PgEvent.encode
  readingShort :
    ∀ got, state.reading = some got → got.length < pgEventSize
  accepted :
    ∀ entry ∈ written, headerAccepted entry.2 = true
  threads :
    ∀ index,
      ThreadAligned (emissions index) (state.threads index)
        (ofOwner index written)
  closed :
    state.writersOpen = false →
      ∀ index, (state.threads index).finished = true
  results :
    ∃ eofs,
      state.results =
          state.returned.map PollResult.event ++
            List.replicate eofs PollResult.eof ∧
        (0 < eofs →
          state.writersOpen = false ∧ state.pipe = [] ∧
            state.reading.getD [] = [])

section Settle

variable {n : Nat} (state : State n)

theorem returned_settle_event (event : PgEvent) :
    (state.settle (.returned (.event event))).returned =
      state.returned ++ [event] := by
  simp [State.settle, State.returned, PollResult.event?]

theorem returned_settle_eof :
    (state.settle (.returned .eof)).returned = state.returned := by
  simp [State.settle, State.returned, PollResult.event?]

end Settle

/-- A fresh pipe is aligned with nothing written. -/
theorem aligned_start
    {n : Nat}
    (fd capacity : Nat)
    (capacityFits : pipeBuf ≤ capacity)
    (startNs : UInt64)
    (gThreadTags : Fin n → UInt32)
    (emissions : Fin n → List PgEvent) :
    Aligned emissions
      (State.start fd capacity capacityFits startNs gThreadTags
        emissions) [] where
  fdOpen := by simp [State.start]
  stream := rfl
  readingShort := by
    intro got absent
    simp [State.start] at absent
  accepted := by simp
  threads := fun index => ⟨[], .nil, rfl⟩
  closed := by
    intro isClosed
    simp [State.start] at isClosed
  results := ⟨0, rfl, fun absurd => by omega⟩

namespace Aligned

variable
  {n : Nat}
  {emissions : Fin n → List PgEvent}
  {state next : State n}
  {written : List (Fin n × PgEvent)}

/-- Starting to emit keeps the alignment; nothing is written yet. -/
theorem emit
    (aligned : Aligned emissions state written)
    {index : Fin n}
    {nowNs : UInt64}
    (stepped : state.step? (.emit index nowNs) = some next) :
    Aligned emissions next written := by
  obtain ⟨originals, sent, shape⟩ := aligned.threads index
  obtain ⟨event, rest, writing, pending, rfl⟩ :=
    State.step?_emit stepped
  simp only [writing, pending] at shape
  have busy : (state.threads index).finished = false := by
    simp [Thread.finished, pending]
  rw [pgEmit_open aligned.fdOpen]
  refine {
    fdOpen := aligned.fdOpen
    stream := aligned.stream
    readingShort := aligned.readingShort
    accepted := aligned.accepted
    threads := ?_
    closed := ?_
    results := aligned.results
  }
  · intro query
    by_cases same : query = index
    · subst same
      simp only [State.setThread, Function.update_self]
      exact ⟨originals, sent, event, _,
        stamped_pgEmitCopy _ _ _ event,
        headerAccepted_pgEmitCopy _ _ _ event, rfl, shape⟩
    · simp only [State.setThread, Function.update_of_ne same]
      exact aligned.threads query
  · intro isClosed
    have finished := aligned.closed isClosed index
    rw [busy] at finished
    exact absurd finished Bool.false_ne_true

/-- A write appends one record to the pipe and to the records written. -/
theorem write
    (aligned : Aligned emissions state written)
    {index : Fin n}
    (stepped : state.step? (.write index) = some next) :
    ∃ copy, Aligned emissions next (written ++ [(index, copy)]) := by
  obtain ⟨originals, sent, shape⟩ := aligned.threads index
  obtain ⟨remaining, writing, rfl⟩ := State.step?_write stepped
  simp only [writing] at shape
  obtain ⟨original, copy, stamped, header, encoded, emission⟩ := shape
  have busy : (state.threads index).finished = false := by
    simp [Thread.finished, writing]
  refine ⟨copy, {
    fdOpen := aligned.fdOpen
    stream := ?_
    readingShort := aligned.readingShort
    accepted := ?_
    threads := ?_
    closed := ?_
    results := ?_
  }⟩
  · have stream := aligned.stream
    simp only [List.map_append, List.map_cons, List.map_nil,
      List.flatMap_append, List.flatMap_cons,
      List.flatMap_nil, List.append_nil, ← stream, encoded]
    simp only [State.setThread, State.returned, List.append_assoc]
  · intro entry member
    rcases List.mem_append.mp member with old | new
    · exact aligned.accepted entry old
    · rw [List.mem_singleton.mp new]
      exact header
  · intro query
    by_cases same : query = index
    · subst same
      simp only [State.setThread, Function.update_self,
        ofOwner_snoc_same]
      refine ⟨originals ++ [original],
        List.rel_append sent (.cons stamped .nil), ?_⟩
      simp [emission]
    · simp only [State.setThread, Function.update_of_ne same,
        ofOwner_snoc_other (Ne.symm same)]
      exact aligned.threads query
  · intro isClosed
    have finished := aligned.closed isClosed index
    rw [busy] at finished
    exact absurd finished Bool.false_ne_true
  · obtain ⟨eofs, results, ended⟩ := aligned.results
    refine ⟨eofs, results, fun positive => ?_⟩
    have finished := aligned.closed (ended positive).1 index
    rw [busy] at finished
    exact absurd finished Bool.false_ne_true

/-- While bytes remain, every result so far is a record. -/
theorem results_of_pipe
    (aligned : Aligned emissions state written)
    (available : state.pipe ≠ []) :
    state.results = state.returned.map PollResult.event := by
  obtain ⟨eofs, results, ended⟩ := aligned.results
  cases eofs with
  | zero =>
      simpa using results
  | succ eofs =>
      exact (available (ended (Nat.zero_lt_succ eofs)).2.1).elim

/-- A read keeps the alignment; a completed window is the next record. -/
theorem read
    (aligned : Aligned emissions state written)
    {count : Nat}
    (stepped : state.step? (.read count) = some next) :
    Aligned emissions next written := by
  obtain ⟨got, reading, positive, available, fits, rfl⟩ :=
    State.step?_read stepped
  have nonempty : state.pipe ≠ [] := by
    intro empty
    rw [empty, List.length_nil] at available
    omega
  have notEnded := aligned.results_of_pipe nonempty
  have windowStream :
      state.returned.flatMap PgEvent.encode ++
          (got ++ state.pipe.take count) ++ state.pipe.drop count =
        (written.map Prod.snd).flatMap PgEvent.encode := by
    rw [← aligned.stream, reading, Option.getD_some,
      List.append_assoc, List.append_assoc, List.append_assoc,
      List.take_append_drop]
  by_cases short :
      (got ++ state.pipe.take count).length < pgEventSize
  · rw [pgRunPollIteration_short short]
    exact {
      fdOpen := aligned.fdOpen
      stream := windowStream
      readingShort := by
        intro other found
        simp only [State.settle, Option.some.injEq] at found
        exact found ▸ short
      accepted := aligned.accepted
      threads := aligned.threads
      closed := aligned.closed
      results :=
        ⟨0, notEnded.trans (List.append_nil _).symm, by omega⟩
    }
  · -- The window is complete, so alignment makes it one record.
    have windowWide :
        (got ++ state.pipe.take count).length = pgEventSize := by
      rw [List.length_append, List.length_take_of_le available] at short ⊢
      omega
    obtain ⟨event, rest, shape, image, later⟩ :=
      Bytes.next_of_stream_eq PgEvent.length_encode
        PgEvent.encode_injective (by decide) windowWide windowStream
    have header : headerAccepted event = true := by
      have member : event ∈ written.map Prod.snd := by
        rw [shape]
        exact List.mem_append_right _ List.mem_cons_self
      obtain ⟨entry, entryMember, rfl⟩ := List.mem_map.mp member
      exact aligned.accepted entry entryMember
    rw [pgRunPollIteration_record image.symm header]
    exact {
      fdOpen := aligned.fdOpen
      stream := by
        rw [returned_settle_event, shape]
        simp only [List.flatMap_append, List.flatMap_cons,
          List.flatMap_nil, List.append_nil, later, State.settle,
          Option.getD_none, List.append_assoc]
        rfl
      readingShort := by
        intro other found
        simp [State.settle] at found
      accepted := aligned.accepted
      threads := aligned.threads
      closed := aligned.closed
      results := by
        refine ⟨0, ?_, by omega⟩
        rw [returned_settle_event, List.map_append,
          List.replicate_zero, List.append_nil]
        exact congrArg (· ++ [PollResult.event event]) notEnded
    }

/-- Starting to poll keeps the alignment. -/
theorem poll
    (aligned : Aligned emissions state written)
    (stepped : state.step? .poll = some next) :
    Aligned emissions next written := by
  obtain ⟨reading, rfl⟩ := State.step?_poll stepped
  exact {
    fdOpen := aligned.fdOpen
    stream := by
      simpa [reading, State.returned] using aligned.stream
    readingShort := by
      intro got found
      rw [← Option.some.inj found]
      decide
    accepted := aligned.accepted
    threads := aligned.threads
    closed := aligned.closed
    results := by
      obtain ⟨eofs, results, ended⟩ := aligned.results
      refine ⟨eofs, results, fun positive => ?_⟩
      exact ⟨(ended positive).1, (ended positive).2.1, rfl⟩
  }

/-- Closing the write ends keeps the alignment. -/
theorem closeWriters
    (aligned : Aligned emissions state written)
    (stepped : state.step? .closeWriters = some next) :
    Aligned emissions next written := by
  obtain ⟨finished, wasOpen, rfl⟩ := State.step?_closeWriters stepped
  exact {
    fdOpen := aligned.fdOpen
    stream := aligned.stream
    readingShort := aligned.readingShort
    accepted := aligned.accepted
    threads := aligned.threads
    closed := fun _ => finished
    results := by
      obtain ⟨eofs, results, ended⟩ := aligned.results
      refine ⟨eofs, results, fun positive => ?_⟩
      exact ⟨rfl, (ended positive).2⟩
  }

/-- An empty pipe leaves no incomplete record behind. -/
theorem reading_of_drained
    (aligned : Aligned emissions state written)
    (drained : state.pipe = [])
    {got : List UInt8}
    (reading : state.reading = some got) :
    got = [] := by
  have lengths := congrArg List.length aligned.stream
  have short := aligned.readingShort got reading
  rw [drained, reading, Option.getD_some, List.append_nil,
    List.length_append,
    Bytes.length_flatMap PgEvent.length_encode,
    Bytes.length_flatMap PgEvent.length_encode] at lengths
  simp only [pgEventSize] at lengths short
  exact List.length_eq_zero_iff.mp (by omega)

/-- End of file is reported as such, never as a torn record. -/
theorem readEof
    (aligned : Aligned emissions state written)
    (stepped : state.step? .readEof = some next) :
    next.atEof ∧ Aligned emissions next written := by
  obtain ⟨got, reading, drained, closed, rfl⟩ :=
    State.step?_readEof stepped
  have empty := aligned.reading_of_drained drained reading
  subst empty
  have ended : pgRunPollIteration [] .eof = .returned .eof := rfl
  rw [ended]
  refine ⟨List.mem_append_right _ (List.mem_singleton_self _), {
    fdOpen := aligned.fdOpen
    stream := ?_
    readingShort := ?_
    accepted := aligned.accepted
    threads := aligned.threads
    closed := aligned.closed
    results := ?_
  }⟩
  · rw [returned_settle_eof, ← aligned.stream, reading]
    rfl
  · intro other found
    simp [State.settle] at found
  · obtain ⟨eofs, results, _⟩ := aligned.results
    refine ⟨eofs + 1, ?_, fun _ => ⟨closed, drained, rfl⟩⟩
    rw [returned_settle_eof, List.replicate_succ',
      ← List.append_assoc]
    exact congrArg (· ++ [PollResult.eof]) results

/-- Every step keeps the alignment, with at most one more record written. -/
theorem step
    (aligned : Aligned emissions state written)
    {label : Label n}
    (stepped : state.step? label = some next) :
    ∃ later, Aligned emissions next (written ++ later) := by
  cases label with
  | emit index nowNs =>
      exact ⟨[], by simpa using aligned.emit stepped⟩
  | write index =>
      obtain ⟨copy, alignedNext⟩ := aligned.write stepped
      exact ⟨[(index, copy)], alignedNext⟩
  | writeInterrupted index =>
      rw [State.step?_writeInterrupted stepped]
      exact ⟨[], by simpa using aligned⟩
  | closeWriters =>
      exact ⟨[], by simpa using aligned.closeWriters stepped⟩
  | poll =>
      exact ⟨[], by simpa using aligned.poll stepped⟩
  | read count =>
      exact ⟨[], by simpa using aligned.read stepped⟩
  | readInterrupted =>
      rw [State.step?_readInterrupted stepped]
      exact ⟨[], by simpa using aligned⟩
  | readEof =>
      exact ⟨[], by simpa using (aligned.readEof stepped).2⟩

/-- Some alignment survives every step. -/
theorem exists_step
    {label : Label n}
    (aligned : ∃ records, Aligned emissions state records)
    (stepped : state.step? label = some next) :
    ∃ records, Aligned emissions next records := by
  obtain ⟨records, holds⟩ := aligned
  obtain ⟨later, holdsNext⟩ := holds.step stepped
  exact ⟨records ++ later, holdsNext⟩

/-- Every run keeps the alignment. -/
theorem run
    (aligned : Aligned emissions state written)
    {labels : List (Label n)}
    (ran : state.run? labels = some next) :
    ∃ records, Aligned emissions next records :=
  Transition.run?_invariant exists_step ran ⟨written, aligned⟩

end Aligned

section Progress

variable {n : Nat}

/--
What a thread can still contribute: four steps for each byte it has to write,
one to start each record and one to write it.
-/
def Thread.work (thread : Thread) : Nat :=
  (4 * pgEventSize + 2) * thread.pending.length +
    match thread.writing with
    | none => 0
    | some remaining => 4 * remaining.length + 1

/-- A bound on the productive steps before end of file is reported. -/
def State.work (state : State n) : Nat :=
  (∑ index, (state.threads index).work) +
    4 * state.pipe.length +
    state.writersOpen.toNat + state.reading.isNone.toNat

/-- Replacing a thread and the pipe replaces what they contribute. -/
theorem work_setThread
    (state : State n)
    (index : Fin n)
    (thread : Thread)
    (pipe : List UInt8) :
    State.work { state.setThread index thread with pipe := pipe } +
        (state.threads index).work + 4 * state.pipe.length =
      state.work + thread.work + 4 * pipe.length := by
  have replaced :=
    Parties.sum_update state.threads index thread Thread.work
  simp only [State.work, State.setThread]
  omega

/-- An event taken up leaves less to do. -/
theorem Aligned.work_emit
    {emissions : Fin n → List PgEvent}
    {state next : State n}
    {written : List (Fin n × PgEvent)}
    (aligned : Aligned emissions state written)
    {index : Fin n}
    {nowNs : UInt64}
    (stepped : state.step? (.emit index nowNs) = some next) :
    next.work < state.work := by
  obtain ⟨event, rest, writing, pending, rfl⟩ :=
    State.step?_emit stepped
  rw [pgEmit_open aligned.fdOpen]
  have before : (state.threads index).work =
      1026 * (rest.length + 1) := by
    simp [Thread.work, writing, pending, pgEventSize]
  have after :
      ({ state.threads index with pending := rest }.adopt
        (.writing (pgEmitCopy state.ctx
          (state.threads index).gThreadTag nowNs
            event).encode)).work =
        1026 * rest.length + 1025 := by
    simp [Thread.work, Thread.adopt, PgEvent.length_encode,
      pgEventSize]
  have moved := work_setThread state index
    ({ state.threads index with pending := rest }.adopt
      (.writing (pgEmitCopy state.ctx
        (state.threads index).gThreadTag nowNs event).encode))
    state.pipe
  rw [before, after] at moved
  have unchanged :
      State.work
          { state.setThread index
              ({ state.threads index with pending := rest }.adopt
                (.writing (pgEmitCopy state.ctx
                  (state.threads index).gThreadTag nowNs
                    event).encode)) with
            pipe := state.pipe } < state.work := by
    omega
  exact unchanged

/-- A record written leaves less to do. -/
theorem work_write
    {state next : State n}
    {index : Fin n}
    (stepped : state.step? (.write index) = some next) :
    next.work < state.work := by
  obtain ⟨remaining, writing, rfl⟩ := State.step?_write stepped
  have before : (state.threads index).work =
      1026 * (state.threads index).pending.length +
        (4 * remaining.length + 1) := by
    simp [Thread.work, writing, pgEventSize]
  have after :
      Thread.work { state.threads index with writing := none } =
        1026 * (state.threads index).pending.length := by
    simp [Thread.work, pgEventSize]
  have moved := work_setThread state index
    { state.threads index with writing := none }
    (state.pipe ++ remaining)
  rw [before, after, List.length_append] at moved
  omega

/-- Bytes read leave less to do. -/
theorem work_read
    {state next : State n}
    {count : Nat}
    (stepped : state.step? (.read count) = some next) :
    next.work < state.work := by
  obtain ⟨got, reading, positive, available, _, rfl⟩ :=
    State.step?_read stepped
  have rest : (state.pipe.drop count).length + count =
      state.pipe.length := by
    rw [List.length_drop]
    omega
  cases pgRunPollIteration got (.bytes (state.pipe.take count)) with
  | reading got' =>
      simp only [State.settle, State.work, reading,
        Option.isNone_some, Bool.toNat_false]
      omega
  | returned result =>
      simp only [State.settle, State.work, reading,
        Option.isNone_some, Option.isNone_none,
        Bool.toNat_false, Bool.toNat_true]
      omega

/-- A productive step reports end of file or leaves less to do. -/
theorem Aligned.lowered
    {emissions : Fin n → List PgEvent}
    {state next : State n}
    {written : List (Fin n × PgEvent)}
    (aligned : Aligned emissions state written)
    {label : Label n}
    (stepped : state.step? label = some next)
    (productive : label.productive = true) :
    next.atEof ∨ next.work < state.work := by
  cases label with
  | emit index nowNs =>
      exact Or.inr (aligned.work_emit stepped)
  | write index =>
      exact Or.inr (work_write stepped)
  | writeInterrupted index =>
      exact absurd productive Bool.false_ne_true
  | closeWriters =>
      right
      obtain ⟨_, wasOpen, rfl⟩ := State.step?_closeWriters stepped
      simp [State.work, wasOpen]
  | poll =>
      right
      obtain ⟨reading, rfl⟩ := State.step?_poll stepped
      simp [State.work, reading]
  | read count =>
      exact Or.inr (work_read stepped)
  | readInterrupted =>
      exact absurd productive Bool.false_ne_true
  | readEof =>
      exact Or.inl (aligned.readEof stepped).1

/-- Interrupted calls leave everything as it was. -/
theorem work_of_interrupted
    {state next : State n}
    {label : Label n}
    (stepped : state.step? label = some next)
    (interrupted : label.productive = false) :
    next.work ≤ state.work := by
  cases label with
  | writeInterrupted index =>
      rw [State.step?_writeInterrupted stepped]
  | readInterrupted =>
      rw [State.step?_readInterrupted stepped]
  | emit | write | closeWriters | poll | read | readEof =>
      exact absurd interrupted.symm Bool.false_ne_true

/-- Results are only ever added. -/
theorem atEof_step
    {state next : State n}
    {label : Label n}
    (ended : state.atEof)
    (stepped : state.step? label = some next) :
    next.atEof := by
  have settled (poll : PollState) (from_ : State n)
      (same : from_.results = state.results) :
      (from_.settle poll).atEof := by
    cases poll with
    | reading got =>
        exact (congrArg (PollResult.eof ∈ ·) same).mpr ended
    | returned result =>
        exact List.mem_append_left _
          ((congrArg (PollResult.eof ∈ ·) same).mpr ended)
  cases label with
  | emit index nowNs =>
      obtain ⟨_, _, _, _, rfl⟩ := State.step?_emit stepped
      exact ended
  | write index =>
      obtain ⟨_, _, rfl⟩ := State.step?_write stepped
      exact ended
  | writeInterrupted index =>
      exact State.step?_writeInterrupted stepped ▸ ended
  | closeWriters =>
      obtain ⟨_, _, rfl⟩ := State.step?_closeWriters stepped
      exact ended
  | poll =>
      obtain ⟨_, rfl⟩ := State.step?_poll stepped
      exact ended
  | read count =>
      obtain ⟨_, _, _, _, _, rfl⟩ := State.step?_read stepped
      exact settled _ _ rfl
  | readInterrupted =>
      exact State.step?_readInterrupted stepped ▸ ended
  | readEof =>
      obtain ⟨_, _, _, _, rfl⟩ := State.step?_readEof stepped
      exact settled _ _ rfl

/-- Whatever has happened, some party can take a productive step. -/
theorem Aligned.enabled
    {emissions : Fin n → List PgEvent}
    {state : State n}
    {written : List (Fin n × PgEvent)}
    (aligned : Aligned emissions state written) :
    ∃ label, label.productive = true ∧ (state.step? label).isSome := by
  cases reading : state.reading with
  | none =>
      exact ⟨.poll, rfl, by simp [State.step?, reading]⟩
  | some got =>
      have short := aligned.readingShort got reading
      by_cases available : state.pipe = []
      · by_cases finished :
            ∀ index, (state.threads index).finished = true
        · cases writersOpen : state.writersOpen with
          | true =>
              exact ⟨.closeWriters, rfl,
                by simp [State.step?, writersOpen, finished]⟩
          | false =>
              exact ⟨.readEof, rfl,
                by simp [State.step?, reading, available,
                  writersOpen]⟩
        · obtain ⟨index, busy⟩ := not_forall.mp finished
          obtain ⟨originals, _, shape⟩ := aligned.threads index
          cases writing : (state.threads index).writing with
          | some remaining =>
              -- An empty pipe has room for one record.
              simp only [writing] at shape
              obtain ⟨_, copy, _, _, encoded, _⟩ := shape
              have room :
                  state.pipe.length + remaining.length ≤
                    state.capacity := by
                have fits := state.capacityFits
                rw [available, encoded, PgEvent.length_encode]
                simp only [pipeBuf] at fits
                simp only [List.length_nil, pgEventSize]
                omega
              exact ⟨.write index, rfl,
                by simp [State.step?, writing, room]⟩
          | none =>
              cases pending : (state.threads index).pending with
              | nil =>
                  simp [Thread.finished, writing, pending] at busy
              | cons event rest =>
                  exact ⟨.emit index 0, rfl,
                    by simp [State.step?, writing, pending]⟩
      · have one : 1 ≤ state.pipe.length :=
          List.length_pos_iff.mpr available
        exact ⟨.read 1, rfl,
          by simp [State.step?, reading, one, Nat.succ_le_of_lt short]⟩

end Progress

/-- The records up to and including the first `PG_EV_DONE`. -/
def upToDone : List PgEvent → List PgEvent
  | [] =>
      []
  | event :: rest =>
      if event.kind = PgEventKind.done.code then
        [event]
      else
        event :: upToDone rest

/-- Once `PG_EV_DONE` has been read, later records do not matter. -/
theorem upToDone_append
    {read : List PgEvent}
    (done : ∃ event ∈ read, event.kind = PgEventKind.done.code)
    (unread : List PgEvent) :
    upToDone (read ++ unread) = upToDone read := by
  induction read with
  | nil =>
      obtain ⟨_, member, _⟩ := done
      exact absurd member List.not_mem_nil
  | cons event rest inductionHypothesis =>
      simp only [List.cons_append, upToDone]
      split
      · rfl
      · rename_i running
        obtain ⟨last, member, isDone⟩ := done
        rcases List.mem_cons.mp member with rfl | later
        · exact absurd isDone running
        · rw [inductionHypothesis ⟨last, later, isDone⟩]

/-- The headless loop prints the records it is given up to the first DONE. -/
theorem runHeadlessPrinted_records
    (records : List PgEvent)
    (eofs : Nat) :
    runHeadlessPrinted
        (records.map PollResult.event ++
          List.replicate eofs PollResult.eof) =
      upToDone records := by
  induction records with
  | nil =>
      cases eofs with
      | zero =>
          rfl
      | succ eofs =>
          rfl
  | cons event rest inductionHypothesis =>
      simp only [List.map_cons, List.cons_append, runHeadlessPrinted,
        upToDone, inductionHypothesis]

/-- What the parent has received, against the records written to the pipe. -/
structure Delivered
    {n : Nat}
    (emissions : Fin n → List PgEvent)
    (state : State n)
    (written : List (Fin n × PgEvent)) : Prop where
  /-- The records written are those returned and those still under way. -/
  inOrder :
    state.returned.flatMap PgEvent.encode ++
        state.reading.getD [] ++ state.pipe =
      (written.map Prod.snd).flatMap PgEvent.encode
  received :
    state.returned <+: written.map Prod.snd
  perThread :
    ∀ index,
      ∃ sent,
        sent <+: emissions index ∧
          List.Forall₂ Stamped sent (ofOwner index written)
  /-- `pg_run_poll` returned 1 for each record, then 0, and nothing else. -/
  results :
    ∃ eofs,
      state.results =
        state.returned.map PollResult.event ++
          List.replicate eofs PollResult.eof
  complete :
    state.atEof →
      state.returned = written.map Prod.snd ∧
        ∀ index,
          List.Forall₂ Stamped (emissions index) (ofOwner index written)
  headless :
    (state.atEof ∨
        ∃ event ∈ state.returned,
          event.kind = PgEventKind.done.code) →
      runHeadlessPrinted state.results = upToDone (written.map Prod.snd)

namespace Aligned

variable
  {n : Nat}
  {emissions : Fin n → List PgEvent}
  {state : State n}
  {written : List (Fin n × PgEvent)}

/-- The records returned are the first ones written. -/
theorem received
    (aligned : Aligned emissions state written) :
    state.returned <+: written.map Prod.snd :=
  Bytes.prefix_of_stream_eq PgEvent.length_encode
    PgEvent.encode_injective (by decide)
    ((List.append_assoc _ _ _).symm.trans aligned.stream)

/-- After end of file nothing is under way. -/
theorem drained_of_atEof
    (aligned : Aligned emissions state written)
    (ended : state.atEof) :
    state.writersOpen = false ∧ state.pipe = [] ∧
      state.reading.getD [] = [] := by
  obtain ⟨eofs, results, closed⟩ := aligned.results
  cases eofs with
  | zero =>
      simp only [State.atEof, results, List.replicate_zero,
        List.append_nil, List.mem_map, reduceCtorEq, and_false,
        exists_false] at ended
  | succ eofs =>
      exact closed (Nat.succ_pos eofs)

/-- After end of file every record written has been returned. -/
theorem returned_of_atEof
    (aligned : Aligned emissions state written)
    (ended : state.atEof) :
    state.returned = written.map Prod.snd := by
  obtain ⟨_, emptyPipe, emptyWindow⟩ := aligned.drained_of_atEof ended
  have stream := aligned.stream
  rw [emptyPipe, emptyWindow, List.append_nil, List.append_nil]
    at stream
  exact Bytes.flatMap_injective PgEvent.length_encode
    PgEvent.encode_injective (by decide) stream

/-- A thread that has finished has written its whole sequence. -/
theorem perThread_of_finished
    (aligned : Aligned emissions state written)
    {index : Fin n}
    (finished : (state.threads index).finished = true) :
    List.Forall₂ Stamped (emissions index)
      (ofOwner index written) := by
  obtain ⟨originals, sent, shape⟩ := aligned.threads index
  simp only [Thread.finished, Bool.and_eq_true, List.isEmpty_iff,
    Option.isNone_iff_eq_none] at finished
  simp only [finished.2, finished.1, List.append_nil] at shape
  exact shape ▸ sent

/-- What each thread has written comes from a prefix of its sequence. -/
theorem perThread
    (aligned : Aligned emissions state written)
    (index : Fin n) :
    ∃ sent,
      sent <+: emissions index ∧
        List.Forall₂ Stamped sent (ofOwner index written) := by
  obtain ⟨originals, sent, shape⟩ := aligned.threads index
  refine ⟨originals, ?_, sent⟩
  cases writing : (state.threads index).writing with
  | none =>
      simp only [writing] at shape
      exact ⟨_, shape.symm⟩
  | some remaining =>
      simp only [writing] at shape
      obtain ⟨original, copy, _, _, _, emission⟩ := shape
      exact ⟨_, emission.symm⟩

/-- An aligned state has delivered what it should. -/
theorem delivered
    (aligned : Aligned emissions state written) :
    Delivered emissions state written := by
  obtain ⟨eofs, results, _⟩ := aligned.results
  exact {
    inOrder := aligned.stream
    received := aligned.received
    perThread := aligned.perThread
    results := ⟨eofs, results⟩
    complete := fun ended =>
      ⟨aligned.returned_of_atEof ended, fun index =>
        aligned.perThread_of_finished
          (aligned.closed (aligned.drained_of_atEof ended).1 index)⟩
    headless := by
      intro left
      rw [results, runHeadlessPrinted_records]
      rcases left with ended | done
      · rw [aligned.returned_of_atEof ended]
      · obtain ⟨unread, shape⟩ := aligned.received
        rw [← shape, upToDone_append done]
  }

end Aligned

/--
The records for which `pg_run_poll` returns 1 are an interleaving of what the
threads emitted, it returns 0 after the last of them and never fails, and the
headless loop prints them up to the first `PG_EV_DONE`.  End of file is
reached in every long enough run: some productive step is always enabled, and
there are only finitely many before it.
-/
theorem eventDelivery
    {n : Nat}
    (fd capacity : Nat)
    (capacityFits : pipeBuf ≤ capacity)
    (startNs : UInt64)
    (gThreadTags : Fin n → UInt32)
    (emissions : Fin n → List PgEvent)
    (labels : List (Label n))
    (state : State n)
    (ran :
      (State.start fd capacity capacityFits startNs gThreadTags
        emissions).run? labels = some state) :
    (∃ written, Delivered emissions state written) ∧
      (∃ label,
        label.productive = true ∧ (state.step? label).isSome) ∧
      ∀ later final,
        state.run? later = some final →
        state.work < later.countP Label.productive →
        final.atEof := by
  have started := aligned_start fd capacity capacityFits startNs
    gThreadTags emissions
  obtain ⟨written, aligned⟩ := started.run ran
  refine ⟨⟨written, aligned.delivered⟩, aligned.enabled, ?_⟩
  intro later final ranLater many
  exact Transition.goal_of_productive_steps Label.productive State.work
    (fun holds (_ : True) stepped =>
      Aligned.exists_step holds stepped)
    atEof_step
    (fun ⟨_, holds⟩ _ stepped productive =>
      holds.lowered stepped productive)
    (fun _ _ stepped interrupted =>
      work_of_interrupted stepped interrupted)
    ranLater
    (Transition.eachStep_of_forall (fun _ _ => trivial) state)
    ⟨written, aligned⟩ many

/-- The first of two threads. -/
def firstThread : Fin 2 :=
  ⟨0, Nat.zero_lt_two⟩

/-- The second of two threads. -/
def secondThread : Fin 2 :=
  ⟨1, Nat.one_lt_two⟩

/-- Two threads with one record each, and no reader yet. -/
def twoThreads : State 2 :=
  State.start 3 pipeBuf (Nat.le_refl pipeBuf) 0
    (fun index => UInt32.ofNat index.val)
    (fun index =>
      if index = firstThread then [PgEvent.ofKind .done]
      else [PgEvent.ofKind .log])

/-- The second thread writes first, and the reads cut its record in two. -/
def twoThreadsRun : List (Label 2) :=
  [.emit firstThread 7, .emit secondThread 9,
    .writeInterrupted firstThread, .write secondThread, .poll,
    .read 100, .write firstThread, .readInterrupted, .read 156, .poll,
    .read 256, .closeWriters, .poll, .readEof]

theorem eventDelivery_twoThreads :
    ∃ state,
      twoThreads.run? twoThreadsRun = some state ∧
        state.atEof ∧
        (∃ written,
          Delivered
            (fun index =>
              if index = firstThread then [PgEvent.ofKind .done]
              else [PgEvent.ofKind .log])
            state written) := by
  have ends :
      (twoThreads.run? twoThreadsRun).any (fun state => state.atEof) =
        true := by
    decide +kernel
  obtain ⟨state, ran, atEof⟩ := (Option.any_eq_true _ _).mp ends
  exact ⟨state, ran, of_decide_eq_true atEof,
    (eventDelivery 3 pipeBuf (Nat.le_refl pipeBuf) 0 _ _
      twoThreadsRun state ran).1⟩

end FailurePlayground.EventPipe
