import FailurePlayground.Event

namespace FailurePlayground

/-!
# The runner's two ends of the event pipe

`pgEmit` is the child's side and `pgRunPoll` the parent's.  Both loop around
one system call, so each is given as the state of its loop and one iteration
that consumes the result of that call.
-/

/-- What the emit helpers read of `pg_runctx`. -/
structure PgRunctx where
  eventFdW : Int
  threadTag : UInt32
  startNs : UInt64
  deriving DecidableEq

section Emit

/-- The result of one `write`. -/
inductive WriteResult where
  | wrote (count : Nat)
  | interrupted
  | failed
  deriving Repr, DecidableEq

/-- Where the write loop of `pg_emit` stands: the bytes still to write. -/
inductive EmitState where
  | writing (remaining : List UInt8)
  | returned
  deriving Repr, DecidableEq

/--
The copy `pg_emit` sends: header filled in, timestamp and thread tag supplied
where the caller left them zero.
-/
def pgEmitCopy
    (ctx : PgRunctx)
    (gThreadTag : UInt32)
    (nowNs : UInt64)
    (event : PgEvent) : PgEvent :=
  { event with
    magic := pgEventMagic
    version := pgEventVersion
    tsNs := if event.tsNs = 0 then nowNs - ctx.startNs else event.tsNs
    threadTag :=
      if event.threadTag = 0 then
        if gThreadTag ≠ 0 then gThreadTag else ctx.threadTag
      else
        event.threadTag }

/--
Entry of `pg_emit`.  A missing context falls back to the process-global one;
without a usable descriptor or an event nothing is written.
-/
def pgEmit
    (ctx gRunctx : Option PgRunctx)
    (gThreadTag : UInt32)
    (nowNs : UInt64)
    (event : Option PgEvent) : EmitState :=
  match ctx.or gRunctx, event with
  | some ctx, some event =>
      if ctx.eventFdW < 0 then
        .returned
      else
        .writing (pgEmitCopy ctx gThreadTag nowNs event).encode
  | _, _ =>
      .returned

/-- One iteration of the write loop of `pg_emit`. -/
def pgEmitIteration
    (remaining : List UInt8) :
    WriteResult → EmitState
  | .wrote count =>
      if (remaining.drop count).isEmpty then
        .returned
      else
        .writing (remaining.drop count)
  | .interrupted =>
      .writing remaining
  | .failed =>
      .returned

end Emit

section Poll

/-- The result of one `read`. -/
inductive ReadResult where
  | bytes (chunk : List UInt8)
  | eof
  | interrupted
  | failed
  deriving Repr, DecidableEq

/-- The result of the `poll` that guards a bounded wait. -/
inductive ReadyResult where
  | ready
  | timedOut
  | failed
  deriving Repr, DecidableEq

/-- What `pg_run_poll` returns: 1 with a record, 0, -1 or -2. -/
inductive PollResult where
  | event (event : PgEvent)
  | eof
  | error
  | timeout
  deriving DecidableEq

/-- The record handed over, when the result is 1. -/
def PollResult.event? : PollResult → Option PgEvent
  | .event record => some record
  | _ => none

/-- Where `pg_run_poll` stands: the bytes read so far, or its result. -/
inductive PollState where
  | reading (got : List UInt8)
  | returned (result : PollResult)
  deriving DecidableEq

/-- The header check of `pg_run_poll`. -/
def headerAccepted (event : PgEvent) : Bool :=
  event.magic == pgEventMagic && event.version == pgEventVersion

/-- Entry of `pg_run_poll`; a negative timeout skips the `poll` call. -/
def pgRunPoll
    (eventFd timeoutMs : Int)
    (readiness : ReadyResult) : PollState :=
  if eventFd < 0 then
    .returned .error
  else if timeoutMs < 0 then
    .reading []
  else
    match readiness with
    | .ready => .reading []
    | .timedOut => .returned .timeout
    | .failed => .returned .error

/-- One iteration of the read loop of `pg_run_poll`. -/
def pgRunPollIteration
    (got : List UInt8) :
    ReadResult → PollState
  | .eof =>
      if got.isEmpty then .returned .eof else .returned .error
  | .interrupted =>
      .reading got
  | .failed =>
      .returned .error
  | .bytes chunk =>
      if (got ++ chunk).length < pgEventSize then
        .reading (got ++ chunk)
      else
        let event := PgEvent.decode (got ++ chunk)
        if headerAccepted event then
          .returned (.event event)
        else
          .returned .error

end Poll

/--
The events `run_headless` prints for the successive results of `pg_run_poll`:
it stops after the first `PG_EV_DONE` and at the first result that is not 1.
-/
def runHeadlessPrinted : List PollResult → List PgEvent
  | .event event :: rest =>
      if event.kind = PgEventKind.done.code then
        [event]
      else
        event :: runHeadlessPrinted rest
  | _ =>
      []

/-- The copy `pg_emit` sends always passes the header check. -/
theorem headerAccepted_pgEmitCopy
    (ctx : PgRunctx)
    (gThreadTag : UInt32)
    (nowNs : UInt64)
    (event : PgEvent) :
    headerAccepted (pgEmitCopy ctx gThreadTag nowNs event) = true := by
  simp [headerAccepted, pgEmitCopy]

/-- With a usable descriptor `pg_emit` starts writing its copy. -/
theorem pgEmit_open
    {ctx : PgRunctx}
    (fdOpen : ¬ ctx.eventFdW < 0)
    (gRunctx : Option PgRunctx)
    (gThreadTag : UInt32)
    (nowNs : UInt64)
    (event : PgEvent) :
    pgEmit (some ctx) gRunctx gThreadTag nowNs (some event) =
      .writing (pgEmitCopy ctx gThreadTag nowNs event).encode := by
  simp [pgEmit, fdOpen]

/-- A write that takes every remaining byte ends `pg_emit`. -/
theorem pgEmitIteration_all (remaining : List UInt8) :
    pgEmitIteration remaining (.wrote remaining.length) = .returned := by
  simp [pgEmitIteration]

/-- A read that leaves the record incomplete goes on reading. -/
theorem pgRunPollIteration_short
    {got chunk : List UInt8}
    (short : (got ++ chunk).length < pgEventSize) :
    pgRunPollIteration got (.bytes chunk) = .reading (got ++ chunk) := by
  simp only [pgRunPollIteration, short, ↓reduceIte]

/-- A read that completes an accepted record returns it. -/
theorem pgRunPollIteration_record
    {got chunk : List UInt8}
    {event : PgEvent}
    (image : got ++ chunk = event.encode)
    (header : headerAccepted event = true) :
    pgRunPollIteration got (.bytes chunk) = .returned (.event event) := by
  have full : ¬ event.encode.length < pgEventSize := by
    rw [PgEvent.length_encode]
    exact Nat.lt_irrefl pgEventSize
  simp only [pgRunPollIteration, image, full, ↓reduceIte,
    PgEvent.decode_encode, header]

end FailurePlayground
