import FailurePlayground.EmitHelpers
import FailurePlayground.IoPrepared
import FailurePlayground.NetLoss
import FailurePlayground.Lib.Numeral

namespace FailurePlayground.CascadingFailure

/-!
# The cascading failure

A sender writes chunks into a lossy pair while a receiver persists what comes
out, with a slow sync after every read.  A step is one call of either thread,
one step of a forwarder, or time that passes.  The kernel chooses what every
call answers.  A signal that has a handler goes to the main thread, so the
receiver sleeps in full.  The sockets have room for all that is sent.

A run goes up to its report, or to the call that fails; what closes the pair
then is another run, of `chaos_net_close` and the forwarders alone.  No receiver
may come to be, since `pthread_create` is not checked; the join is then one of
an unset `rt`, and the main thread has no step from there.
-/

open ChaosNet

/-- The constants of `run`. -/
structure Setup where
  knobs : Knobs
  chunks : Nat
  chunkBytes : Nat
  fsyncDelay : UInt64

/-- `net_k`, `CHUNKS`, `CHUNK_BYTES` and `FSYNC_DELAY`; 0.20 is a double. -/
def cascade : Setup where
  knobs := {
    lossProb := .finite (3602879701896397 / 2 ^ 54)
    delayMinNs := 0
    delayMaxNs := 0
    maxChunkBytes := 64
  }
  chunks := 50
  chunkBytes := 256
  fsyncDelay := 50 * 1000000

/-- The bytes that `run` sends: `memset(chunk, 'C', ...)`. -/
def chunk (count : Nat) : List UInt8 :=
  List.replicate count 67

/-- The size of the buffer of `receiver_fn`. -/
def recvBufSize : Nat := 4096

/-- Where the receiver stands in `receiver_fn`. -/
inductive ReceiverStage where
  | absent
  | reading
  | writing (buf : List UInt8)
  | syncing
  | sleeping (wakeAt : Nat)
  | counting
  | returned
  deriving Repr, DecidableEq

/-- Where the main thread stands in `run`. -/
inductive MainStage where
  | pairing
  | opening
  | settingDelay
  | announcing
  | creating
  | readingT0
  | sending (i : Nat)
  | closing
  | joining
  | timing
  | reporting (dt : Nat)
  | ending (rc : Int)
  deriving Repr, DecidableEq

/-- The loop of `run` before iteration `i`. -/
def MainStage.sendHead (chunks i : Nat) : MainStage :=
  if i < chunks then .sending i else .closing

/-- `chaos_net_pair` has succeeded. -/
def MainStage.paired : MainStage → Bool
  | .pairing => false
  | _ => true

/--
The clock, the pair, the chaos file, `receiver_state_t` with the receiver's
progress, the variables of `run`, and what was reported.
-/
structure State where
  now : Nat
  pair : Pair
  client : ChaosIo.Client
  receiver : ReceiverStage
  bytesReceived : Nat
  bytesPersisted : Nat
  fsyncCount : Nat
  main : MainStage
  t0 : Nat
  bytesSent : Nat
  reports : List Emit

/--
A thread takes its next step and its call, if any, answers a number or fails;
no receiver is created; a forwarder takes a step; time passes.
-/
inductive Label where
  | main (answer : Option Nat)
  | createFails
  | receiver (answer : Option Nat)
  | forward (label : ChaosNet.Label)
  | tick (ns : Nat)
  deriving DecidableEq

section Reports

/-- `"bytes_persisted"`. -/
def persistedKey : Option (List UInt8) :=
  some (Bytes.ascii "bytes_persisted")

/-- `(int64_t)CHUNKS * CHUNK_BYTES`. -/
def expectedBytes (setup : Setup) : Nat :=
  setup.chunks * setup.chunkBytes

/-- What `run` reports before it creates its receiver. -/
def cascadePreamble (setup : Setup) : List Emit :=
  [.phase (some (Bytes.ascii "sending through 20% loss " ++
      [0xE2, 0x86, 0x92] ++
      Bytes.ascii " persisting with 50ms fsync")),
    .expect persistedKey (Int64.ofInt (expectedBytes setup))]

/-- `lost_pct`. -/
def lostPct (expected lost : Int) : Int :=
  if expected > 0 then (100 * lost).tdiv expected else 0

/-- `ms`. -/
def elapsedMs (dt : Nat) : Nat :=
  dt / 1000000

/-- The last argument of the last line. -/
def msPerFsync (ms fsyncs : Nat) : Nat :=
  if fsyncs ≠ 0 then ms / fsyncs else 0

/-- What `run` reports after the join. -/
def cascadeReport
    (setup : Setup)
    (sent received persisted fsyncs dt : Nat) : List Emit :=
  let lost : Int := (sent : Int) - received
  let ms := elapsedMs dt
  [.count (some (Bytes.ascii "bytes_sent")) (Int64.ofInt sent),
    .count (some (Bytes.ascii "bytes_received")) (Int64.ofInt received),
    .actual persistedKey (Int64.ofInt persisted),
    .count (some (Bytes.ascii "fsync_count")) (Int64.ofInt fsyncs),
    .gauge (some (Bytes.ascii "elapsed_ms")) (Int64.ofInt ms),
    .logf (Bytes.ascii "sent=" ++ Numeral.signed sent ++
      Bytes.ascii " received=" ++ Numeral.signed received ++
      Bytes.ascii " persisted=" ++ Numeral.signed persisted ++
      Bytes.ascii "  (lost " ++ Numeral.signed lost ++
      Bytes.ascii " B = " ++
      Numeral.signed (lostPct (expectedBytes setup) lost) ++
      Bytes.ascii "%)"),
    .logf (Bytes.ascii "elapsed=" ++ Numeral.signed ms ++
      Bytes.ascii " ms across " ++ Numeral.signed fsyncs ++
      Bytes.ascii " fsyncs (" ++ [0xE2, 0x89, 0x88] ++
      Bytes.ascii " " ++ Numeral.signed (msPerFsync ms fsyncs) ++
      Bytes.ascii " ms/fsync)")]

end Reports

namespace State

/-- The bytes that have arrived at `fd_b`. -/
def inbox (state : State) : List UInt8 :=
  (state.pair.direction .a).arrived

/-- What the kernel takes of the bytes it is asked to write. -/
def kernel (answer : Option Nat) (want : UInt64) : Option UInt64 :=
  answer.map fun room => min want (UInt64.ofNat room)

/-- A failed call ends `run`. -/
def giveUp (state : State) (what : String) : State :=
  { state with
    main := .ending 1
    reports := state.reports ++ [.sutFault (some (Bytes.ascii what))] }

/-- A step of `receiver_fn`. -/
def receiverStep? (state : State) (answer : Option Nat) : Option State :=
  match state.receiver with
  | .absent | .returned =>
      none
  | .reading =>
      match answer with
      | none =>
          some { state with receiver := .returned }
      | some count =>
          if count = 0 then
            if state.inbox = [] ∧ (state.pair.direction .a).ended then
              some { state with receiver := .returned }
            else
              none
          else if count ≤ recvBufSize then
            (state.pair.step? (.receive .b count)).map fun pair =>
              { state with
                pair := pair
                receiver := .writing (state.inbox.take count)
                bytesReceived := state.bytesReceived + count }
          else
            none
  | .writing buf =>
      let written := state.client.write buf (kernel answer)
      some { state with
        client := written.1
        receiver := .syncing
        bytesPersisted :=
          match written.2 with
          | .bytes w => state.bytesPersisted + w.toNat
          | .enospc | .failed => state.bytesPersisted }
  | .syncing =>
      let delay :=
        ChaosIo.chaosIoFsyncDelay state.client.slots state.client.fd
      if delay > 0 then
        some { state with
          receiver := .sleeping (state.now + delay.toNat) }
      else
        some { state with receiver := .counting }
  | .sleeping wakeAt =>
      if wakeAt ≤ state.now then
        some { state with receiver := .counting }
      else
        none
  | .counting =>
      some { state with
        receiver := .reading
        fsyncCount := state.fsyncCount + 1 }

/-- A step of `run`. -/
def mainStep?
    (setup : Setup)
    (state : State)
    (answer : Option Nat) : Option State :=
  match state.main with
  | .pairing =>
      if answer.isSome then
        some { state with main := .opening }
      else
        some (state.giveUp "chaos_net_pair failed")
  | .opening =>
      let fd : Int := answer.elim (-1) Nat.cast
      match ChaosIo.chaosIoOpen state.client.slots fd with
      | (slots, .opened fd) =>
          some { state with
            main := .settingDelay
            client := ChaosIo.Client.start slots fd }
      | (_, .failed) | (_, .emfile) =>
          some (state.giveUp "chaos_io_open failed")
  | .settingDelay =>
      let slots :=
        ChaosIo.chaosIoSetFsyncDelay state.client.slots
          state.client.fd setup.fsyncDelay
      some { state with
        main := .announcing
        client := { state.client with slots := slots } }
  | .announcing =>
      some { state with
        main := .creating
        reports := state.reports ++ cascadePreamble setup }
  | .creating =>
      some { state with
        main := .readingT0
        receiver := .reading }
  | .readingT0 =>
      some { state with
        main := MainStage.sendHead setup.chunks 0
        t0 := state.now }
  | .sending i =>
      match answer with
      | none =>
          some { state with
            main := MainStage.sendHead setup.chunks (i + 1) }
      | some count =>
          if count ≤ setup.chunkBytes then
            (state.pair.step? (.send .a (chunk count))).map fun pair =>
              { state with
                pair := pair
                main := MainStage.sendHead setup.chunks (i + 1)
                bytesSent := state.bytesSent + count }
          else
            none
  | .closing =>
      (state.pair.step? (.closeUser .a)).map fun pair =>
        { state with
          pair := pair
          main := .joining }
  | .joining =>
      if state.receiver = .returned then
        some { state with main := .timing }
      else
        none
  | .timing =>
      some { state with main := .reporting (state.now - state.t0) }
  | .reporting dt =>
      some { state with
        main := .ending 0
        reports :=
          state.reports ++
            cascadeReport setup state.bytesSent state.bytesReceived
              state.bytesPersisted state.fsyncCount dt }
  | .ending _ =>
      none

/-- Execute one enabled label. -/
def step? (setup : Setup) (state : State) : Label → Option State
  | .main answer =>
      state.mainStep? setup answer
  | .createFails =>
      if state.main = .creating then
        some { state with main := .readingT0 }
      else
        none
  | .receiver answer =>
      state.receiverStep? answer
  | .forward label =>
      if state.main.paired ∧
          (label.forwards .a = true ∨ label.forwards .b = true) then
        (state.pair.step? label).map fun pair =>
          { state with pair := pair }
      else
        none
  | .tick ns =>
      some { state with now := state.now + ns }

/-- Execute a finite interleaving. -/
abbrev run? (setup : Setup) : State → List Label → Option State :=
  Transition.run? (step? setup)

/-- `run` before its first step, with the seed of its context. -/
def start (setup : Setup) (seed : UInt64) (now : Nat) : State where
  now := now
  pair := Pair.start setup.knobs seed
  client := ChaosIo.Client.start (fun _ => ChaosIo.zeroSlot) 0
  receiver := .absent
  bytesReceived := 0
  bytesPersisted := 0
  fsyncCount := 0
  main := .pairing
  t0 := 0
  bytesSent := 0
  reports := []

end State

section Moves

variable {setup : Setup} {state next : State} {answer : Option Nat}

/-- The steps of `receiver_fn`. -/
inductive ReceiverMove (state : State) : Option Nat → State → Prop where
  | fails (stage : state.receiver = .reading) :
      ReceiverMove state none { state with receiver := .returned }
  | readsEof
      (stage : state.receiver = .reading)
      (empty : state.inbox = [])
      (ended : (state.pair.direction .a).ended = true) :
      ReceiverMove state (some 0) { state with receiver := .returned }
  | reads
      (count : Nat)
      (pair : Pair)
      (stage : state.receiver = .reading)
      (small : count ≤ recvBufSize)
      (taken : state.pair.step? (.receive .b count) = some pair) :
      ReceiverMove state (some count)
        { state with
          pair := pair
          receiver := .writing (state.inbox.take count)
          bytesReceived := state.bytesReceived + count }
  | writes
      (answer : Option Nat)
      (buf : List UInt8)
      (stage : state.receiver = .writing buf) :
      ReceiverMove state answer
        { state with
          client := (state.client.write buf (State.kernel answer)).1
          receiver := .syncing
          bytesPersisted :=
            match (state.client.write buf (State.kernel answer)).2 with
            | .bytes w => state.bytesPersisted + w.toNat
            | .enospc | .failed => state.bytesPersisted }
  | sleeps
      (answer : Option Nat)
      (stage : state.receiver = .syncing)
      (slow :
        ChaosIo.chaosIoFsyncDelay state.client.slots
          state.client.fd > 0) :
      ReceiverMove state answer
        { state with
          receiver := .sleeping (state.now +
            (ChaosIo.chaosIoFsyncDelay state.client.slots
              state.client.fd).toNat) }
  | goesOn
      (answer : Option Nat)
      (stage : state.receiver = .syncing)
      (fast :
        ¬ ChaosIo.chaosIoFsyncDelay state.client.slots
          state.client.fd > 0) :
      ReceiverMove state answer { state with receiver := .counting }
  | wakes
      (answer : Option Nat)
      (wakeAt : Nat)
      (stage : state.receiver = .sleeping wakeAt)
      (due : wakeAt ≤ state.now) :
      ReceiverMove state answer { state with receiver := .counting }
  | counts
      (answer : Option Nat)
      (stage : state.receiver = .counting) :
      ReceiverMove state answer
        { state with
          receiver := .reading
          fsyncCount := state.fsyncCount + 1 }

/-- Every step of the receiver is one of these. -/
theorem receiverMove_of_receiverStep?
    (taken : state.receiverStep? answer = some next) :
    ReceiverMove state answer next := by
  unfold State.receiverStep? at taken
  cases stage : state.receiver with
  | absent | returned =>
      simp [stage] at taken
  | reading =>
      simp only [stage] at taken
      split at taken
      · simp only [Option.some.injEq] at taken
        exact taken ▸ .fails stage
      · rename_i count
        split at taken
        · rename_i zero
          simp only [Option.ite_none_right_eq_some,
            Option.some.injEq] at taken
          obtain ⟨⟨empty, ended⟩, rfl⟩ := taken
          exact zero ▸ .readsEof stage empty ended
        · simp only [Option.ite_none_right_eq_some,
            Option.map_eq_some_iff] at taken
          obtain ⟨small, pair, received, rfl⟩ := taken
          exact .reads count pair stage small received
  | writing buf =>
      simp only [stage, Option.some.injEq] at taken
      subst taken
      exact .writes answer buf stage
  | syncing =>
      simp only [stage] at taken
      split at taken
      · rename_i slow
        simp only [Option.some.injEq] at taken
        exact taken ▸ .sleeps answer stage slow
      · rename_i fast
        simp only [Option.some.injEq] at taken
        exact taken ▸ .goesOn answer stage fast
  | sleeping wakeAt =>
      simp only [stage, Option.ite_none_right_eq_some,
        Option.some.injEq] at taken
      obtain ⟨due, rfl⟩ := taken
      exact .wakes answer wakeAt stage due
  | counting =>
      simp only [stage, Option.some.injEq] at taken
      exact taken ▸ .counts answer stage

end Moves

end FailurePlayground.CascadingFailure
