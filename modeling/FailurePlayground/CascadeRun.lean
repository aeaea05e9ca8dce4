import FailurePlayground.CascadingFailure

namespace FailurePlayground.CascadingFailure

/-!
# Whole runs of the cascade

Three invariants carry a run: what the bytes have come to, how far the main
thread is, and what the syncs have cost.  A report then accounts for every
byte and for the time of every sync.
-/

open ChaosNet
open ChaosIo (Prepared)

namespace ReceiverStage

/-- The bytes read and not yet written. -/
def inHand : ReceiverStage → List UInt8
  | .writing buf => buf
  | .absent | .reading | .syncing | .sleeping _ | .counting
  | .returned => []

/-- The reads that no sync has been counted for. -/
def uncounted : ReceiverStage → Nat
  | .writing _ | .syncing | .sleeping _ | .counting => 1
  | .absent | .reading | .returned => 0

end ReceiverStage

namespace MainStage

/-- The receiver has been created. -/
def created : MainStage → Bool
  | .pairing | .opening | .settingDelay | .announcing | .creating => false
  | .ending rc => rc == 0
  | .readingT0 | .sending _ | .closing | .joining | .timing
  | .reporting _ => true

/-- `t0` has been read. -/
def timed : MainStage → Bool
  | .pairing | .opening | .settingDelay | .announcing | .creating
  | .readingT0 => false
  | .ending rc => rc == 0
  | .sending _ | .closing | .joining | .timing | .reporting _ => true

/-- The sender has closed its end. -/
def closed : MainStage → Bool
  | .joining | .timing | .reporting _ => true
  | .ending rc => rc == 0
  | .pairing | .opening | .settingDelay | .announcing | .creating
  | .readingT0 | .sending _ | .closing => false

/-- The sync delay of the chaos file, once it is open. -/
def delay (setup : Setup) : MainStage → Option UInt64
  | .pairing | .opening => none
  | .settingDelay => some 0
  | .ending rc => if rc = 0 then some setup.fsyncDelay else none
  | .announcing | .creating | .readingT0 | .sending _ | .closing
  | .joining | .timing | .reporting _ => some setup.fsyncDelay

/-- No chaos file has been opened. -/
def unopened : MainStage → Bool
  | .pairing | .opening => true
  | .settingDelay | .announcing | .creating | .readingT0 | .sending _
  | .closing | .joining | .timing | .reporting _ | .ending _ => false

/-- No more than this has been sent. -/
def sentMost (setup : Setup) : MainStage → Nat
  | .pairing | .opening | .settingDelay | .announcing | .creating
  | .readingT0 => 0
  | .sending i => i * setup.chunkBytes
  | .ending _ | .closing | .joining | .timing | .reporting _ =>
      expectedBytes setup

/-- The receiver has been joined. -/
def joined : MainStage → Bool
  | .timing | .reporting _ => true
  | .ending rc => rc == 0
  | .pairing | .opening | .settingDelay | .announcing | .creating
  | .readingT0 | .sending _ | .closing | .joining => false

/-- The loop counter is in range. -/
def Inside (setup : Setup) : MainStage → Prop
  | .sending i => i < setup.chunks
  | .pairing | .opening | .settingDelay | .announcing | .creating
  | .readingT0 | .ending _ | .closing | .joining | .timing
  | .reporting _ => True

/-- What has been reported while the main thread runs. -/
def reportsThen (setup : Setup) : MainStage → Option (List Emit)
  | .pairing | .opening | .settingDelay | .announcing => some []
  | .creating | .readingT0 | .sending _ | .closing | .joining | .timing
  | .reporting _ => some (cascadePreamble setup)
  | .ending _ => none

end MainStage

/-- What has become of the bytes. -/
structure Streamed (state : State) : Prop where
  alive : state.pair.killed = false
  farOpen : state.pair.closed .b = false
  sound : (state.pair.direction .a).Sound
  /-- What is on its way was sent. -/
  sent : (state.pair.direction .a).inOrder.Sublist (chunk state.bytesSent)
  received :
    (state.pair.direction .a).received.length = state.bytesReceived
  /-- What is persisted was received. -/
  persisted :
    (state.client.file ++ state.receiver.inHand).Sublist
      (state.pair.direction .a).received
  file : state.client.file.length = state.bytesPersisted
  inHand : state.receiver.inHand.length ≤ recvBufSize
  /-- Every read took something, and no more than its buffer. -/
  readsLow :
    state.fsyncCount + state.receiver.uncounted ≤ state.bytesReceived
  readsHigh :
    state.bytesReceived ≤
      recvBufSize * (state.fsyncCount + state.receiver.uncounted)

/-- How far the main thread is. -/
structure Phased (setup : Setup) (state : State) : Prop where
  inside : state.main.Inside setup
  closed : state.pair.closed .a = state.main.closed
  /-- Before the receiver is created nothing is received or persisted. -/
  early : state.main.created = false →
    state.receiver = .absent ∧ state.bytesPersisted = 0
  joined : state.main.joined = true → state.receiver = .returned
  sent : state.bytesSent ≤ state.main.sentMost setup
  untimed : state.main.timed = false → state.bytesSent = 0
  unopened : state.main.unopened = true →
    state.client.slots = fun _ => ChaosIo.zeroSlot
  prepared : ∀ delay, state.main.delay setup = some delay →
    Prepared delay state.client
  announced : ∀ reports, state.main.reportsThen setup = some reports →
    state.reports = reports

/-- What the syncs have cost. -/
structure Timed (setup : Setup) (state : State) : Prop where
  spent : state.main.timed = true →
    state.t0 + state.fsyncCount * setup.fsyncDelay.toNat ≤ state.now
  asleep : ∀ wakeAt, state.receiver = .sleeping wakeAt →
    state.t0 + (state.fsyncCount + 1) * setup.fsyncDelay.toNat ≤ wakeAt
  awake : state.receiver = .counting →
    state.t0 + (state.fsyncCount + 1) * setup.fsyncDelay.toNat ≤ state.now
  measured : ∀ dt, state.main = .reporting dt →
    state.fsyncCount * setup.fsyncDelay.toNat ≤ dt

/-- What a report of `run` accounts for. -/
structure Cascaded
    (setup : Setup)
    (sent received persisted fsyncs dt : Nat) : Prop where
  sentMost : sent ≤ expectedBytes setup
  ofSent : received ≤ sent
  ofReceived : persisted ≤ received
  /-- Every sync follows a read of at least one byte. -/
  syncs : fsyncs ≤ received
  reads : received ≤ recvBufSize * fsyncs
  /-- Every sync is waited for. -/
  waited : fsyncs * setup.fsyncDelay.toNat ≤ dt

/-- The invariants, and the report once `run` has returned. -/
structure Sound (setup : Setup) (state : State) : Prop where
  streamed : Streamed state
  phased : Phased setup state
  timed : Timed setup state
  reported : state.main = .ending 0 →
    ∃ dt,
      state.reports =
          cascadePreamble setup ++
            cascadeReport setup state.bytesSent state.bytesReceived
              state.bytesPersisted state.fsyncCount dt ∧
        state.fsyncCount * setup.fsyncDelay.toNat ≤ dt

section Streams

variable {state next : State}

/-- The variables of `run` say nothing about the bytes received. -/
theorem Streamed.framed
    (streamed : Streamed state)
    (now : Nat)
    (main : MainStage)
    (t0 : Nat)
    (reports : List Emit) :
    Streamed { state with
      now := now, main := main, t0 := t0, reports := reports } where
  alive := streamed.alive
  farOpen := streamed.farOpen
  sound := streamed.sound
  sent := streamed.sent
  received := streamed.received
  persisted := streamed.persisted
  file := streamed.file
  inHand := streamed.inHand
  readsLow := streamed.readsLow
  readsHigh := streamed.readsHigh

/-- The receiver moves on with what it has counted. -/
theorem Streamed.moved
    (streamed : Streamed state)
    {receiver : ReceiverStage}
    {fsyncCount : Nat}
    (inHand : receiver.inHand = [])
    (counted :
      fsyncCount + receiver.uncounted =
        state.fsyncCount + state.receiver.uncounted) :
    Streamed { state with
      receiver := receiver, fsyncCount := fsyncCount } where
  alive := streamed.alive
  farOpen := streamed.farOpen
  sound := streamed.sound
  sent := streamed.sent
  received := streamed.received
  persisted := by
    rw [inHand, List.append_nil]
    exact (List.sublist_append_left _ _).trans streamed.persisted
  file := streamed.file
  inHand := by
    rw [inHand]
    exact Nat.zero_le _
  readsLow := by
    rw [counted]
    exact streamed.readsLow
  readsHigh := by
    rw [counted]
    exact streamed.readsHigh

/-- A read takes bytes that were sent. -/
theorem Streamed.read
    (streamed : Streamed state)
    (reading : state.receiver = .reading)
    {count : Nat}
    (small : count ≤ recvBufSize)
    {pair : Pair}
    (taken : state.pair.step? (.receive .b count) = some pair) :
    Streamed { state with
      pair := pair
      receiver := .writing (state.inbox.take count)
      bytesReceived := state.bytesReceived + count } := by
  have thinned := (thins_step (x := .a) taken).sublist
  rw [sends_of_not_send (by simp), List.append_nil] at thinned
  have sound := sound_step streamed.sound taken
  have alive := Pair.killed_of_not_writeBroken taken (by simp)
  have closed := closed_of_not_closeUser taken (by simp)
  obtain ⟨_, some, available, rfl⟩ := Pair.step?_receive taken
  simp only [End.other] at available
  have received :
      ((state.pair.direction .a).received ++
          (state.pair.direction .a).arrived.take count).length =
        state.bytesReceived + count := by
    rw [List.length_append, List.length_take_of_le available,
      streamed.received]
  have persisted := streamed.persisted
  have low := streamed.readsLow
  have high := streamed.readsHigh
  simp only [reading, ReceiverStage.inHand, ReceiverStage.uncounted,
    List.append_nil, Nat.add_zero] at persisted low high
  exact {
    alive := alive
    farOpen := closed ▸ streamed.farOpen
    sound := sound
    sent := thinned.trans streamed.sent
    received := received
    persisted := persisted.append (List.Sublist.refl _)
    file := streamed.file
    inHand := by
      simp only [ReceiverStage.inHand, State.inbox,
        List.length_take_of_le available]
      exact small
    readsLow := by
      simp only [ReceiverStage.uncounted]
      omega
    readsHigh := by
      simp only [ReceiverStage.uncounted, Nat.mul_add, Nat.mul_one]
      omega
  }

/-- A write persists a part of what was read. -/
theorem Streamed.wrote
    (streamed : Streamed state)
    {buf : List UInt8}
    (writing : state.receiver = .writing buf)
    {w : UInt64}
    (part : w.toNat ≤ buf.length) :
    Streamed { state with
      client := state.client.took buf w
      receiver := .syncing
      bytesPersisted := state.bytesPersisted + w.toNat } := by
  have persisted := streamed.persisted
  have low := streamed.readsLow
  have high := streamed.readsHigh
  simp only [writing, ReceiverStage.inHand,
    ReceiverStage.uncounted] at persisted low high
  exact {
    alive := streamed.alive
    farOpen := streamed.farOpen
    sound := streamed.sound
    sent := streamed.sent
    received := streamed.received
    persisted := by
      simp only [ReceiverStage.inHand, List.append_nil,
        ChaosIo.Client.took]
      exact ((List.take_sublist _ _).append_left _).trans persisted
    file := by
      simp only [ChaosIo.Client.took, List.length_append,
        List.length_take_of_le part, streamed.file]
    inHand := Nat.zero_le _
    readsLow := low
    readsHigh := high
  }

/-- A chunk joins the bytes that were sent. -/
theorem Streamed.sends
    (streamed : Streamed state)
    {count : Nat}
    {pair : Pair}
    (taken : state.pair.step? (.send .a (chunk count)) = some pair)
    (main : MainStage) :
    Streamed { state with
      pair := pair
      main := main
      bytesSent := state.bytesSent + count } := by
  have thinned := (thins_step (x := .a) taken).sublist
  have sound := sound_step streamed.sound taken
  have alive := Pair.killed_of_not_writeBroken taken (by simp)
  have closed := closed_of_not_closeUser taken (by simp)
  have received := received_of_not_receive (x := .a) taken (by simp)
  have sent : Label.sends .a (.send .a (chunk count)) = chunk count := by
    simp [Label.sends, sentFrom]
  rw [sent] at thinned
  exact {
    alive := alive
    farOpen := closed ▸ streamed.farOpen
    sound := sound
    sent := by
      have grown :
          chunk (state.bytesSent + count) =
            chunk state.bytesSent ++ chunk count :=
        List.replicate_add ..
      rw [grown]
      exact thinned.trans (streamed.sent.append_right _)
    received := (congrArg List.length received).trans streamed.received
    persisted := received ▸ streamed.persisted
    file := streamed.file
    inHand := streamed.inHand
    readsLow := streamed.readsLow
    readsHigh := streamed.readsHigh
  }

/-- A close and a forwarder's step leave the received bytes alone. -/
theorem Streamed.forwarded
    (streamed : Streamed state)
    {pair : Pair}
    (alive : pair.killed = false)
    (farOpen : pair.closed .b = false)
    (sound : (pair.direction .a).Sound)
    (received :
      (pair.direction .a).received = (state.pair.direction .a).received)
    (thinned :
      (pair.direction .a).inOrder.Sublist
        (state.pair.direction .a).inOrder)
    (main : MainStage) :
    Streamed { state with pair := pair, main := main } where
  alive := alive
  farOpen := farOpen
  sound := sound
  sent := thinned.trans streamed.sent
  received := (congrArg List.length received).trans streamed.received
  persisted := received ▸ streamed.persisted
  file := streamed.file
  inHand := streamed.inHand
  readsLow := streamed.readsLow
  readsHigh := streamed.readsHigh

/-- Nothing is read before something is sent. -/
theorem Streamed.idle
    (streamed : Streamed state)
    (nothing : state.bytesSent = 0) :
    state.fsyncCount = 0 ∧ state.receiver.uncounted = 0 := by
  have lengths := streamed.sent.length_le
  simp only [nothing, chunk, List.length_replicate, Direction.inOrder,
    Direction.delivered, List.length_append,
    streamed.received] at lengths
  have low := streamed.readsLow
  omega

end Streams

section Steps

variable {setup : Setup} {state next : State}

/-- A prepared file's writes append what the kernel takes. -/
theorem write_of_prepared
    {delay : UInt64}
    {client : ChaosIo.Client}
    (prepared : Prepared delay client)
    {buf : List UInt8}
    (small : buf.length ≤ recvBufSize)
    (answer : Option Nat) :
    ∃ w : UInt64,
      w.toNat ≤ buf.length ∧
        client.write buf (State.kernel answer) =
          match answer with
          | none => (client, .failed)
          | some _ => (client.took buf w, .bytes w) := by
  obtain ⟨index, found, quota, partialMax, _⟩ := prepared
  have room : ¬ (client.slots index).Full := fun full => full.1 quota
  have within : buf.length < ChaosIo.sizeLimit := by
    unfold recvBufSize at small
    unfold ChaosIo.sizeLimit
    omega
  obtain ⟨want, _, asked, wrote⟩ :=
    ChaosIo.Client.write_room found room within (State.kernel answer)
  have bounds := ChaosIo.Client.asked_le (client.slots index) buf.length
  cases answer with
  | none =>
      exact ⟨0, Nat.zero_le _, wrote⟩
  | some room =>
      have least := ChaosIo.Client.min_room_le want (UInt64.ofNat room)
      exact ⟨min want (UInt64.ofNat room), by omega, wrote⟩

/-- While the receiver runs the main thread has created it. -/
theorem Phased.created
    (phased : Phased setup state)
    (present : state.receiver ≠ .absent) :
    state.main.created = true := by
  cases created : state.main.created with
  | true => rfl
  | false => exact absurd (phased.early created).1 present

/-- The main thread's progress does not depend on the receiver's. -/
theorem Phased.receiver
    (phased : Phased setup state)
    (present : state.receiver ≠ .absent)
    (running : state.receiver ≠ .returned)
    (main : next.main = state.main)
    (closed : next.pair.closed = state.pair.closed)
    (bytesSent : next.bytesSent = state.bytesSent)
    (reports : next.reports = state.reports)
    (prepared : ∀ delay,
      Prepared delay state.client → Prepared delay next.client) :
    Phased setup next where
  inside := main ▸ phased.inside
  closed := by
    rw [closed, main]
    exact phased.closed
  early := by
    intro uncreated
    rw [main] at uncreated
    exact absurd (phased.early uncreated).1 present
  joined := by
    intro joined
    rw [main] at joined
    exact absurd (phased.joined joined) running
  sent := by
    rw [bytesSent, main]
    exact phased.sent
  untimed := by
    intro untimed
    rw [main] at untimed
    rw [bytesSent]
    exact phased.untimed untimed
  unopened := by
    intro unopened
    rw [main] at unopened
    have created := phased.created present
    revert unopened created
    cases state.main <;>
      simp [MainStage.unopened, MainStage.created]
  prepared := by
    intro delay stage
    rw [main] at stage
    exact prepared delay (phased.prepared delay stage)
  announced := by
    intro announced stage
    rw [main] at stage
    rw [reports]
    exact phased.announced announced stage

/-- While the receiver runs the file is prepared. -/
theorem Phased.preparedFor
    (phased : Phased setup state)
    (present : state.receiver ≠ .absent) :
    Prepared setup.fsyncDelay state.client := by
  have created := phased.created present
  refine phased.prepared _ ?_
  revert created
  cases state.main with
  | ending rc =>
      intro zero
      simp only [MainStage.created, beq_iff_eq] at zero
      simp only [MainStage.delay, zero, ↓reduceIte]
  | _ =>
      simp [MainStage.created, MainStage.delay]

/-- So its syncs take the delay that `run` has set. -/
theorem Phased.delay
    (phased : Phased setup state)
    (present : state.receiver ≠ .absent) :
    ChaosIo.chaosIoFsyncDelay state.client.slots state.client.fd =
      setup.fsyncDelay :=
  (phased.preparedFor present).fsyncDelay

/-- A read that is not yet counted was timed. -/
theorem Sound.timed_of_uncounted
    (sound : Sound setup state)
    (uncounted : state.receiver.uncounted = 1) :
    state.t0 + state.fsyncCount * setup.fsyncDelay.toNat ≤ state.now := by
  refine sound.timed.spent ?_
  cases timed : state.main.timed with
  | true => rfl
  | false =>
      have idle := sound.streamed.idle (sound.phased.untimed timed)
      omega

/-- The receiver runs only while the main thread has nothing to report. -/
theorem Phased.unreported
    (phased : Phased setup state)
    (running : state.receiver ≠ .returned) :
    (∀ dt, state.main ≠ .reporting dt) ∧ state.main ≠ .ending 0 := by
  constructor
  · intro dt reporting
    exact running (phased.joined (by rw [reporting]; rfl))
  · intro returned
    exact running (phased.joined (by rw [returned]; rfl))

/-- A step of the receiver keeps the invariants it does not touch. -/
theorem Sound.of_receiver
    (sound : Sound setup state)
    (present : state.receiver ≠ .absent)
    (running : state.receiver ≠ .returned)
    (streamed : Streamed next)
    (main : next.main = state.main)
    (closed : next.pair.closed = state.pair.closed)
    (bytesSent : next.bytesSent = state.bytesSent)
    (reports : next.reports = state.reports)
    (prepared : ∀ delay,
      Prepared delay state.client → Prepared delay next.client)
    (spent : next.main.timed = true →
      next.t0 + next.fsyncCount * setup.fsyncDelay.toNat ≤ next.now)
    (asleep : ∀ wakeAt, next.receiver = .sleeping wakeAt →
      next.t0 + (next.fsyncCount + 1) * setup.fsyncDelay.toNat ≤ wakeAt)
    (awake : next.receiver = .counting →
      next.t0 + (next.fsyncCount + 1) * setup.fsyncDelay.toNat ≤
        next.now) :
    Sound setup next := by
  obtain ⟨notReporting, notReturned⟩ := sound.phased.unreported running
  exact {
    streamed := streamed
    phased := sound.phased.receiver present running main closed bytesSent
      reports prepared
    timed := {
      spent := spent
      asleep := asleep
      awake := awake
      measured := fun dt reporting =>
        absurd (main ▸ reporting) (notReporting dt)
    }
    reported := fun returned => absurd (main ▸ returned) notReturned
  }

/-- A receiver that moves is there and has not returned. -/
theorem ReceiverMove.running
    {answer : Option Nat}
    (move : ReceiverMove state answer next) :
    state.receiver ≠ .absent ∧ state.receiver ≠ .returned := by
  cases move with
  | fails stage | readsEof stage | reads _ _ stage | writes _ _ stage
  | sleeps _ stage | goesOn _ stage | wakes _ _ stage
  | counts _ stage =>
      rw [stage]
      simp

/-- Every step of the receiver keeps the invariants. -/
theorem Sound.receiverMove
    {answer : Option Nat}
    (sound : Sound setup state)
    (move : ReceiverMove state answer next) :
    Sound setup next := by
  obtain ⟨present, running⟩ := move.running
  have timedNow := sound.timed_of_uncounted
  have spent := sound.timed.spent
  have streamed := sound.streamed
  cases move with
  | fails stage =>
      exact sound.of_receiver present running
        (streamed.moved rfl (by rw [stage]; rfl)) rfl rfl rfl rfl
        (fun _ prepared => prepared) spent (by simp) (by simp)
  | readsEof stage empty ended =>
      exact sound.of_receiver present running
        (streamed.moved rfl (by rw [stage]; rfl)) rfl rfl rfl rfl
        (fun _ prepared => prepared) spent (by simp) (by simp)
  | reads count pair stage small received =>
      exact sound.of_receiver present running
        (streamed.read stage small received) rfl
        (closed_of_not_closeUser received (by simp)) rfl rfl
        (fun _ prepared => prepared) spent (by simp) (by simp)
  | writes answer buf stage =>
      have small : buf.length ≤ recvBufSize := by
        have inHand := streamed.inHand
        rw [stage] at inHand
        exact inHand
      obtain ⟨w, part, wrote⟩ :=
        write_of_prepared (sound.phased.preparedFor present) small answer
      rw [wrote]
      cases answer with
      | none =>
          exact sound.of_receiver present running
            (streamed.moved rfl (by rw [stage]; rfl)) rfl rfl rfl rfl
            (fun _ prepared => prepared) spent (by simp) (by simp)
      | some room =>
          exact sound.of_receiver present running
            (streamed.wrote stage part) rfl rfl rfl rfl
            (fun _ prepared => prepared.took buf w) spent (by simp)
            (by simp)
  | sleeps answer stage slow =>
      have begun := timedNow (by rw [stage]; rfl)
      rw [sound.phased.delay present]
      refine sound.of_receiver present running
        (streamed.moved rfl (by rw [stage]; rfl)) rfl rfl rfl rfl
        (fun _ prepared => prepared) spent ?_ (by simp)
      intro wakeAt asleep
      obtain rfl := ReceiverStage.sleeping.inj asleep
      simp only [Nat.add_mul, Nat.one_mul]
      omega
  | goesOn answer stage fast =>
      have begun := timedNow (by rw [stage]; rfl)
      rw [sound.phased.delay present] at fast
      have zero : setup.fsyncDelay = 0 :=
        UInt64.le_antisymm (UInt64.not_lt.mp fast) UInt64.zero_le
      refine sound.of_receiver present running
        (streamed.moved rfl (by rw [stage]; rfl)) rfl rfl rfl rfl
        (fun _ prepared => prepared) spent (by simp) ?_
      intro _
      simp only [zero, UInt64.toNat_zero, Nat.mul_zero] at begun ⊢
      exact begun
  | wakes answer wakeAt stage due =>
      have asleep := sound.timed.asleep wakeAt stage
      exact sound.of_receiver present running
        (streamed.moved rfl (by rw [stage]; rfl)) rfl rfl rfl rfl
        (fun _ prepared => prepared) spent (by simp)
        (fun _ => asleep.trans due)
  | counts answer stage =>
      have awake := sound.timed.awake stage
      exact sound.of_receiver present running
        (streamed.moved rfl (by rw [stage]; rfl)) rfl rfl rfl rfl
        (fun _ prepared => prepared) (fun _ => awake) (by simp)
        (by simp)

/-- What the head of the sending loop says, whichever way it goes. -/
structure SendHead (setup : Setup) (i : Nat) (main : MainStage) : Prop where
  inside : main.Inside setup
  closed : main.closed = false
  created : main.created = true
  joined : main.joined = false
  timed : main.timed = true
  unopened : main.unopened = false
  delay : main.delay setup = some setup.fsyncDelay
  sentMost : i * setup.chunkBytes ≤ main.sentMost setup
  announced : main.reportsThen setup = some (cascadePreamble setup)
  unmeasured : ∀ dt, main ≠ .reporting dt
  running : main ≠ .ending 0

/-- It says so within the loop's range. -/
theorem sendHead_facts
    {i : Nat}
    (inRange : i ≤ setup.chunks) :
    SendHead setup i (MainStage.sendHead setup.chunks i) := by
  by_cases more : i < setup.chunks
  · rw [MainStage.sendHead, if_pos more]
    exact ⟨more, rfl, rfl, rfl, rfl, rfl, rfl, Nat.le_refl _, rfl,
      by simp, by simp⟩
  · rw [MainStage.sendHead, if_neg more]
    exact ⟨trivial, rfl, rfl, rfl, rfl, rfl, rfl,
      Nat.mul_le_mul_right _ inRange, rfl, by simp, by simp⟩

/-- The main thread goes on, whatever it does to what it shares. -/
theorem Phased.advance
    (phased : Phased setup state)
    {pair : Pair}
    {client : ChaosIo.Client}
    {main : MainStage}
    {t0 bytesSent : Nat}
    {reports : List Emit}
    (inside : main.Inside setup)
    (closed : pair.closed .a = main.closed)
    (created : main.created = state.main.created)
    (joined : main.joined = true → state.receiver = .returned)
    (sent : bytesSent ≤ main.sentMost setup)
    (untimed : main.timed = false → bytesSent = 0)
    (unopened : main.unopened = true →
      client.slots = fun _ => ChaosIo.zeroSlot)
    (prepared : ∀ delay, main.delay setup = some delay →
      Prepared delay client)
    (announced : ∀ announced,
      main.reportsThen setup = some announced → reports = announced) :
    Phased setup { state with
      pair := pair, client := client, main := main, t0 := t0
      bytesSent := bytesSent, reports := reports } where
  inside := inside
  closed := closed
  early := fun uncreated => phased.early (created ▸ uncreated)
  joined := joined
  sent := sent
  untimed := untimed
  unopened := unopened
  prepared := prepared
  announced := announced

/-- The main thread comes to the head of its loop. -/
theorem Phased.toSendHead
    (phased : Phased setup state)
    {i : Nat}
    (inRange : i ≤ setup.chunks)
    {pair : Pair}
    {t0 bytesSent : Nat}
    (closed : pair.closed .a = false)
    (created : state.main.created = true)
    (sent : bytesSent ≤ i * setup.chunkBytes)
    (delay : state.main.delay setup = some setup.fsyncDelay)
    (announced :
      state.main.reportsThen setup = some (cascadePreamble setup)) :
    Phased setup { state with
      pair := pair
      main := MainStage.sendHead setup.chunks i
      t0 := t0
      bytesSent := bytesSent } := by
  have head := sendHead_facts inRange
  refine phased.advance head.inside (closed.trans head.closed.symm)
    (head.created.trans created.symm) ?_ (sent.trans head.sentMost) ?_ ?_
    ?_ ?_
  · rw [head.joined]
    exact fun joined => absurd joined Bool.false_ne_true
  · rw [head.timed]
    exact fun untimed => absurd untimed.symm Bool.false_ne_true
  · rw [head.unopened]
    exact fun unopened => absurd unopened Bool.false_ne_true
  · rw [head.delay]
    exact fun _ slow => phased.prepared _ (delay.trans slow)
  · rw [head.announced]
    exact fun _ here => phased.announced _ (announced.trans here)

/-- The main thread goes on while nothing is measured. -/
theorem Timed.advance
    (timed : Timed setup state)
    {pair : Pair}
    {client : ChaosIo.Client}
    {main : MainStage}
    {bytesSent : Nat}
    {reports : List Emit}
    (same : main.timed = true → state.main.timed = true)
    (unmeasured : ∀ dt, main ≠ .reporting dt) :
    Timed setup { state with
      pair := pair, client := client, main := main
      bytesSent := bytesSent, reports := reports } where
  spent := fun begun => timed.spent (same begun)
  asleep := timed.asleep
  awake := timed.awake
  measured := fun dt reporting => absurd reporting (unmeasured dt)

/-- A step of the main thread before it reports. -/
theorem Sound.of_main
    (streamed : Streamed next)
    (phased : Phased setup next)
    (timed : Timed setup next)
    (running : next.main ≠ .ending 0) :
    Sound setup next where
  streamed := streamed
  phased := phased
  timed := timed
  reported := fun returned => absurd returned running

/-- The first failing call ends `run`. -/
theorem Sound.giveUp
    (sound : Sound setup state)
    (closed : state.main.closed = false)
    (created : state.main.created = false)
    (untimed : state.main.timed = false)
    (what : String) :
    Sound setup (state.giveUp what) := by
  have nothing := sound.phased.untimed untimed
  refine Sound.of_main
    (sound.streamed.framed state.now (.ending 1) state.t0 _) ?_ ?_
    (by simp [State.giveUp])
  · exact sound.phased.advance trivial (sound.phased.closed.trans closed)
      created.symm (fun joined => absurd joined Bool.false_ne_true)
      (nothing.le.trans (Nat.zero_le _)) (fun _ => nothing)
      (fun fresh => absurd fresh Bool.false_ne_true)
      (fun _ slow => absurd slow (by simp [MainStage.delay]))
      (fun _ stage => absurd stage (by simp [MainStage.reportsThen]))
  · exact sound.timed.advance (fun begun => absurd begun (by decide))
      (by simp)

/-- Every step of the main thread keeps the invariants. -/
theorem Sound.mainStep
    {answer : Option Nat}
    (sound : Sound setup state)
    (taken : state.mainStep? setup answer = some next) :
    Sound setup next := by
  have streamed := sound.streamed
  have phased := sound.phased
  have timed := sound.timed
  unfold State.mainStep? at taken
  cases stage : state.main with
  | pairing =>
      have nothing := phased.untimed (by rw [stage]; rfl)
      simp only [stage] at taken
      split at taken
      · simp only [Option.some.injEq] at taken
        subst taken
        refine Sound.of_main (streamed.framed _ _ _ _) ?_
          (timed.advance (fun begun => absurd begun Bool.false_ne_true)
            (by simp)) (by simp)
        exact phased.advance trivial
          (phased.closed.trans (by rw [stage]; rfl)) (by rw [stage]; rfl)
          (fun joined => absurd joined Bool.false_ne_true)
          nothing.le (fun _ => nothing)
          (fun _ => phased.unopened (by rw [stage]; rfl))
          (fun _ slow => absurd slow (by simp [MainStage.delay]))
          (fun _ early => phased.announced _ (by rw [stage]; exact early))
      · simp only [Option.some.injEq] at taken
        subst taken
        exact sound.giveUp (by rw [stage]; rfl) (by rw [stage]; rfl)
          (by rw [stage]; rfl) _
  | opening =>
      have early := phased.early (by rw [stage]; rfl)
      have nothing := phased.untimed (by rw [stage]; rfl)
      have fresh := phased.unopened (by rw [stage]; rfl)
      simp only [stage] at taken
      split at taken
      · rename_i slots fd opened
        simp only [Option.some.injEq] at taken
        subst taken
        refine Sound.of_main ?_ ?_
          (timed.advance (fun begun => absurd begun Bool.false_ne_true)
            (by simp)) (by simp)
        · exact {
            alive := streamed.alive
            farOpen := streamed.farOpen
            sound := streamed.sound
            sent := streamed.sent
            received := streamed.received
            persisted := by
              simp only [early.1, ReceiverStage.inHand,
                ChaosIo.Client.start, List.append_nil]
              exact List.nil_sublist _
            file := early.2.symm
            inHand := streamed.inHand
            readsLow := streamed.readsLow
            readsHigh := streamed.readsHigh
          }
        · refine phased.advance trivial
            (phased.closed.trans (by rw [stage]; rfl)) (by rw [stage]; rfl)
            (fun joined => absurd joined Bool.false_ne_true)
            nothing.le (fun _ => nothing)
            (fun opened => absurd opened Bool.false_ne_true) ?_
            (fun _ early => phased.announced _ (by rw [stage]; exact early))
          intro delay slow
          obtain rfl := Option.some.inj slow
          exact ChaosIo.prepared_of_opened fresh opened
      all_goals
        simp only [Option.some.injEq] at taken
        subst taken
        exact sound.giveUp (by rw [stage]; rfl) (by rw [stage]; rfl)
          (by rw [stage]; rfl) _
  | settingDelay =>
      have nothing := phased.untimed (by rw [stage]; rfl)
      have prepared := phased.prepared 0 (by rw [stage]; rfl)
      simp only [stage, Option.some.injEq] at taken
      subst taken
      refine Sound.of_main ?_ ?_
        (timed.advance (fun begun => absurd begun Bool.false_ne_true)
          (by simp)) (by simp)
      · exact ⟨streamed.alive, streamed.farOpen, streamed.sound,
          streamed.sent, streamed.received, streamed.persisted,
          streamed.file, streamed.inHand, streamed.readsLow,
          streamed.readsHigh⟩
      · refine phased.advance trivial
          (phased.closed.trans (by rw [stage]; rfl)) (by rw [stage]; rfl)
          (fun joined => absurd joined Bool.false_ne_true)
          nothing.le (fun _ => nothing)
          (fun opened => absurd opened Bool.false_ne_true) ?_
          (fun _ early => phased.announced _ (by rw [stage]; exact early))
        intro delay slow
        obtain rfl := Option.some.inj slow
        exact prepared.setDelay setup.fsyncDelay
  | announcing =>
      have nothing := phased.untimed (by rw [stage]; rfl)
      have silent := phased.announced [] (by rw [stage]; rfl)
      simp only [stage, Option.some.injEq] at taken
      subst taken
      refine Sound.of_main (streamed.framed _ _ _ _) ?_
        (timed.advance (fun begun => absurd begun Bool.false_ne_true)
          (by simp)) (by simp)
      refine phased.advance trivial
        (phased.closed.trans (by rw [stage]; rfl)) (by rw [stage]; rfl)
        (fun joined => absurd joined Bool.false_ne_true)
        nothing.le (fun _ => nothing)
        (fun opened => absurd opened Bool.false_ne_true)
        (fun _ slow => phased.prepared _ (by rw [stage]; exact slow)) ?_
      intro announced here
      rw [silent]
      exact Option.some.inj here
  | creating =>
      have nothing := phased.untimed (by rw [stage]; rfl)
      have early := phased.early (by rw [stage]; rfl)
      simp only [stage, Option.some.injEq] at taken
      subst taken
      have moved : Streamed { state with receiver := .reading } :=
        streamed.moved rfl (by rw [early.1]; rfl)
      refine Sound.of_main (moved.framed _ _ _ _) ?_ ?_ (by simp)
      · exact {
          inside := trivial
          closed := phased.closed.trans (by rw [stage]; rfl)
          early := fun created => absurd created.symm Bool.false_ne_true
          joined := fun joined => absurd joined Bool.false_ne_true
          sent := nothing.le
          untimed := fun _ => nothing
          unopened := fun opened => absurd opened Bool.false_ne_true
          prepared := fun _ slow =>
            phased.prepared _ (by rw [stage]; exact slow)
          announced := fun _ announced =>
            phased.announced _ (by rw [stage]; exact announced)
        }
      · exact {
          spent := fun begun => absurd begun Bool.false_ne_true
          asleep := by simp
          awake := by simp
          measured := by simp
        }
  | readingT0 =>
      have nothing := phased.untimed (by rw [stage]; rfl)
      have head := sendHead_facts (Nat.zero_le setup.chunks)
      obtain ⟨noSync, idle⟩ := streamed.idle nothing
      simp only [stage, Option.some.injEq] at taken
      subst taken
      refine Sound.of_main (streamed.framed _ _ _ _) ?_ ?_ head.running
      · exact phased.toSendHead (Nat.zero_le _)
          (phased.closed.trans (by rw [stage]; rfl)) (by rw [stage]; rfl)
          (nothing.le.trans (Nat.zero_le _)) (by rw [stage]; rfl)
          (by rw [stage]; rfl)
      · exact {
          spent := by simp [noSync]
          asleep := fun wakeAt asleep =>
            absurd ((congrArg ReceiverStage.uncounted asleep).symm.trans
              idle) Nat.one_ne_zero
          awake := fun awake =>
            absurd ((congrArg ReceiverStage.uncounted awake).symm.trans
              idle) Nat.one_ne_zero
          measured := fun dt reporting =>
            absurd reporting (head.unmeasured dt)
        }
  | sending i =>
      have inside : i < setup.chunks := by
        have inside := phased.inside
        rw [stage] at inside
        exact inside
      have stillOpen : state.pair.closed .a = false :=
        phased.closed.trans (by rw [stage]; rfl)
      have sent : state.bytesSent ≤ i * setup.chunkBytes := by
        have sent := phased.sent
        rw [stage] at sent
        exact sent
      have head := sendHead_facts (show i + 1 ≤ setup.chunks from inside)
      simp only [stage] at taken
      split at taken
      · simp only [Option.some.injEq] at taken
        subst taken
        refine Sound.of_main (streamed.framed _ _ _ _) ?_
          (timed.advance (fun _ => by rw [stage]; rfl) head.unmeasured)
          head.running
        exact phased.toSendHead inside stillOpen (by rw [stage]; rfl)
          (by rw [Nat.succ_mul]; omega) (by rw [stage]; rfl)
          (by rw [stage]; rfl)
      · rename_i count
        simp only [Option.ite_none_right_eq_some,
          Option.map_eq_some_iff] at taken
        obtain ⟨small, pair, sends, rfl⟩ := taken
        have closed := closed_of_not_closeUser sends (by simp)
        refine Sound.of_main (streamed.sends sends _) ?_
          (timed.advance (fun _ => by rw [stage]; rfl) head.unmeasured)
          head.running
        exact phased.toSendHead inside (closed ▸ stillOpen)
          (by rw [stage]; rfl) (by rw [Nat.succ_mul]; omega)
          (by rw [stage]; rfl) (by rw [stage]; rfl)
  | closing =>
      have sent := phased.sent
      rw [stage] at sent
      simp only [stage, Option.map_eq_some_iff] at taken
      obtain ⟨pair, closes, rfl⟩ := taken
      have received := received_of_not_receive (x := .a) closes (by simp)
      have alive := Pair.killed_of_not_writeBroken closes (by simp)
      have shut := Pair.step?_closeUser closes
      refine Sound.of_main ?_ ?_
        (timed.advance (fun _ => by rw [stage]; rfl) (by simp)) (by simp)
      · exact streamed.forwarded alive (by rw [shut]; exact streamed.farOpen)
          (by rw [shut]; exact streamed.sound) received (by rw [shut]) _
      · exact phased.advance trivial (by rw [shut]; rfl)
          (by rw [stage]; rfl)
          (fun joined => absurd joined Bool.false_ne_true) sent
          (fun untimed => absurd untimed.symm Bool.false_ne_true)
          (fun opened => absurd opened Bool.false_ne_true)
          (fun _ slow => phased.prepared _ (by rw [stage]; exact slow))
          (fun _ here => phased.announced _ (by rw [stage]; exact here))
  | joining =>
      have sent := phased.sent
      rw [stage] at sent
      simp only [stage, Option.ite_none_right_eq_some,
        Option.some.injEq] at taken
      obtain ⟨returned, rfl⟩ := taken
      refine Sound.of_main (streamed.framed _ _ _ _) ?_
        (timed.advance (fun _ => by rw [stage]; rfl) (by simp)) (by simp)
      exact phased.advance trivial
        (phased.closed.trans (by rw [stage]; rfl)) (by rw [stage]; rfl)
        (fun _ => returned) sent
        (fun untimed => absurd untimed.symm Bool.false_ne_true)
        (fun opened => absurd opened Bool.false_ne_true)
        (fun _ slow => phased.prepared _ (by rw [stage]; exact slow))
        (fun _ here => phased.announced _ (by rw [stage]; exact here))
  | timing =>
      have sent := phased.sent
      have returned := phased.joined (by rw [stage]; rfl)
      have spent := timed.spent (by rw [stage]; rfl)
      rw [stage] at sent
      simp only [stage, Option.some.injEq] at taken
      subst taken
      refine Sound.of_main (streamed.framed _ _ _ _) ?_ ?_ (by simp)
      · exact phased.advance trivial
          (phased.closed.trans (by rw [stage]; rfl)) (by rw [stage]; rfl)
          (fun _ => returned) sent
          (fun untimed => absurd untimed.symm Bool.false_ne_true)
          (fun opened => absurd opened Bool.false_ne_true)
          (fun _ slow => phased.prepared _ (by rw [stage]; exact slow))
          (fun _ here => phased.announced _ (by rw [stage]; exact here))
      · exact {
          spent := fun _ => spent
          asleep := timed.asleep
          awake := timed.awake
          measured := by
            intro dt reporting
            obtain rfl := MainStage.reporting.inj reporting
            simp only
            omega
        }
  | reporting dt =>
      have sent := phased.sent
      have returned := phased.joined (by rw [stage]; rfl)
      have spent := timed.spent (by rw [stage]; rfl)
      have measured := timed.measured dt stage
      have announced := phased.announced _ (by rw [stage]; rfl)
      rw [stage] at sent
      simp only [stage, Option.some.injEq] at taken
      subst taken
      exact {
        streamed := streamed.framed _ _ _ _
        phased := phased.advance trivial
          (phased.closed.trans (by rw [stage]; rfl)) (by rw [stage]; rfl)
          (fun _ => returned) sent
          (fun untimed => absurd untimed.symm Bool.false_ne_true)
          (fun opened => absurd opened Bool.false_ne_true)
          (fun _ slow => phased.prepared _ (by rw [stage]; exact slow))
          (fun _ here => absurd here (by simp [MainStage.reportsThen]))
        timed := {
          spent := fun _ => spent
          asleep := timed.asleep
          awake := timed.awake
          measured := by simp
        }
        reported := fun _ => ⟨dt, by rw [announced], measured⟩
      }
  | ending rc =>
      simp [stage] at taken

/-- A forwarder's step keeps the invariants. -/
theorem Sound.forward
    (sound : Sound setup state)
    {label : ChaosNet.Label}
    {x : End}
    (forwards : label.forwards x = true)
    {pair : Pair}
    (stepped : state.pair.step? label = some pair) :
    Sound setup { state with pair := pair } := by
  have forwarded := forwarded_of_forwards stepped forwards
  have phased := sound.phased
  have timed := sound.timed
  exact {
    streamed := sound.streamed.forwarded forwarded.alive
      (forwarded.closed ▸ sound.streamed.farOpen)
      (forwarded.sound .a sound.streamed.sound) (forwarded.received .a)
      (forwarded.thinned .a) state.main
    phased := ⟨phased.inside, forwarded.closed ▸ phased.closed,
      phased.early, phased.joined, phased.sent,
      phased.untimed, phased.unopened, phased.prepared, phased.announced⟩
    timed := ⟨timed.spent, timed.asleep, timed.awake, timed.measured⟩
    reported := sound.reported
  }

/-- Without a receiver the main thread goes on as well. -/
theorem Sound.createFails
    (sound : Sound setup state)
    (stage : state.main = .creating) :
    Sound setup { state with main := .readingT0 } := by
  have phased := sound.phased
  have nothing := phased.untimed (by rw [stage]; rfl)
  refine Sound.of_main (sound.streamed.framed _ _ _ _) ?_
    (sound.timed.advance (fun begun => absurd begun Bool.false_ne_true)
      (by simp)) (by simp)
  exact {
    inside := trivial
    closed := phased.closed.trans (by rw [stage]; rfl)
    early := fun created => absurd created.symm Bool.false_ne_true
    joined := fun joined => absurd joined Bool.false_ne_true
    sent := nothing.le
    untimed := fun _ => nothing
    unopened := fun opened => absurd opened Bool.false_ne_true
    prepared := fun _ slow =>
      phased.prepared _ (by rw [stage]; exact slow)
    announced := fun _ announced =>
      phased.announced _ (by rw [stage]; exact announced)
  }

/-- Every step keeps the invariants. -/
theorem Sound.step
    {label : Label}
    (sound : Sound setup state)
    (taken : state.step? setup label = some next) :
    Sound setup next := by
  cases label with
  | main answer =>
      exact sound.mainStep taken
  | createFails =>
      simp only [State.step?, Option.ite_none_right_eq_some,
        Option.some.injEq] at taken
      obtain ⟨stage, rfl⟩ := taken
      exact sound.createFails stage
  | receiver answer =>
      exact sound.receiverMove (receiverMove_of_receiverStep? taken)
  | forward label =>
      simp only [State.step?, Option.ite_none_right_eq_some,
        Option.map_eq_some_iff] at taken
      obtain ⟨⟨_, forwards⟩, pair, stepped, rfl⟩ := taken
      rcases forwards with fromA | fromB
      · exact sound.forward fromA stepped
      · exact sound.forward fromB stepped
  | tick ns =>
      simp only [State.step?, Option.some.injEq] at taken
      subst taken
      have phased := sound.phased
      have timed := sound.timed
      exact {
        streamed := sound.streamed.framed _ state.main _ state.reports
        phased := ⟨phased.inside, phased.closed, phased.early,
          phased.joined, phased.sent, phased.untimed,
          phased.unopened, phased.prepared, phased.announced⟩
        timed := {
          spent := fun begun =>
            (timed.spent begun).trans (Nat.le_add_right _ ns)
          asleep := timed.asleep
          awake := fun awake =>
            (timed.awake awake).trans (Nat.le_add_right _ ns)
          measured := timed.measured
        }
        reported := sound.reported
      }

/-- They hold before the first step. -/
theorem sound_start (setup : Setup) (seed : UInt64) (now : Nat) :
    Sound setup (State.start setup seed now) where
  streamed := {
    alive := rfl
    farOpen := rfl
    sound := ⟨trivial, by simp [State.start, Pair.start]⟩
    sent := List.Sublist.refl _
    received := rfl
    persisted := List.Sublist.refl _
    file := rfl
    inHand := Nat.zero_le _
    readsLow := Nat.le_refl _
    readsHigh := Nat.le_refl _
  }
  phased := {
    inside := trivial
    closed := rfl
    early := fun _ => ⟨rfl, rfl⟩
    joined := fun joined => absurd joined Bool.false_ne_true
    sent := Nat.le_refl _
    untimed := fun _ => rfl
    unopened := fun _ => rfl
    prepared := fun _ slow =>
      absurd slow (by simp [State.start, MainStage.delay])
    announced := fun _ here => Option.some.inj here
  }
  timed := {
    spent := fun begun => absurd begun Bool.false_ne_true
    asleep := by simp [State.start]
    awake := by simp [State.start]
    measured := by simp [State.start]
  }
  reported := fun returned => absurd returned (by simp [State.start])

/-- They hold in every state a run reaches. -/
theorem sound_of_run
    {seed : UInt64}
    {now : Nat}
    {labels : List Label}
    (ran :
      State.run? setup (State.start setup seed now) labels = some state) :
    Sound setup state :=
  Transition.run?_invariant (fun sound taken => sound.step taken) ran
    (sound_start setup seed now)

end Steps

section Reports

variable {setup : Setup} {sent received persisted fsyncs dt : Nat}

/-- What the lines of the report show. -/
structure Printed
    (setup : Setup)
    (sent received fsyncs dt : Nat) : Prop where
  lost :
    0 ≤ lostPct (expectedBytes setup) ((sent : Int) - received) ∧
      lostPct (expectedBytes setup) ((sent : Int) - received) ≤ 100
  elapsed :
    fsyncs * (setup.fsyncDelay.toNat / 1000000) ≤ elapsedMs dt
  average : fsyncs ≠ 0 →
    setup.fsyncDelay.toNat / 1000000 ≤ msPerFsync (elapsedMs dt) fsyncs

/-- The printed numbers follow from those accounted for. -/
theorem Cascaded.printed
    (cascaded : Cascaded setup sent received persisted fsyncs dt) :
    Printed setup sent received fsyncs dt := by
  have elapsed :
      fsyncs * (setup.fsyncDelay.toNat / 1000000) ≤ elapsedMs dt := by
    have waited := cascaded.waited
    have cut :
        setup.fsyncDelay.toNat / 1000000 * 1000000 ≤
          setup.fsyncDelay.toNat :=
      Nat.div_mul_le_self _ _
    rw [elapsedMs, Nat.le_div_iff_mul_le (by decide)]
    calc
      fsyncs * (setup.fsyncDelay.toNat / 1000000) * 1000000
          = fsyncs * (setup.fsyncDelay.toNat / 1000000 * 1000000) :=
        Nat.mul_assoc _ _ _
      _ ≤ fsyncs * setup.fsyncDelay.toNat := Nat.mul_le_mul_left _ cut
      _ ≤ dt := waited
  refine ⟨?_, elapsed, fun some => ?_⟩
  · have most := cascaded.sentMost
    have less := cascaded.ofSent
    unfold lostPct
    split
    · rename_i positive
      constructor
      · exact Int.tdiv_nonneg (by omega) (by omega)
      · rw [Int.tdiv_eq_ediv_of_nonneg (by omega)]
        exact Int.ediv_le_of_le_mul positive (by omega)
    · exact ⟨Int.le_refl 0, by decide⟩
  · rw [msPerFsync, if_pos some, Nat.le_div_iff_mul_le (by omega),
      Nat.mul_comm]
    exact elapsed

end Reports

/--
Whatever the seed, the interleaving, the short reads and writes and the calls
that fail, a report accounts for every byte and every sync: what is persisted
was received and what is received was sent, in order; every counted sync
follows a nonempty read and is paid for in the elapsed time; and the printed
percentage and average say so.
-/
theorem cascade_report_accounts
    {setup : Setup}
    {seed : UInt64}
    {now : Nat}
    {labels : List Label}
    {state : State}
    (ran :
      State.run? setup (State.start setup seed now) labels = some state)
    (ended : state.main = .ending 0) :
    state.client.file.length = state.bytesPersisted ∧
      state.client.file.Sublist (state.pair.direction .a).received ∧
      (state.pair.direction .a).received.length = state.bytesReceived ∧
      (state.pair.direction .a).received.Sublist
        (chunk state.bytesSent) ∧
      ∃ dt,
        state.reports =
            cascadePreamble setup ++
              cascadeReport setup state.bytesSent state.bytesReceived
                state.bytesPersisted state.fsyncCount dt ∧
          Cascaded setup state.bytesSent state.bytesReceived
            state.bytesPersisted state.fsyncCount dt ∧
          Printed setup state.bytesSent state.bytesReceived
            state.fsyncCount dt := by
  have sound := sound_of_run ran
  have streamed := sound.streamed
  obtain ⟨dt, reports, waited⟩ := sound.reported ended
  have joined := sound.phased.joined (by rw [ended]; rfl)
  have sentMost := sound.phased.sent
  rw [ended] at sentMost
  have persisted : state.client.file.Sublist
      (state.pair.direction .a).received :=
    (List.sublist_append_left _ _).trans streamed.persisted
  have received : (state.pair.direction .a).received.Sublist
      (chunk state.bytesSent) := by
    refine List.Sublist.trans ?_ streamed.sent
    rw [Direction.inOrder, Direction.delivered, List.append_assoc]
    exact List.sublist_append_left _ _
  have ofReceived := persisted.length_le
  have ofSent := received.length_le
  rw [streamed.file, streamed.received] at ofReceived
  rw [streamed.received, chunk, List.length_replicate] at ofSent
  have syncs := streamed.readsLow
  have reads := streamed.readsHigh
  rw [joined] at syncs reads
  have cascaded :
      Cascaded setup state.bytesSent state.bytesReceived
        state.bytesPersisted state.fsyncCount dt :=
    ⟨sentMost, ofSent, ofReceived, syncs, reads, waited⟩
  exact ⟨streamed.file, persisted, streamed.received, received, dt,
    reports, cascaded, cascaded.printed⟩

/-- One chunk is sent; with seed 7 half of it is lost, and a write is short. -/
def lossyRun : List Label :=
  [[.main (some 0), .main (some 3)],
    List.replicate 4 (.main none),
    [.main (some 256)],
    List.replicate 50 (.main none),
    [.forward (.read .a 256), .forward (.snapshot .a),
      .forward (.decide .a), .forward (.write .a 64),
      .forward (.decide .a), .forward (.decide .a),
      .forward (.decide .a), .forward (.write .a 64),
      .forward (.readEof .a)],
    [.receiver (some 128), .receiver (some 100), .receiver none,
      .tick 50000000, .receiver none, .receiver none, .receiver (some 0)],
    List.replicate 3 (.main none)].flatten

/-- Its report accounts for what was sent, received and persisted. -/
theorem cascade_report_accounts_lossy :
    ∃ state,
      State.run? cascade (State.start cascade 7 7) lossyRun = some state ∧
        state.main = .ending 0 ∧
        state.bytesSent = 256 ∧ state.bytesReceived = 128 ∧
        state.bytesPersisted = 100 ∧
        ∃ dt,
          Cascaded cascade state.bytesSent state.bytesReceived
            state.bytesPersisted state.fsyncCount dt := by
  have finished :
      (State.run? cascade (State.start cascade 7 7) lossyRun).map
          (fun state => (state.main, state.bytesSent, state.bytesReceived,
            state.bytesPersisted)) =
        some (.ending 0, 256, 128, 100) := by
    decide +kernel
  obtain ⟨state, ran, reached⟩ := Option.map_eq_some_iff.mp finished
  simp only [Prod.mk.injEq] at reached
  obtain ⟨ended, sent, received, persisted⟩ := reached
  obtain ⟨_, _, _, _, dt, _, cascaded, _⟩ :=
    cascade_report_accounts ran ended
  exact ⟨state, ran, ended, sent, received, persisted, dt, cascaded⟩

end FailurePlayground.CascadingFailure
