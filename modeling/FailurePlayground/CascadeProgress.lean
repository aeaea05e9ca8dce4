import FailurePlayground.CascadeSeeded
import FailurePlayground.NetCloseProgress

namespace FailurePlayground.CascadingFailure

/-!
# The cascade comes to its report

A measure counts what the bytes still have to go through, and every step of a
thread or a forwarder lowers it.  Short of the report some call can be answered
without a failure, if need be after a sleep, unless the receiver is missing.
-/

open ChaosNet

section Measure

/-- A bound on the receiver's steps before it reads again. -/
def ReceiverStage.rank : ReceiverStage → Nat
  | .absent => 6
  | .writing _ => 5
  | .syncing => 4
  | .sleeping _ => 3
  | .counting => 2
  | .reading => 1
  | .returned => 0

/-- What a write of the sender adds to what is to be done, and its step. -/
def sendCost (setup : Setup) : Nat :=
  24 * setup.chunkBytes + 1

/-- A bound on the main thread's steps and what they add. -/
def MainStage.rank (setup : Setup) : MainStage → Nat
  | .pairing => 10 + setup.chunks * sendCost setup
  | .opening => 9 + setup.chunks * sendCost setup
  | .settingDelay => 8 + setup.chunks * sendCost setup
  | .announcing => 7 + setup.chunks * sendCost setup
  | .creating => 6 + setup.chunks * sendCost setup
  | .readingT0 => 5 + setup.chunks * sendCost setup
  | .sending i => 4 + (setup.chunks - i) * sendCost setup
  | .closing => 4
  | .joining => 3
  | .timing => 2
  | .reporting _ => 1
  | .ending _ => 0

/-- What a step from a stage takes off the rank. -/
def MainStage.cost (setup : Setup) (main : MainStage) : Nat :=
  if main.sends then sendCost setup else 1

/-- Everything that is still to be done. -/
def State.measure (setup : Setup) (state : State) : Nat :=
  state.main.rank setup + state.receiver.rank +
    flow (state.pair.direction .a) + flow (state.pair.direction .b)

/-- A bound on the steps of a whole run. -/
def stepBound (setup : Setup) : Nat :=
  28 + setup.chunks * sendCost setup

/-- A step of a thread or of a forwarder. -/
def Label.acts : Label → Bool
  | .main _ | .createFails | .receiver _ | .forward _ => true
  | .tick _ => false

/-- A step whose call does not fail. -/
def Label.Succeeds : Label → Prop
  | .main answer | .receiver answer => answer ≠ none
  | .forward label =>
      (∀ x, label ≠ .readFails x) ∧ ∀ x, label ≠ .writeFails x
  | .createFails | .tick _ => False

variable {setup : Setup} {state next : State}

/-- The head of the loop ranks below the iteration before it. -/
theorem rank_sendHead
    {i : Nat}
    (inside : i < setup.chunks) :
    (MainStage.sendHead setup.chunks (i + 1)).rank setup +
        sendCost setup ≤
      (MainStage.sending i).rank setup := by
  have split : setup.chunks - i = setup.chunks - (i + 1) + 1 := by
    omega
  have rank :
      (MainStage.sending i).rank setup =
        4 + (setup.chunks - (i + 1) + 1) * sendCost setup := by
    rw [MainStage.rank, split]
  rw [rank, Nat.add_mul, Nat.one_mul, MainStage.sendHead]
  split
  · simp only [MainStage.rank]
    omega
  · simp only [MainStage.rank]
    omega

/-- A run begins with everything to be done. -/
theorem measure_start
    (setup : Setup)
    (seed : UInt64)
    (now : Nat) :
    (State.start setup seed now).measure setup = stepBound setup := by
  simp only [State.measure, State.start, MainStage.rank,
    ReceiverStage.rank, flow, Pair.start, Direction.work,
    Forward.work, List.length_nil, stepBound]
  omega

/-- Every step of the main thread pays its cost. -/
theorem mainStep?_rank
    {answer : Option Nat}
    (inside : state.main.Inside setup)
    (taken : state.mainStep? setup answer = some next) :
    next.main.rank setup + state.main.cost setup ≤
      state.main.rank setup := by
  unfold State.mainStep? at taken
  cases stage : state.main with
  | pairing =>
      simp only [stage] at taken
      split at taken
      all_goals
        simp only [Option.some.injEq] at taken
        subst taken
        simp only [State.giveUp, MainStage.rank, MainStage.cost,
          MainStage.sends, Bool.false_eq_true, if_false]
        omega
  | opening =>
      simp only [stage] at taken
      split at taken
      all_goals
        simp only [Option.some.injEq] at taken
        subst taken
        simp only [State.giveUp, MainStage.rank, MainStage.cost,
          MainStage.sends, Bool.false_eq_true, if_false]
        omega
  | settingDelay | announcing | creating | timing | reporting dt =>
      simp only [stage, Option.some.injEq] at taken
      subst taken
      simp only [MainStage.rank, MainStage.cost, MainStage.sends,
        Bool.false_eq_true, if_false]
      omega
  | readingT0 =>
      simp only [stage, Option.some.injEq] at taken
      subst taken
      simp only [MainStage.cost, MainStage.sends, Bool.false_eq_true,
        if_false, MainStage.sendHead]
      split
      · simp only [MainStage.rank, Nat.sub_zero]
        omega
      · simp only [MainStage.rank]
        omega
  | sending i =>
      rw [stage] at inside
      have lower :
          (MainStage.sendHead setup.chunks (i + 1)).rank setup +
              sendCost setup ≤
            (MainStage.sending i).rank setup :=
        rank_sendHead inside
      simp only [stage] at taken
      split at taken
      · simp only [Option.some.injEq] at taken
        subst taken
        exact lower
      · simp only [Option.ite_none_right_eq_some,
          Option.map_eq_some_iff] at taken
        obtain ⟨_, pair, _, rfl⟩ := taken
        exact lower
  | closing =>
      simp only [stage, Option.map_eq_some_iff] at taken
      obtain ⟨pair, _, rfl⟩ := taken
      simp only [MainStage.rank, MainStage.cost, MainStage.sends,
        Bool.false_eq_true, if_false]
      omega
  | joining =>
      simp only [stage, Option.ite_none_right_eq_some,
        Option.some.injEq] at taken
      obtain ⟨_, rfl⟩ := taken
      simp only [MainStage.rank, MainStage.cost, MainStage.sends,
        Bool.false_eq_true, if_false]
      omega
  | ending rc =>
      simp [stage] at taken

/-- Every step of the main thread leaves less to be done. -/
theorem mainStep?_measure
    {answer : Option Nat}
    (sound : Sound setup state)
    (taken : state.mainStep? setup answer = some next) :
    next.measure setup < state.measure setup := by
  have rank := mainStep?_rank sound.phased.inside taken
  have cost : 1 ≤ state.main.cost setup := by
    unfold MainStage.cost sendCost
    split <;> omega
  cases mainEffect_of_mainStep? taken with
  | quiet pair bytesSent receiver =>
      have receiverRank : next.receiver.rank ≤ state.receiver.rank := by
        rcases receiver with same | ⟨creating, reading⟩
        · rw [same]
        · rw [reading, (sound.phased.early (by rw [creating]; rfl)).1]
          decide
      unfold State.measure
      rw [pair]
      omega
  | sends count sends answered small sent bytesSent receiver =>
      obtain ⟨_, after⟩ := Pair.step?_send sent
      have full : state.main.cost setup = sendCost setup := by
        rw [MainStage.cost, if_pos sends]
      have grown :
          flow (next.pair.direction .a) =
            flow (state.pair.direction .a) + 24 * count := by
        rw [after, Pair.direction_setDirection_same]
        simp only [flow, Direction.work, List.length_append, chunk,
          List.length_replicate]
        omega
      have other :
          next.pair.direction .b = state.pair.direction .b := by
        rw [after, Pair.direction_setDirection_other _ (by simp)]
      unfold State.measure
      rw [full, sendCost] at rank
      rw [grown, other, receiver]
      omega
  | closes closes bytesSent receiver =>
      unfold State.measure
      rw [Pair.step?_closeUser closes, receiver]
      simp only
      omega

/-- Every step of the receiver leaves less to be done. -/
theorem ReceiverMove.measure_lt
    {answer : Option Nat}
    (move : ReceiverMove state answer next) :
    next.measure setup < state.measure setup := by
  cases move with
  | reads count pair stage small received =>
      obtain ⟨_, positive, available, rfl⟩ :=
        Pair.step?_receive received
      simp only [State.measure, stage, ReceiverStage.rank, End.other,
        Pair.direction_setDirection_same,
        Pair.direction_setDirection_other _
          (show End.b ≠ .a by simp), flow, Direction.work,
        List.length_drop] at available ⊢
      omega
  | fails stage | readsEof stage | writes _ _ stage | sleeps _ stage
  | goesOn _ stage | wakes _ _ stage | counts _ stage =>
      simp only [State.measure, stage, ReceiverStage.rank]
      omega

/-- Both forwarders are within their buffers. -/
def BothSound (state : State) : Prop :=
  ∀ x, (state.pair.direction x).Sound

/-- Every step but the passing of time leaves less to be done. -/
theorem step?_measure
    {label : Label}
    (sound : Sound setup state)
    (both : BothSound state)
    (acts : label.acts = true)
    (taken : state.step? setup label = some next) :
    next.measure setup < state.measure setup := by
  cases label with
  | main answer =>
      exact mainStep?_measure sound taken
  | createFails =>
      simp only [State.step?, Option.ite_none_right_eq_some,
        Option.some.injEq] at taken
      obtain ⟨stage, rfl⟩ := taken
      simp only [State.measure, stage, MainStage.rank]
      omega
  | receiver answer =>
      exact (receiverMove_of_receiverStep? taken).measure_lt
  | forward label =>
      simp only [State.step?, Option.ite_none_right_eq_some,
        Option.map_eq_some_iff] at taken
      obtain ⟨⟨_, forwards⟩, pair, stepped, rfl⟩ := taken
      rcases forwards with fromA | fromB
      · have lower := flow_lt_of_forwards (both .a) stepped fromA
        have other := direction_of_forwards (show End.b ≠ .a by simp)
          fromA stepped
        simp only [State.measure, other]
        omega
      · have lower := flow_lt_of_forwards (both .b) stepped fromB
        have other := direction_of_forwards (show End.a ≠ .b by simp)
          fromB stepped
        simp only [State.measure, other]
        omega
  | tick ns =>
      exact absurd acts Bool.false_ne_true

/-- Every step keeps both forwarders within their buffers. -/
theorem BothSound.step
    {label : Label}
    (both : BothSound state)
    (taken : state.step? setup label = some next) :
    BothSound next := by
  have same (pair : next.pair = state.pair) : BothSound next :=
    fun x => by rw [pair]; exact both x
  have moved
      {call : ChaosNet.Label}
      (stepped : state.pair.step? call = some next.pair) :
      BothSound next :=
    fun x => sound_step (both x) stepped
  cases label with
  | main answer =>
      cases mainEffect_of_mainStep? taken with
      | quiet pair bytesSent receiver =>
          exact same pair
      | sends count sends answered small sent bytesSent receiver =>
          exact moved sent
      | closes closes bytesSent receiver =>
          exact moved closes
  | receiver answer =>
      cases receiverMove_of_receiverStep? taken with
      | reads count pair stage small received =>
          exact moved received
      | fails stage | readsEof stage | writes _ _ stage
      | sleeps _ stage | goesOn _ stage | wakes _ _ stage
      | counts _ stage =>
          exact same rfl
  | forward label =>
      simp only [State.step?, Option.ite_none_right_eq_some,
        Option.map_eq_some_iff] at taken
      obtain ⟨_, pair, stepped, rfl⟩ := taken
      exact moved stepped
  | createFails =>
      simp only [State.step?, Option.ite_none_right_eq_some,
        Option.some.injEq] at taken
      obtain ⟨_, rfl⟩ := taken
      exact same rfl
  | tick ns =>
      simp only [State.step?, Option.some.injEq] at taken
      subst taken
      exact same rfl

end Measure

section Receiver

variable {setup : Setup} {state next : State}

/-- The main thread has its receiver, or has not come to it. -/
def HasReceiver (state : State) : Prop :=
  state.main.created = true → state.receiver ≠ .absent

/-- A step of the main thread keeps its receiver. -/
theorem HasReceiver.mainStep
    {answer : Option Nat}
    (has : HasReceiver state)
    (taken : state.mainStep? setup answer = some next) :
    HasReceiver next := by
  intro created
  unfold State.mainStep? at taken
  cases stage : state.main with
  | pairing =>
      simp only [stage] at taken
      split at taken
      all_goals
        simp only [Option.some.injEq] at taken
        rw [← taken] at created
        exact absurd created Bool.false_ne_true
  | opening =>
      simp only [stage] at taken
      split at taken
      all_goals
        simp only [Option.some.injEq] at taken
        rw [← taken] at created
        exact absurd created Bool.false_ne_true
  | settingDelay | announcing =>
      simp only [stage, Option.some.injEq] at taken
      rw [← taken] at created
      exact absurd created Bool.false_ne_true
  | creating =>
      simp only [stage, Option.some.injEq] at taken
      rw [← taken]
      exact ReceiverStage.noConfusion
  | readingT0 | timing | reporting dt =>
      simp only [stage, Option.some.injEq] at taken
      rw [← taken]
      exact has (by rw [stage]; rfl)
  | sending i =>
      have present := has (by rw [stage]; rfl)
      simp only [stage] at taken
      split at taken
      · simp only [Option.some.injEq] at taken
        rw [← taken]
        exact present
      · simp only [Option.ite_none_right_eq_some,
          Option.map_eq_some_iff] at taken
        obtain ⟨_, pair, _, rfl⟩ := taken
        exact present
  | closing =>
      simp only [stage, Option.map_eq_some_iff] at taken
      obtain ⟨pair, _, rfl⟩ := taken
      exact has (by rw [stage]; rfl)
  | joining =>
      simp only [stage, Option.ite_none_right_eq_some,
        Option.some.injEq] at taken
      obtain ⟨_, rfl⟩ := taken
      exact has (by rw [stage]; rfl)
  | ending rc =>
      simp [stage] at taken

/-- Every step does whose `pthread_create`, if any, succeeds. -/
theorem HasReceiver.step
    {label : Label}
    (has : HasReceiver state)
    (kind : label ≠ .createFails)
    (taken : state.step? setup label = some next) :
    HasReceiver next := by
  cases label with
  | main answer =>
      exact has.mainStep taken
  | createFails =>
      exact absurd rfl kind
  | receiver answer =>
      intro _
      cases receiverMove_of_receiverStep? taken <;> simp
  | forward label =>
      simp only [State.step?, Option.ite_none_right_eq_some,
        Option.map_eq_some_iff] at taken
      obtain ⟨_, pair, _, rfl⟩ := taken
      exact has
  | tick ns =>
      simp only [State.step?, Option.some.injEq] at taken
      subst taken
      exact has

end Receiver

section Progress

variable {setup : Setup} {state : State}

/-- Some call succeeds, if need be after a sleep. -/
def Moves (setup : Setup) (state : State) : Prop :=
  ∃ ns label, label.Succeeds ∧
    ({ state with now := state.now + ns }.step? setup label).isSome = true

/-- A call of the main thread that succeeds. -/
theorem moves_of_main
    (answer : Nat)
    (taken : (state.mainStep? setup (some answer)).isSome = true) :
    Moves setup state :=
  ⟨0, .main (some answer), by simp [Label.Succeeds], taken⟩

/-- While the receiver runs and the sender has closed, something moves. -/
theorem moves_of_receiver
    (sound : Sound setup state)
    (closed : state.pair.closed .a = true)
    (paired : state.main.paired = true)
    (present : state.receiver ≠ .absent)
    (running : state.receiver ≠ .returned) :
    Moves setup state := by
  have streamed := sound.streamed
  cases stage : state.receiver with
  | absent =>
      exact absurd stage present
  | returned =>
      exact absurd stage running
  | writing buf =>
      exact ⟨0, .receiver (some 0), by simp [Label.Succeeds],
        by simp [State.step?, State.receiverStep?, stage]⟩
  | syncing =>
      refine ⟨0, .receiver (some 0), by simp [Label.Succeeds], ?_⟩
      simp only [State.step?, State.receiverStep?, stage]
      split <;> rfl
  | sleeping wakeAt =>
      exact ⟨wakeAt, .receiver (some 0), by simp [Label.Succeeds],
        by simp [State.step?, State.receiverStep?, stage]⟩
  | counting =>
      exact ⟨0, .receiver (some 0), by simp [Label.Succeeds],
        by simp [State.step?, State.receiverStep?, stage]⟩
  | reading =>
      cases inbox : state.inbox with
      | cons byte rest =>
          refine ⟨0, .receiver (some 1), by simp [Label.Succeeds], ?_⟩
          have arrived : (state.pair.direction .a).arrived = byte :: rest :=
            inbox
          simp [State.step?, State.receiverStep?, stage, recvBufSize,
            Pair.step?, Pair.stepAlive?, streamed.alive,
            streamed.farOpen, End.other, arrived]
      | nil =>
          cases ended : (state.pair.direction .a).ended with
          | true =>
              have empty : (state.pair.direction .a).arrived = [] := inbox
              exact ⟨0, .receiver (some 0), by simp [Label.Succeeds],
                by simp [State.step?, State.receiverStep?, stage, empty,
                  State.inbox, ended]⟩
          | false =>
              have behind :
                  (state.pair.direction .a).forward ≠ .returned := by
                intro returned
                rw [streamed.sound.ended.mpr returned] at ended
                cases ended
              obtain ⟨label, forwards, readsOn, writesOn, enabled⟩ :=
                forwards_succeeds streamed.alive streamed.sound
                  (fun _ => streamed.farOpen) closed behind
              refine ⟨0, .forward label, ⟨?_, ?_⟩, ?_⟩
              · intro y same
                subst same
                obtain rfl : y = .a := beq_iff_eq.mp forwards
                exact readsOn rfl
              · intro y same
                subst same
                obtain rfl : y = .a := beq_iff_eq.mp forwards
                exact writesOn rfl
              · simp only [State.step?, paired, forwards, true_or,
                  and_self, if_true, Option.isSome_map]
                exact enabled

/-- Until `run` has reported something can move without a failure. -/
theorem moves_of_not_ending
    (sound : Sound setup state)
    (has : HasReceiver state)
    (unfinished : ∀ rc, state.main ≠ .ending rc) :
    Moves setup state := by
  have streamed := sound.streamed
  have phased := sound.phased
  cases stage : state.main with
  | pairing =>
      exact moves_of_main 0 (by simp [State.mainStep?, stage])
  | opening =>
      refine moves_of_main 3 ?_
      simp only [State.mainStep?, stage]
      split <;> rfl
  | settingDelay | announcing | creating | readingT0 | timing
  | reporting dt =>
      exact moves_of_main 0 (by simp [State.mainStep?, stage])
  | sending i =>
      have stillOpen : state.pair.closed .a = false :=
        phased.closed.trans (by rw [stage]; rfl)
      exact moves_of_main setup.chunkBytes
        (by simp [State.mainStep?, stage, Pair.step?, Pair.stepAlive?,
          streamed.alive, stillOpen])
  | closing =>
      exact moves_of_main 0
        (by simp [State.mainStep?, stage, Pair.step?, Pair.stepAlive?,
          streamed.alive])
  | joining =>
      by_cases returned : state.receiver = .returned
      · exact moves_of_main 0
          (by simp [State.mainStep?, stage, returned])
      · exact moves_of_receiver sound
          (phased.closed.trans (by rw [stage]; rfl)) (by rw [stage]; rfl)
          (has (by rw [stage]; rfl)) returned
  | ending rc =>
      exact absurd stage (unfinished rc)

end Progress

/-- A run makes no more steps than a bound, whatever the kernel answers. -/
theorem countP_acts_le
    {setup : Setup}
    {seed : UInt64}
    {now : Nat}
    {labels : List Label}
    {state : State}
    (ran :
      State.run? setup (State.start setup seed now) labels = some state) :
    labels.countP Label.acts ≤ stepBound setup := by
  have preserved :
      ∀ {before : State} {label : Label} {after : State},
        Sound setup before ∧ BothSound before →
        True →
        before.step? setup label = some after →
        Sound setup after ∧ BothSound after :=
    fun holds _ taken => ⟨holds.1.step taken, holds.2.step taken⟩
  rw [← measure_start setup seed now]
  refine Transition.countP_productive_le Label.acts
    (State.measure setup) preserved ?_ ?_ ran
    (Transition.eachStep_of_forall (fun _ _ => trivial) _)
    ⟨sound_start setup seed now, fun _ => ⟨trivial, by
      simp [State.start, Pair.start]⟩⟩
  · intro before label after holds _ taken acts
    exact step?_measure holds.1 holds.2 acts taken
  · intro before label after holds _ taken idle
    cases label with
    | tick ns =>
        simp only [State.step?, Option.some.injEq] at taken
        subst taken
        exact Nat.le_refl _
    | main answer | createFails | receiver answer | forward label =>
        exact absurd idle (by simp [Label.acts])

/-- When the receiver is created something moves until `run` has reported. -/
theorem moves_of_run
    {setup : Setup}
    {seed : UInt64}
    {now : Nat}
    {labels : List Label}
    {state : State}
    (ran :
      State.run? setup (State.start setup seed now) labels = some state)
    (created : ∀ label ∈ labels, label ≠ .createFails)
    (unfinished : ∀ rc, state.main ≠ .ending rc) :
    Moves setup state := by
  refine moves_of_not_ending (sound_of_run ran) ?_ unfinished
  exact Transition.run?_invariant_of_eachStep
    (fun has kind taken => HasReceiver.step has kind taken) ran
    (Transition.eachStep_of_forall created _)
    (fun created => absurd created Bool.false_ne_true)

end FailurePlayground.CascadingFailure
