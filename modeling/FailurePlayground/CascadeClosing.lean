import FailurePlayground.CascadeProgress

namespace FailurePlayground.CascadingFailure

/-!
# The cascade comes to its end

Once `run` has reported, or has found no file, only the closing calls are left:
`chaos_io_close` does not wait, and `chaos_net_close` closes what is still open
of the pair and joins both forwarders.  The receiver has returned by then, or
never was.
-/

open ChaosNet

section Closing

variable
  {setup : Setup}
  {state next : State}
  {label : Label}

/-- What a run of the cascade keeps for its end. -/
structure Closable (setup : Setup) (state : State) : Prop where
  sound : Sound setup state
  both : BothSound state
  /-- Nothing is ever sent from the receiver's end. -/
  back : (state.pair.direction .b).Idle
  bounded : state.measure setup ≤ stepBound setup

/-- No step of the cascade sends from the receiver's end. -/
theorem back_step
    (back : (state.pair.direction .b).Idle)
    (taken : state.step? setup label = some next) :
    (next.pair.direction .b).Idle := by
  cases label with
  | main answer =>
      cases mainEffect_of_mainStep? taken with
      | quiet pair bytesSent receiver =>
          exact pair ▸ back
      | sends count sends answered small sent bytesSent receiver =>
          exact idle_elsewhere back sent
            (by simp [ChaosNet.Label.direction?])
      | closes closes bytesSent receiver =>
          exact idle_elsewhere back closes
            (by simp [ChaosNet.Label.direction?])
  | createFails =>
      simp only [State.step?, Option.ite_none_right_eq_some,
        Option.some.injEq] at taken
      obtain ⟨_, rfl⟩ := taken
      exact back
  | receiver answer =>
      cases receiverMove_of_receiverStep? taken with
      | reads count pair stage small received =>
          exact idle_elsewhere back received
            (by simp [ChaosNet.Label.direction?, End.other])
      | fails stage | readsEof stage | writes _ _ stage
      | sleeps _ stage | goesOn _ stage | wakes _ _ stage
      | counts _ stage =>
          exact back
  | forward inner =>
      simp only [State.step?, Option.ite_none_right_eq_some,
        Option.map_eq_some_iff] at taken
      obtain ⟨⟨_, forwards⟩, pair, stepped, rfl⟩ := taken
      exact forwards.elim (idle_either back · stepped)
        (idle_either back · stepped)
  | tick ns =>
      simp only [State.step?, Option.some.injEq] at taken
      subst taken
      exact back

/-- Every step keeps what the end needs. -/
theorem Closable.step
    (closable : Closable setup state)
    (taken : state.step? setup label = some next) :
    Closable setup next := by
  obtain ⟨sound, both, back, bounded⟩ := closable
  refine ⟨sound.step taken, both.step taken, back_step back taken, ?_⟩
  cases acts : label.acts with
  | true =>
      exact (step?_measure sound both acts taken).le.trans bounded
  | false =>
      cases label with
      | tick ns =>
          simp only [State.step?, Option.some.injEq] at taken
          subst taken
          exact bounded
      | main answer | createFails | receiver answer | forward inner =>
          exact absurd acts (by simp [Label.acts])

/-- It holds in every state a run reaches. -/
theorem closable_of_run
    {seed : UInt64}
    {now : Nat}
    {labels : List Label}
    (ran :
      State.run? setup (State.start setup seed now) labels = some state) :
    Closable setup state := by
  refine Transition.run?_invariant
    (fun closable taken => Closable.step closable taken) ran ?_
  exact {
    sound := sound_start setup seed now
    both := fun _ => ⟨trivial, by simp [State.start, Pair.start]⟩
    back := Or.inr ⟨rfl, rfl⟩
    bounded := (measure_start setup seed now).le }

/-- So the pair can be closed wherever the cascade stands. -/
theorem Closable.closes
    (closable : Closable setup state) :
    Closes state.pair (stepBound setup + 5) := by
  have bounded := closable.bounded
  refine closes_of_sound closable.both ?_
  simp only [State.measure, flow] at bounded
  omega

end Closing

section Draining

variable
  {setup : Setup}
  {state next : State}
  {label : Label}

/-- No `read` of the receiver fails. -/
def State.ReadsOn (state : State) : Label → Prop
  | .receiver none => state.receiver ≠ .reading
  | _ => True

instance (state : State) (label : Label) :
    Decidable (state.ReadsOn label) :=
  match label with
  | .receiver none => inferInstanceAs (Decidable (_ ≠ _))
  | .receiver (some _) | .main _ | .createFails | .forward _ | .tick _ =>
      inferInstanceAs (Decidable True)

/-- A receiver that has returned has seen the end of what came. -/
def Drained (state : State) : Prop :=
  state.receiver = .returned →
    (state.pair.direction .a).forward = .returned

/-- As long as nothing was sent the sender's forwarder is idle. -/
theorem idle_of_unsent
    (streamed : Streamed state)
    (nothing : state.bytesSent = 0) :
    (state.pair.direction .a).Idle := by
  have lengths := streamed.sent.length_le
  simp only [nothing, chunk, List.length_replicate, Direction.inOrder,
    List.length_append] at lengths
  have source : (state.pair.direction .a).source = [] :=
    List.length_eq_zero_iff.mp (by omega)
  have forward := streamed.sound.forward
  cases here : (state.pair.direction .a).forward with
  | reading =>
      exact Or.inr ⟨here, source⟩
  | returned =>
      exact Or.inl here
  | filled buf =>
      simp only [here, Forward.unread] at lengths
      rw [here] at forward
      exact absurd (List.length_eq_zero_iff.mp (by omega)) forward
  | atLoss k buf off =>
      simp only [here, Forward.unread, List.length_drop] at lengths
      rw [here] at forward
      simp only [Forward.Sound] at forward
      omega
  | atWrite k buf off size =>
      simp only [here, Forward.unread, List.length_drop] at lengths
      rw [here] at forward
      simp only [Forward.Sound] at forward
      omega

/-- Every step keeps it, unless a `read` fails. -/
theorem Drained.step
    (sound : Sound setup state)
    (drained : Drained state)
    (kind : state.ReadsOn label)
    (taken : state.step? setup label = some next) :
    Drained next := by
  cases label with
  | main answer =>
      cases mainEffect_of_mainStep? taken with
      | quiet pair bytesSent receiver =>
          intro returned
          rcases receiver with same | ⟨_, reading⟩
          · exact pair ▸ drained (same.symm.trans returned)
          · exact ReceiverStage.noConfusion (reading.symm.trans returned)
      | sends count sends answered small sent bytesSent receiver =>
          obtain ⟨_, after⟩ := Pair.step?_send sent
          intro returned
          rw [after, Pair.direction_setDirection_same]
          exact drained (receiver.symm.trans returned)
      | closes closes bytesSent receiver =>
          intro returned
          rw [Pair.step?_closeUser closes]
          exact drained (receiver.symm.trans returned)
  | createFails =>
      simp only [State.step?, Option.ite_none_right_eq_some,
        Option.some.injEq] at taken
      obtain ⟨_, rfl⟩ := taken
      exact drained
  | receiver answer =>
      cases receiverMove_of_receiverStep? taken with
      | fails stage =>
          exact absurd stage kind
      | readsEof stage empty ended =>
          exact fun _ => sound.streamed.sound.ended.mp ended
      | reads count pair stage small received =>
          exact fun returned => ReceiverStage.noConfusion returned
      | writes _ _ stage | sleeps _ stage | goesOn _ stage
      | wakes _ _ stage | counts _ stage =>
          exact fun returned => ReceiverStage.noConfusion returned
  | forward inner =>
      simp only [State.step?, Option.ite_none_right_eq_some,
        Option.map_eq_some_iff] at taken
      obtain ⟨⟨_, forwards⟩, pair, stepped, rfl⟩ := taken
      intro returned
      have done := drained returned
      rcases forwards with own | own
      · rw [elsewhere_of_returned done own stepped]
        exact done
      · rw [elsewhere_of_returned done own stepped]
        exact done
  | tick ns =>
      simp only [State.step?, Option.some.injEq] at taken
      subst taken
      exact drained

/-- At the end of such a run neither forwarder has anything to write. -/
theorem quiet_of_run
    {seed : UInt64}
    {now : Nat}
    {labels : List Label}
    (ran :
      State.run? setup (State.start setup seed now) labels = some state)
    (readsOn :
      Transition.EachStep (State.step? setup) State.ReadsOn
        (State.start setup seed now) labels)
    {rc : Int}
    (ending : state.main = .ending rc) :
    Quiet state.pair := by
  have closable := closable_of_run ran
  have streamed := closable.sound.streamed
  have phased := closable.sound.phased
  refine ⟨streamed.alive, fun x => ?_⟩
  cases x with
  | b =>
      exact closable.back
  | a =>
      by_cases reported : rc = 0
      · have kept : ∀ {before : State} {label : Label} {after : State},
            Sound setup before ∧ Drained before →
              before.ReadsOn label →
              before.step? setup label = some after →
              Sound setup after ∧ Drained after :=
          fun holds kind taken =>
            ⟨holds.1.step taken, holds.2.step holds.1 kind taken⟩
        obtain ⟨_, drained⟩ :=
          Transition.run?_invariant_of_eachStep kept ran readsOn
            ⟨sound_start setup seed now, fun returned => by cases returned⟩
        refine Or.inl (drained (phased.joined ?_))
        rw [ending, reported]
        rfl
      · refine idle_of_unsent streamed (phased.untimed ?_)
        rw [ending]
        exact beq_false_of_ne reported

end Draining

/--
The cascade comes to its end under every schedule: a run makes no more steps
than a bound that depends on the constants of `run` alone, whatever the kernel
answers; when the receiver is created some thread or forwarder can go on without
a failing call, at most after a sleep, until `run` has reported or given up; and
then closing the pair comes to its own end.  Nobody is killed there, unless a
failing `read` had the receiver leave early.
-/
theorem cascade_terminates
    {setup : Setup}
    {seed : UInt64}
    {now : Nat}
    {labels : List Label}
    {state : State}
    (ran :
      State.run? setup (State.start setup seed now) labels = some state) :
    labels.countP Label.acts ≤ stepBound setup ∧
      ((∀ label ∈ labels, label ≠ .createFails) →
        (∀ rc, state.main ≠ .ending rc) → Moves setup state) ∧
      (∀ rc, state.main = .ending rc →
        Closes state.pair (stepBound setup + 5)) ∧
      (Transition.EachStep (State.step? setup) State.ReadsOn
          (State.start setup seed now) labels →
        ∀ rc, state.main = .ending rc →
          ∀ later final,
            (∀ label ∈ later, label.ofClosing = true) →
            state.pair.closingFrom.run? later = some final →
            final.pair.killed = false) := by
  have closes := (closable_of_run ran).closes
  exact ⟨countP_acts_le ran, moves_of_run ran, fun _ _ => closes,
    fun readsOn _ ending => closes.alive (quiet_of_run ran readsOn ending)⟩

/-- How the pair is closed after `lossyRun`. -/
def lossyClosing : List CloseLabel :=
  [.close, .close, .step (.readEof .b), .close]

/--
While the receiver sleeps in its sync the main thread waits to join it, and
after the report both forwarders are joined.
-/
theorem cascade_terminates_syncing :
    (∃ state,
      State.run? cascade (State.start cascade 7 7) (lossyRun.take 69) =
          some state ∧
        state.main = .joining ∧ state.receiver = .sleeping 50000007 ∧
        (lossyRun.take 69).countP Label.acts ≤ stepBound cascade ∧
        Moves cascade state) ∧
      ∃ state final,
        State.run? cascade (State.start cascade 7 7) lossyRun =
            some state ∧
          state.main = .ending 0 ∧
          state.pair.closingFrom.run? lossyClosing = some final ∧
          final.closing = .joinedBoth ∧ final.pair.killed = false := by
  refine ⟨?_, ?_⟩
  · have kind : ∀ label ∈ lossyRun.take 69, label ≠ .createFails := by
      decide +kernel
    have enabled :
        (State.run? cascade (State.start cascade 7 7)
            (lossyRun.take 69)).map
            (fun state => (state.main, state.receiver)) =
          some (.joining, .sleeping 50000007) := by
      decide +kernel
    obtain ⟨state, ran, reached⟩ := Option.map_eq_some_iff.mp enabled
    obtain ⟨joining, sleeping⟩ := Prod.mk.inj reached
    obtain ⟨bounded, moves, _⟩ := cascade_terminates ran
    exact ⟨state, ran, joining, sleeping, bounded,
      moves kind (by simp [joining])⟩
  · have readsOn :
        Transition.EachStep (State.step? cascade) State.ReadsOn
          (State.start cascade 7 7) lossyRun := by
      decide +kernel
    have closed :
        ((State.run? cascade (State.start cascade 7 7) lossyRun).bind
            fun state =>
              (state.pair.closingFrom.run? lossyClosing).map
                fun final => (state.main, final.closing)) =
          some (.ending 0, .joinedBoth) := by
      decide +kernel
    obtain ⟨state, ran, rest⟩ := Option.bind_eq_some_iff.mp closed
    obtain ⟨final, closing, reached⟩ := Option.map_eq_some_iff.mp rest
    obtain ⟨ending, joined⟩ := Prod.mk.inj reached
    obtain ⟨_, _, _, spared⟩ := cascade_terminates ran
    exact ⟨state, final, ran, ending, closing, joined,
      spared readsOn 0 ending lossyClosing final (by decide) closing⟩

end FailurePlayground.CascadingFailure
