import FailurePlayground.NetClose
import FailurePlayground.NetLoss

namespace FailurePlayground.ChaosNet

/-!
# What closing a pair comes to

When nobody uses a pair any more, only its forwarders and `chaos_net_close` take
steps.  Both forwarders return and are joined, unless one of them writes to the
closed end and `SIGPIPE` ends the process.
-/

section Flow

variable
  {x : End}
  {pair next : Pair}
  {label : Label}

/-- What the bytes of a direction still have to go through. -/
def flow (direction : Direction) : Nat :=
  6 * direction.work + 5 * direction.arrived.length

/-- A forwarder's step brings its bytes on. -/
theorem flow_lt_of_forwards
    (sound : (pair.direction x).Sound)
    (stepped : pair.step? label = some next)
    (forwards : label.forwards x = true) :
    flow (next.direction x) < flow (pair.direction x) := by
  have lower := forwards_lowers sound stepped forwards
  suffices kept :
      (next.direction x).work + (next.direction x).arrived.length ≤
        (pair.direction x).work + (pair.direction x).arrived.length by
    unfold flow
    omega
  cases label with
  | write y count =>
      obtain rfl : y = x := beq_iff_eq.mp forwards
      obtain ⟨k, buf, off, size, here, _, positive, within, rfl⟩ :=
        Pair.step?_write stepped
      have inside := sound.forward
      simp only [here, Forward.Sound] at inside
      have chunk := thisChunk_le k buf off
      have bound := work_enterLoop k buf (off + count)
      rw [Pair.direction_setDirection_same]
      simp only [Direction.work, Direction.wroteChunk, here,
        List.length_append, List.length_take, List.length_drop]
      have before :
          (Forward.atWrite k buf off size).work =
            2 * (buf.length - off) := rfl
      omega
  | read y count =>
      obtain rfl : y = x := beq_iff_eq.mp forwards
      obtain ⟨_, _, _, _, rfl⟩ := Pair.step?_read stepped
      rw [Pair.direction_setDirection_same] at lower ⊢
      simp only at lower ⊢
      omega
  | readEof y =>
      obtain rfl : y = x := beq_iff_eq.mp forwards
      obtain ⟨_, _, _, rfl⟩ := Pair.step?_readEof stepped
      rw [Pair.direction_setDirection_same] at lower ⊢
      simp only [Direction.finish] at lower ⊢
      omega
  | readFails y =>
      obtain rfl : y = x := beq_iff_eq.mp forwards
      obtain ⟨_, rfl⟩ := Pair.step?_readFails stepped
      rw [Pair.direction_setDirection_same] at lower ⊢
      simp only [Direction.finish] at lower ⊢
      omega
  | snapshot y =>
      obtain rfl : y = x := beq_iff_eq.mp forwards
      obtain ⟨_, _, rfl⟩ := Pair.step?_snapshot stepped
      rw [Pair.direction_setDirection_same] at lower ⊢
      simp only at lower ⊢
      omega
  | decide y =>
      obtain rfl : y = x := beq_iff_eq.mp forwards
      obtain ⟨k, buf, off, _, rfl⟩ := Pair.step?_decide stepped
      have same :
          ((pair.direction y).decideChunk k buf off).arrived =
            (pair.direction y).arrived := by
        simp only [Direction.decideChunk]
        split <;> rfl
      rw [Pair.direction_setDirection_same] at lower ⊢
      rw [same]
      omega
  | writeFails y =>
      obtain rfl : y = x := beq_iff_eq.mp forwards
      obtain ⟨_, _, _, _, _, rfl⟩ := Pair.step?_writeFails stepped
      rw [Pair.direction_setDirection_same] at lower ⊢
      simp only [Direction.finish] at lower ⊢
      omega
  | send y bytes | receive y count | closeUser y | setKnobs k
  | writeBroken y =>
      exact absurd forwards Bool.false_ne_true

end Flow

section Closing

/-- A step of a forwarder, which may be its last, or of `chaos_net_close`. -/
def CloseLabel.ofClosing : CloseLabel → Bool
  | .close => true
  | .step (.writeBroken _) => true
  | .step label => label.forwards .a || label.forwards .b

/-- The pair as `chaos_net_close` finds it; `fd_a` may have been closed. -/
def Pair.closingFrom (pair : Pair) : ClosingPair where
  pair := pair
  closing := if pair.closed .a then .closedA else .notCalled

/-- What `chaos_net_close` has still to do. -/
def Closing.stepsLeft : Closing → Nat
  | .notCalled => 4
  | .closedA => 3
  | .closedBoth => 2
  | .joinedA => 1
  | .joinedBoth => 0

/-- What is left before `chaos_net_close` returns or the process dies. -/
def ClosingPair.left (state : ClosingPair) : Nat :=
  (state.pair.direction .a).work + (state.pair.direction .b).work +
    state.closing.stepsLeft + if state.pair.killed then 0 else 1

variable
  {pair after : Pair}
  {inner : Label}
  {state next : ClosingPair}
  {label : CloseLabel}

/-- A forwarder that writes to a closed end, or one of the two. -/
theorem forwards_of_ofClosing
    (own : (CloseLabel.step inner).ofClosing = true) :
    (∃ x, inner = .writeBroken x) ∨
      inner.forwards .a = true ∨ inner.forwards .b = true := by
  cases inner with
  | writeBroken x =>
      exact Or.inl ⟨x, rfl⟩
  | _ =>
      exact Or.inr ((Bool.or_eq_true _ _).mp own)

/-- The steps of a forwarder are among those of closing. -/
theorem ofClosing_of_forwards
    {x : End}
    (forwards : inner.forwards x = true) :
    (CloseLabel.step inner).ofClosing = true := by
  cases inner with
  | writeBroken y =>
      rfl
  | _ =>
      cases x with
      | a | b =>
          simp [CloseLabel.ofClosing, forwards]

/-- A step of either forwarder leaves less to do. -/
theorem works_lt
    (sound : ∀ x, (pair.direction x).Sound)
    (forwards : inner.forwards .a = true ∨ inner.forwards .b = true)
    (stepped : pair.step? inner = some after) :
    (after.direction .a).work + (after.direction .b).work <
      (pair.direction .a).work + (pair.direction .b).work := by
  rcases forwards with own | own
  · have lower := forwards_lowers (sound .a) stepped own
    rw [direction_of_forwards (show End.b ≠ .a by simp) own stepped]
    omega
  · have lower := forwards_lowers (sound .b) stepped own
    rw [direction_of_forwards (show End.a ≠ .b by simp) own stepped]
    omega

/-- Neither forwarder's own steps kill the process. -/
theorem alive_of_forwards
    (forwards : inner.forwards .a = true ∨ inner.forwards .b = true)
    (stepped : pair.step? inner = some after) :
    after.killed = false := by
  refine Pair.killed_of_not_writeBroken stepped ?_
  rintro x rfl
  exact forwards.elim Bool.noConfusion Bool.noConfusion

/-- Every step leaves less to do. -/
theorem left_lt
    (sound : ∀ x, (state.pair.direction x).Sound)
    (own : label.ofClosing = true)
    (stepped : state.step? label = some next) :
    next.left < state.left := by
  cases label with
  | step inner =>
      obtain ⟨after, taken, rfl⟩ := step?_step stepped
      have alive := (Pair.step?_alive taken).1
      rcases forwards_of_ofClosing own with ⟨x, rfl⟩ | forwards
      · obtain ⟨_, _, _, _, _, _, rfl⟩ := Pair.step?_writeBroken taken
        simp [ClosingPair.left, alive]
      · have lower := works_lt sound forwards taken
        simp only [ClosingPair.left, alive, alive_of_forwards forwards taken]
        omega
  | close =>
      rcases step?_close stepped with closes | joinsA | joinsB
      · obtain ⟨y, after, now, taken, rfl, nextA, nextB⟩ := closes
        have same := Pair.step?_closeUser taken
        have fewer : next.closing.stepsLeft < state.closing.stepsLeft := by
          cases closing : state.closing with
          | notCalled =>
              rw [closing] at now
              rw [nextA (Option.some.inj now).symm]
              decide
          | closedA =>
              rw [closing] at now
              rw [nextB (Option.some.inj now).symm]
              decide
          | closedBoth | joinedA | joinedBoth =>
              rw [closing] at now
              cases now
        rw [ClosingPair.left, ClosingPair.left, same]
        simp only
        omega
      · obtain ⟨here, _, rfl⟩ := joinsA
        simp [ClosingPair.left, here, Closing.stepsLeft]
      · obtain ⟨here, _, rfl⟩ := joinsB
        simp [ClosingPair.left, here, Closing.stepsLeft]

/-- Once its user end is closed a forwarder can go on without a failure. -/
theorem forwards_succeeds
    {x : End}
    (alive : pair.killed = false)
    (sound : (pair.direction x).Sound)
    (farOpen :
      (pair.direction x).forward.writing = true →
        pair.closed x.other = false)
    (closed : pair.closed x = true)
    (running : (pair.direction x).forward ≠ .returned) :
    ∃ inner : Label,
      inner.forwards x = true ∧ inner ≠ .readFails x ∧
        inner ≠ .writeFails x ∧ (pair.step? inner).isSome = true := by
  have forward := sound.forward
  cases here : (pair.direction x).forward with
  | reading =>
      cases source : (pair.direction x).source with
      | nil =>
          exact ⟨.readEof x, beq_self_eq_true x, by simp, by simp,
            by simp [Pair.step?, Pair.stepAlive?, alive, here, source,
              closed]⟩
      | cons byte rest =>
          exact ⟨.read x 1, beq_self_eq_true x, by simp, by simp,
            by simp [Pair.step?, Pair.stepAlive?, alive, here, source,
              bufSize]⟩
  | filled buf =>
      exact ⟨.snapshot x, beq_self_eq_true x, by simp, by simp,
        by simp [Pair.step?, Pair.stepAlive?, alive, here]⟩
  | atLoss k buf off =>
      exact ⟨.decide x, beq_self_eq_true x, by simp, by simp,
        by simp [Pair.step?, Pair.stepAlive?, alive, here]⟩
  | atWrite k buf off size =>
      simp only [here, Forward.Sound] at forward
      have stillOpen := farOpen (by rw [here]; rfl)
      have one : 1 ≤ size := forward.2 ▸ thisChunk_pos k forward.1
      exact ⟨.write x 1, beq_self_eq_true x, by simp, by simp,
        by simp [Pair.step?, Pair.stepAlive?, alive, here, stillOpen,
          one]⟩
  | returned =>
      exact absurd here running

/-- A step of closing whose call does not fail. -/
def CloseLabel.Succeeds (label : CloseLabel) : Prop :=
  label.ofClosing = true ∧
    ∀ x, label ≠ .step (.readFails x) ∧ label ≠ .step (.writeFails x)

/-- A forwarder whose user end is closed goes on, if only to be killed. -/
theorem forwarder_goes_on
    {x : End}
    (alive : pair.killed = false)
    (sound : (pair.direction x).Sound)
    (closed : pair.closed x = true)
    (running : (pair.direction x).forward ≠ .returned) :
    ∃ inner : Label,
      (CloseLabel.step inner).Succeeds ∧ (pair.step? inner).isSome := by
  by_cases broken :
      (pair.direction x).forward.writing = true ∧
        pair.closed x.other = true
  · obtain ⟨writing, far⟩ := broken
    refine ⟨.writeBroken x, ⟨rfl, by simp⟩, ?_⟩
    cases here : (pair.direction x).forward with
    | atWrite k buf off size =>
        simp [Pair.step?, Pair.stepAlive?, alive, here, far]
    | reading | filled buf | atLoss k buf off | returned =>
        rw [here] at writing
        exact absurd writing Bool.false_ne_true
  · obtain ⟨inner, forwards, readsOn, writesOn, enabled⟩ :=
      forwards_succeeds alive sound
        (fun writing => Bool.eq_false_of_not_eq_true
          fun far => broken ⟨writing, far⟩) closed running
    refine ⟨inner, ⟨ofClosing_of_forwards forwards, fun y => ⟨?_, ?_⟩⟩,
      enabled⟩
    · rintro ⟨⟩
      obtain rfl : y = x := beq_iff_eq.mp forwards
      exact readsOn rfl
    · rintro ⟨⟩
      obtain rfl : y = x := beq_iff_eq.mp forwards
      exact writesOn rfl

/-- So it does beside `chaos_net_close`. -/
theorem closing_forwards
    (asFar : AsFar state)
    (past : state.closing.closes? = none)
    (alive : state.pair.killed = false)
    {x : End}
    (running : (state.pair.direction x).forward ≠ .returned) :
    ∃ label : CloseLabel, label.Succeeds ∧ (state.step? label).isSome := by
  obtain ⟨inner, succeeds, enabled⟩ :=
    forwarder_goes_on alive (asFar.sound x) (asFar.both past x) running
  exact ⟨.step inner, succeeds, by simpa [ClosingPair.step?] using enabled⟩

/-- So `chaos_net_close` comes to its end, or the process to its own. -/
theorem closing_goes_on
    (asFar : AsFar state)
    (alive : state.pair.killed = false)
    (waiting : state.closing ≠ .joinedBoth) :
    ∃ label : CloseLabel, label.Succeeds ∧ (state.step? label).isSome := by
  have closes : CloseLabel.close.Succeeds := ⟨rfl, by simp⟩
  cases closing : state.closing with
  | notCalled | closedA =>
      exact ⟨.close, closes, by
        simp [ClosingPair.step?, closing, Pair.step?, Pair.stepAlive?,
          alive]⟩
  | closedBoth =>
      by_cases returned : (state.pair.direction .a).forward = .returned
      · exact ⟨.close, closes, by
          simp [ClosingPair.step?, closing, alive, returned]⟩
      · exact closing_forwards asFar (by rw [closing]; rfl) alive returned
  | joinedA =>
      by_cases returned : (state.pair.direction .b).forward = .returned
      · exact ⟨.close, closes, by
          simp [ClosingPair.step?, closing, alive, returned]⟩
      · exact closing_forwards asFar (by rw [closing]; rfl) alive returned
  | joinedBoth =>
      exact absurd closing waiting

end Closing

section Quiet

variable
  {pair after : Pair}
  {inner : Label}
  {x : End}

/-- A forwarder that has nothing to do but to return, if it has not. -/
def Direction.Idle (direction : Direction) : Prop :=
  direction.forward = .returned ∨
    direction.forward = .reading ∧ direction.source = []

/-- Neither forwarder has anything to write. -/
structure Quiet (pair : Pair) : Prop where
  alive : pair.killed = false
  idle : ∀ x, (pair.direction x).Idle

/-- An idle forwarder stays idle. -/
theorem idle_forwards
    (idle : (pair.direction x).Idle)
    (own : inner.forwards x = true)
    (stepped : pair.step? inner = some after) :
    (after.direction x).Idle := by
  rcases idle with returned | ⟨reading, empty⟩
  · rw [elsewhere_of_returned returned own stepped]
    exact Or.inl returned
  · cases inner with
    | read y count =>
        obtain rfl : y = x := beq_iff_eq.mp own
        obtain ⟨_, positive, _, available, _⟩ := Pair.step?_read stepped
        rw [empty] at available
        exact absurd (positive.trans_le available) (Nat.lt_irrefl 0)
    | readEof y =>
        obtain rfl : y = x := beq_iff_eq.mp own
        obtain ⟨_, _, _, rfl⟩ := Pair.step?_readEof stepped
        rw [Pair.direction_setDirection_same]
        exact Or.inl rfl
    | readFails y =>
        obtain rfl : y = x := beq_iff_eq.mp own
        obtain ⟨_, rfl⟩ := Pair.step?_readFails stepped
        rw [Pair.direction_setDirection_same]
        exact Or.inl rfl
    | snapshot y =>
        obtain rfl : y = x := beq_iff_eq.mp own
        obtain ⟨_, here, _⟩ := Pair.step?_snapshot stepped
        exact Forward.noConfusion (reading.symm.trans here)
    | decide y =>
        obtain rfl : y = x := beq_iff_eq.mp own
        obtain ⟨_, _, _, here, _⟩ := Pair.step?_decide stepped
        exact Forward.noConfusion (reading.symm.trans here)
    | write y count =>
        obtain rfl : y = x := beq_iff_eq.mp own
        obtain ⟨_, _, _, _, here, _⟩ := Pair.step?_write stepped
        exact Forward.noConfusion (reading.symm.trans here)
    | writeFails y =>
        obtain rfl : y = x := beq_iff_eq.mp own
        obtain ⟨_, _, _, _, here, _⟩ := Pair.step?_writeFails stepped
        exact Forward.noConfusion (reading.symm.trans here)
    | send y bytes | receive y count | closeUser y | setKnobs k
    | writeBroken y =>
        exact absurd own Bool.false_ne_true

/-- What acts on the other direction keeps it so. -/
theorem idle_elsewhere
    (idle : (pair.direction x).Idle)
    (stepped : pair.step? inner = some after)
    (other : inner.direction? ≠ some x) :
    (after.direction x).Idle := by
  rw [Pair.direction_of_elsewhere stepped other]
  exact idle

/-- So does a step of either forwarder. -/
theorem idle_either
    {y : End}
    (idle : (pair.direction x).Idle)
    (own : inner.forwards y = true)
    (stepped : pair.step? inner = some after) :
    (after.direction x).Idle := by
  by_cases same : x = y
  · exact idle_forwards idle (same ▸ own) stepped
  · rw [direction_of_forwards same own stepped]
    exact idle

/-- Closing a quiet pair breaks no write. -/
theorem Quiet.step
    {state next : ClosingPair}
    {label : CloseLabel}
    (quiet : Quiet state.pair)
    (own : label.ofClosing = true)
    (stepped : state.step? label = some next) :
    Quiet next.pair := by
  obtain ⟨alive, idle⟩ := quiet
  cases label with
  | step inner =>
      obtain ⟨after, taken, rfl⟩ := step?_step stepped
      rcases forwards_of_ofClosing own with ⟨x, rfl⟩ | forwards
      · obtain ⟨_, _, _, _, here, _⟩ := Pair.step?_writeBroken taken
        rcases idle x with stands | ⟨stands, _⟩
        · exact Forward.noConfusion (stands.symm.trans here)
        · exact Forward.noConfusion (stands.symm.trans here)
      · exact ⟨alive_of_forwards forwards taken, fun x =>
          forwards.elim (idle_either (idle x) · taken)
            (idle_either (idle x) · taken)⟩
  | close =>
      rcases step?_close stepped with closes | joinsA | joinsB
      · obtain ⟨y, after, _, taken, rfl, _, _⟩ := closes
        rw [Pair.step?_closeUser taken]
        exact ⟨alive, idle⟩
      · obtain ⟨_, _, rfl⟩ := joinsA
        exact ⟨alive, idle⟩
      · obtain ⟨_, _, rfl⟩ := joinsB
        exact ⟨alive, idle⟩

end Quiet

section Closes

/-- What closing a pair that nobody else uses comes to, however it goes. -/
structure Closes (pair : Pair) (bound : Nat) : Prop where
  bounded : ∀ later final,
    (∀ label ∈ later, label.ofClosing = true) →
    pair.closingFrom.run? later = some final →
    later.length ≤ bound
  /-- Something succeeds until both forwarders are joined. -/
  goesOn : ∀ later final,
    (∀ label ∈ later, label.ofClosing = true) →
    pair.closingFrom.run? later = some final →
    final.pair.killed = false →
    final.closing ≠ .joinedBoth →
    ∃ label : CloseLabel, label.Succeeds ∧ (final.step? label).isSome
  alive : Quiet pair → ∀ later final,
    (∀ label ∈ later, label.ofClosing = true) →
    pair.closingFrom.run? later = some final →
    final.pair.killed = false

/-- Every pair whose forwarders are within their buffers can be closed. -/
theorem closes_of_sound
    {pair : Pair}
    {most : Nat}
    (sound : ∀ x, (pair.direction x).Sound)
    (work : (pair.direction .a).work + (pair.direction .b).work ≤ most) :
    Closes pair (most + 5) := by
  have asFar : AsFar pair.closingFrom := by
    refine ⟨sound, fun called => ?_, fun past => ?_⟩
    · by_contra notClosed
      exact called (if_neg notClosed)
    · simp only [Pair.closingFrom] at past
      split at past <;> cases past
  have atMost : pair.closingFrom.left ≤ most + 5 := by
    have steps : pair.closingFrom.closing.stepsLeft ≤ 4 := by
      simp only [Pair.closingFrom]
      split <;> decide
    simp only [ClosingPair.left]
    split <;> simp only [Pair.closingFrom] at steps ⊢ <;> omega
  refine ⟨fun later final own ran => ?_,
    fun later final own ran alive waiting => ?_,
    fun quiet later final own ran => ?_⟩
  · have counted := Transition.countP_productive_le CloseLabel.ofClosing
      ClosingPair.left
      (fun holds (_ : CloseLabel.ofClosing _ = true) taken =>
        AsFar.step holds taken)
      (fun holds own taken _ => left_lt holds.sound own taken)
      (fun _ own _ idle => absurd (idle.symm.trans own)
        Bool.false_ne_true)
      ran (Transition.eachStep_of_forall own _) asFar
    rw [List.countP_eq_length.mpr own] at counted
    exact counted.trans atMost
  · exact closing_goes_on (Transition.run?_invariant AsFar.step ran asFar)
      alive waiting
  · have kept : ∀ {before : ClosingPair} {label : CloseLabel}
        {after : ClosingPair},
        Quiet before.pair → label.ofClosing = true →
          before.step? label = some after → Quiet after.pair :=
      fun quiet own taken => quiet.step own taken
    exact (Transition.run?_invariant_of_eachStep kept ran
      (Transition.eachStep_of_forall own _) quiet).alive

end Closes

end FailurePlayground.ChaosNet
