import FailurePlayground.CascadeRun

namespace FailurePlayground.CascadingFailure

/-!
# The loss of the cascade

The kernel moves whole chunks and no call on the pair fails.  What the receiver
gets is then decided by the seed alone: the same chunks are lost in every
interleaving, however the threads and the syncs are scheduled.
-/

open ChaosNet

/-- The main thread is in its loop. -/
def MainStage.sends : MainStage → Bool
  | .sending _ => true
  | .pairing | .opening | .settingDelay | .announcing | .creating
  | .readingT0 | .closing | .joining | .timing | .reporting _
  | .ending _ => false

/-- The steps of a run in which whole chunks move and no call fails. -/
def Whole (width : Nat) (state : State) : Label → Prop
  | .main (some count) => state.main.sends = true → width ∣ count
  | .main none | .createFails | .tick _ => True
  | .receiver answer => answer = none → state.receiver ≠ .reading
  | .forward label =>
      label.movesWhole width state.pair = true ∧
        label ≠ .readFails .a ∧ label ≠ .writeFails .a

instance (width : Nat) (state : State) (label : Label) :
    Decidable (Whole width state label) :=
  match label with
  | .main (some _) => inferInstanceAs (Decidable (_ → _))
  | .main none | .createFails | .tick _ => inferInstanceAs (Decidable True)
  | .receiver _ => inferInstanceAs (Decidable (_ → _))
  | .forward _ => inferInstanceAs (Decidable (_ ∧ _))

/-- The chunks sent so far, as calls of the sender. -/
def sentChunks (width count : Nat) : List ChaosNet.Label :=
  List.replicate count (.send .a (chunk width))

/-- What the loss test keeps of some chunks. -/
def keptChunks
    (setup : Setup)
    (seed : UInt64)
    (width count : Nat) : List (List UInt8) :=
  referenceFilter setup.knobs (Pair.rngOf seed .a)
    (List.replicate count (chunk width))

/-- The pair follows the reference filter. -/
structure Seeded
    (setup : Setup)
    (seed : UInt64)
    (width : Nat)
    (state : State) : Prop where
  filtered : ∃ count,
    state.bytesSent = count * width ∧
      FilteredAt .a setup.knobs width (Pair.rngOf seed .a)
        (sentChunks width count) state.pair
  reachedEof : ReachedEof .a state.pair
  drained : state.receiver = .returned →
    (state.pair.direction .a).ended = true ∧
      (state.pair.direction .a).arrived = []

section Steps

variable
  {setup : Setup}
  {seed : UInt64}
  {width : Nat}
  {state next : State}

/-- A step that leaves the pair alone keeps it on the filter. -/
theorem Seeded.of_pair
    (seeded : Seeded setup seed width state)
    (pair : next.pair = state.pair)
    (bytesSent : next.bytesSent = state.bytesSent)
    (receiver : next.receiver = .returned → state.receiver = .returned) :
    Seeded setup seed width next where
  filtered := by
    rw [bytesSent, pair]
    exact seeded.filtered
  reachedEof := by
    rw [pair]
    exact seeded.reachedEof
  drained := by
    intro returned
    rw [pair]
    exact seeded.drained (receiver returned)

/-- A step of the pair that sends nothing keeps it on the filter. -/
theorem Seeded.of_quiet
    (positive : 0 < width)
    (chunked : setup.knobs.maxChunkBytes = width)
    (seeded : Seeded setup seed width state)
    {label : ChaosNet.Label}
    (stepped : state.pair.step? label = some next.pair)
    (whole : WholeMessages .a width state.pair label)
    (silent : ∀ bytes, label ≠ .send .a bytes)
    (readsOn : label ≠ .readFails .a)
    (writesOn : label ≠ .writeFails .a)
    (bytesSent : next.bytesSent = state.bytesSent)
    (drained : next.receiver = .returned →
      (next.pair.direction .a).ended = true ∧
        (next.pair.direction .a).arrived = []) :
    Seeded setup seed width next where
  filtered := by
    obtain ⟨count, sent, filtered⟩ := seeded.filtered
    exact ⟨count, bytesSent.trans sent,
      filtered.quiet positive chunked whole silent stepped⟩
  reachedEof := seeded.reachedEof.step readsOn writesOn stepped
  drained := drained

/-- Every step of the receiver keeps the pair on the filter. -/
theorem Seeded.receiverMove
    (positive : 0 < width)
    (chunked : setup.knobs.maxChunkBytes = width)
    (seeded : Seeded setup seed width state)
    {answer : Option Nat}
    (whole : Whole width state (.receiver answer))
    (move : ReceiverMove state answer next) :
    Seeded setup seed width next := by
  cases move with
  | fails stage =>
      exact absurd stage (whole rfl)
  | readsEof stage empty ended =>
      exact {
        filtered := seeded.filtered
        reachedEof := seeded.reachedEof
        drained := fun _ => ⟨ended, empty⟩
      }
  | reads count pair stage small received =>
      exact seeded.of_quiet positive chunked received trivial
        (by simp) (by simp) (by simp) rfl (by simp)
  | writes answer buf stage | sleeps answer stage slow
  | goesOn answer stage fast | wakes answer wakeAt stage due
  | counts answer stage =>
      exact seeded.of_pair rfl rfl (by simp)

/-- What a step of the main thread does to what the bytes pass through. -/
inductive MainEffect
    (setup : Setup)
    (state : State)
    (answer : Option Nat)
    (next : State) : Prop where
  | quiet
      (pair : next.pair = state.pair)
      (bytesSent : next.bytesSent = state.bytesSent)
      (receiver :
        next.receiver = state.receiver ∨
          state.main = .creating ∧ next.receiver = .reading)
  | sends
      (count : Nat)
      (sends : state.main.sends = true)
      (answered : answer = some count)
      (small : count ≤ setup.chunkBytes)
      (taken : state.pair.step? (.send .a (chunk count)) = some next.pair)
      (bytesSent : next.bytesSent = state.bytesSent + count)
      (receiver : next.receiver = state.receiver)
  | closes
      (taken : state.pair.step? (.closeUser .a) = some next.pair)
      (bytesSent : next.bytesSent = state.bytesSent)
      (receiver : next.receiver = state.receiver)

/-- Every step of the main thread has one of these effects. -/
theorem mainEffect_of_mainStep?
    {answer : Option Nat}
    (taken : state.mainStep? setup answer = some next) :
    MainEffect setup state answer next := by
  unfold State.mainStep? at taken
  cases stage : state.main with
  | pairing =>
      simp only [stage] at taken
      split at taken
      all_goals
        simp only [Option.some.injEq] at taken
        subst taken
        exact .quiet rfl rfl (Or.inl rfl)
  | opening =>
      simp only [stage] at taken
      split at taken
      all_goals
        simp only [Option.some.injEq] at taken
        subst taken
        exact .quiet rfl rfl (Or.inl rfl)
  | settingDelay | announcing | readingT0 | timing | reporting dt =>
      simp only [stage, Option.some.injEq] at taken
      subst taken
      exact .quiet rfl rfl (Or.inl rfl)
  | creating =>
      simp only [stage, Option.some.injEq] at taken
      subst taken
      exact .quiet rfl rfl (Or.inr ⟨stage, rfl⟩)
  | sending i =>
      simp only [stage] at taken
      split at taken
      · simp only [Option.some.injEq] at taken
        subst taken
        exact .quiet rfl rfl (Or.inl rfl)
      · rename_i count
        simp only [Option.ite_none_right_eq_some,
          Option.map_eq_some_iff] at taken
        obtain ⟨small, pair, sends, rfl⟩ := taken
        exact .sends count (by rw [stage]; rfl) rfl small sends rfl rfl
  | closing =>
      simp only [stage, Option.map_eq_some_iff] at taken
      obtain ⟨pair, closes, rfl⟩ := taken
      exact .closes closes rfl rfl
  | joining =>
      simp only [stage, Option.ite_none_right_eq_some,
        Option.some.injEq] at taken
      obtain ⟨_, rfl⟩ := taken
      exact .quiet rfl rfl (Or.inl rfl)
  | ending rc =>
      simp [stage] at taken

/-- Every step of the main thread keeps the pair on the filter. -/
theorem Seeded.mainStep
    (positive : 0 < width)
    (chunked : setup.knobs.maxChunkBytes = width)
    (seeded : Seeded setup seed width state)
    {answer : Option Nat}
    (whole : Whole width state (.main answer))
    (taken : state.mainStep? setup answer = some next) :
    Seeded setup seed width next := by
  cases mainEffect_of_mainStep? taken with
  | quiet pair bytesSent receiver =>
      refine seeded.of_pair pair bytesSent fun returned => ?_
      rcases receiver with same | ⟨_, reading⟩
      · exact same ▸ returned
      · rw [reading] at returned
        cases returned
  | sends count sends answered small sent bytesSent receiver =>
      subst answered
      obtain ⟨more, rfl⟩ := whole sends
      obtain ⟨earlier, sentBefore, filtered⟩ := seeded.filtered
      have batch :
          chunk (width * more) =
            (List.replicate more (chunk width)).flatten := by
        simp only [chunk, List.flatten_replicate_replicate, Nat.mul_comm]
      have reached :=
        seeded.reachedEof.step (by simp) (by simp) sent
      have sentBatch :=
        filtered.sendsBatch (List.length_replicate ..) (batch ▸ sent)
      obtain ⟨_, after⟩ := Pair.step?_send sent
      exact {
        filtered := by
          refine ⟨earlier + more, ?_, sentBatch⟩
          rw [bytesSent, sentBefore, Nat.add_mul, Nat.mul_comm more]
        reachedEof := reached
        drained := by
          intro returned
          rw [after, Pair.direction_setDirection_same]
          exact seeded.drained (receiver ▸ returned)
      }
  | closes closes bytesSent receiver =>
      refine seeded.of_quiet positive chunked closes trivial (by simp)
        (by simp) (by simp) bytesSent fun returned => ?_
      rw [Pair.step?_closeUser closes]
      exact seeded.drained (receiver ▸ returned)

/-- Every step of a run that moves whole chunks keeps the pair on the filter. -/
theorem Seeded.step
    (positive : 0 < width)
    (chunked : setup.knobs.maxChunkBytes = width)
    {label : Label}
    (sound : Sound setup state)
    (seeded : Seeded setup seed width state)
    (whole : Whole width state label)
    (taken : state.step? setup label = some next) :
    Seeded setup seed width next := by
  cases label with
  | main answer =>
      exact seeded.mainStep positive chunked whole taken
  | receiver answer =>
      exact seeded.receiverMove positive chunked whole
        (receiverMove_of_receiverStep? taken)
  | forward label =>
      simp only [State.step?, Option.ite_none_right_eq_some,
        Option.map_eq_some_iff] at taken
      obtain ⟨⟨_, forwards⟩, pair, stepped, rfl⟩ := taken
      obtain ⟨moves, readsOn, writesOn⟩ := whole
      have silent : ∀ bytes, label ≠ .send .a bytes := by
        rintro bytes rfl
        exact absurd forwards (by simp [ChaosNet.Label.forwards])
      obtain ⟨x, own⟩ : ∃ x, label.forwards x = true :=
        forwards.elim (fun own => ⟨.a, own⟩) fun own => ⟨.b, own⟩
      refine seeded.of_quiet positive chunked stepped
        (wholeMessages_of_forwards own moves readsOn writesOn) silent
        readsOn writesOn rfl fun returned => ?_
      obtain ⟨ended, empty⟩ := seeded.drained returned
      have same := elsewhere_of_returned
        (sound.streamed.sound.ended.mp ended) own stepped
      simp only [same]
      exact ⟨ended, empty⟩
  | createFails =>
      simp only [State.step?, Option.ite_none_right_eq_some,
        Option.some.injEq] at taken
      obtain ⟨_, rfl⟩ := taken
      exact seeded.of_pair rfl rfl fun returned => returned
  | tick ns =>
      simp only [State.step?, Option.some.injEq] at taken
      subst taken
      exact seeded.of_pair rfl rfl fun returned => returned

/-- Every such run keeps the pair on the filter. -/
theorem seeded_of_run
    {now : Nat}
    {labels : List Label}
    (positive : 0 < width)
    (chunked : setup.knobs.maxChunkBytes = width)
    (ran :
      State.run? setup (State.start setup seed now) labels = some state)
    (whole :
      Transition.EachStep (State.step? setup) (Whole width)
        (State.start setup seed now) labels) :
    Sound setup state ∧ Seeded setup seed width state := by
  have kept :
      ∀ {before : State} {label : Label} {after : State},
        Sound setup before ∧ Seeded setup seed width before →
        Whole width before label →
        before.step? setup label = some after →
        Sound setup after ∧ Seeded setup seed width after :=
    fun holds wholeStep taken =>
      ⟨holds.1.step taken,
        holds.2.step positive chunked holds.1 wholeStep taken⟩
  refine Transition.run?_invariant_of_eachStep kept ran whole
    ⟨sound_start setup seed now, ?_⟩
  exact {
    filtered := ⟨0, (Nat.zero_mul width).symm, rfl, [], [], rfl, {
      wide := fun _ member => absurd member List.not_mem_nil
      delivered := rfl
      pending := rfl
      whole := Nat.dvd_zero width
      inStep := rfl
    }⟩
    reachedEof := fun returned => by
      simp [State.start, Pair.start] at returned
    drained := fun returned => by simp [State.start] at returned
  }

/-- When the receiver has returned it has got all that the filter keeps. -/
theorem Seeded.received
    (positive : 0 < width)
    (sound : Sound setup state)
    (seeded : Seeded setup seed width state)
    (returned : state.receiver = .returned) :
    (state.pair.direction .a).received =
      (keptChunks setup seed width
        (state.bytesSent / width)).flatten := by
  obtain ⟨count, sent, filtered⟩ := seeded.filtered
  obtain ⟨ended, empty⟩ := seeded.drained returned
  have forward := sound.streamed.sound.ended.mp ended
  have caughtUp : (state.pair.direction .a).caughtUp :=
    ⟨by rw [forward]; rfl, (seeded.reachedEof forward).2⟩
  have delivered := (filtered.delivered positive).2 caughtUp
  rw [Direction.delivered, empty, List.append_nil, sentChunks,
    sentFrom_replicate] at delivered
  rw [delivered, keptChunks, sent, Nat.mul_div_cancel count positive]

end Steps

/-- Every chunk that is kept has its full width. -/
theorem length_flatten_keptChunks
    (setup : Setup)
    (seed : UInt64)
    (width count : Nat) :
    (keptChunks setup seed width count).flatten.length =
      width * (keptChunks setup seed width count).length := by
  have wide : ∀ kept ∈ keptChunks setup seed width count,
      kept.length = width := by
    intro kept member
    have sent := (referenceFilter_sublist _ _ _).subset member
    rw [List.eq_of_mem_replicate sent, chunk, List.length_replicate]
  rw [List.length_flatten, List.map_congr_left wide, List.map_const',
    List.sum_replicate, smul_eq_mul, Nat.mul_comm]

/--
When whole chunks move and no call fails, the seed alone decides which bytes
are lost: a run that has reported has received exactly the chunks that the
reference filter keeps of those sent, so two runs that sent equally much
report the same loss, however they interleave.
-/
theorem cascade_loss_seeded
    {setup : Setup}
    {seed : UInt64}
    {width now : Nat}
    {labels : List Label}
    {state : State}
    (positive : 0 < width)
    (chunked : setup.knobs.maxChunkBytes = width)
    (ran :
      State.run? setup (State.start setup seed now) labels = some state)
    (whole :
      Transition.EachStep (State.step? setup) (Whole width)
        (State.start setup seed now) labels)
    (ended : state.main = .ending 0) :
    let kept := keptChunks setup seed width (state.bytesSent / width)
    width ∣ state.bytesSent ∧
      (state.pair.direction .a).received = kept.flatten ∧
      state.bytesReceived = width * kept.length ∧
      ∀ now' labels' state',
        State.run? setup (State.start setup seed now') labels' =
            some state' →
        Transition.EachStep (State.step? setup) (Whole width)
          (State.start setup seed now') labels' →
        state'.main = .ending 0 →
        state'.bytesSent = state.bytesSent →
        state'.bytesReceived = state.bytesReceived := by
  have counts {seed : UInt64} {now : Nat} {labels : List Label}
      {state : State}
      (ran :
        State.run? setup (State.start setup seed now) labels = some state)
      (whole :
        Transition.EachStep (State.step? setup) (Whole width)
          (State.start setup seed now) labels)
      (ended : state.main = .ending 0) :
      width ∣ state.bytesSent ∧
        (state.pair.direction .a).received =
          (keptChunks setup seed width
            (state.bytesSent / width)).flatten ∧
        state.bytesReceived =
          width *
            (keptChunks setup seed width
              (state.bytesSent / width)).length := by
    obtain ⟨sound, seeded⟩ := seeded_of_run positive chunked ran whole
    have received := seeded.received positive sound
      (sound.phased.joined (by rw [ended]; rfl))
    obtain ⟨count, sent, _⟩ := seeded.filtered
    refine ⟨⟨count, sent.trans (Nat.mul_comm _ _)⟩, received, ?_⟩
    rw [← sound.streamed.received, received, length_flatten_keptChunks]
  obtain ⟨divides, received, amount⟩ := counts ran whole ended
  refine ⟨divides, received, amount, ?_⟩
  intro now' labels' state' ran' whole' ended' same
  obtain ⟨_, _, amount'⟩ := counts ran' whole' ended'
  rw [amount', amount, same]

/-- With seed 7 two of the four chunks are lost, in this run as in any other. -/
theorem cascade_loss_seeded_lossy :
    ∃ state,
      State.run? cascade (State.start cascade 7 7) lossyRun = some state ∧
        state.main = .ending 0 ∧
        state.bytesSent = 256 ∧
        state.bytesReceived =
          64 *
            (keptChunks cascade 7 64 (state.bytesSent / 64)).length := by
  have finished :
      (State.run? cascade (State.start cascade 7 7) lossyRun).map
          (fun state => (state.main, state.bytesSent)) =
        some (.ending 0, 256) := by
    decide +kernel
  have whole :
      Transition.EachStep (State.step? cascade) (Whole 64)
        (State.start cascade 7 7) lossyRun := by
    decide +kernel
  obtain ⟨state, ran, reached⟩ := Option.map_eq_some_iff.mp finished
  obtain ⟨ended, sent⟩ := Prod.mk.inj reached
  obtain ⟨_, _, amount, _⟩ :=
    cascade_loss_seeded (by decide) rfl ran whole ended
  exact ⟨state, ran, ended, sent, amount⟩

end FailurePlayground.CascadingFailure
