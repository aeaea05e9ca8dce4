import FailurePlayground.NetProgress

namespace FailurePlayground.ChaosNet

/-!
# Closing a pair

`chaos_net_close` closes both user ends and joins both forwarders.  A
forwarder that still has bytes for a closed end writes to it, and `SIGPIPE`
kills the process; one that has none reads EOF and returns.
-/

/-- How far `chaos_net_close` has come. -/
inductive Closing where
  | notCalled
  | closedA
  | closedBoth
  | joinedA
  | joinedBoth
  deriving Repr, DecidableEq

/-- The end the next step of `chaos_net_close` closes. -/
def Closing.closes? : Closing → Option End
  | .notCalled => some .a
  | .closedA => some .b
  | .closedBoth | .joinedA | .joinedBoth => none

/-- A pair and the call that closes it. -/
structure ClosingPair where
  pair : Pair
  closing : Closing

/-- A step of the pair, or the next step of `chaos_net_close`. -/
inductive CloseLabel where
  | step (label : Label)
  | close
  deriving DecidableEq

namespace ClosingPair

/-- Execute one enabled label. -/
def step? (state : ClosingPair) : CloseLabel → Option ClosingPair
  | .step label =>
      (state.pair.step? label).map fun pair =>
        { state with pair := pair }
  | .close =>
      match state.closing with
      | .notCalled =>
          (state.pair.step? (.closeUser .a)).map fun pair =>
            { pair := pair, closing := .closedA }
      | .closedA =>
          (state.pair.step? (.closeUser .b)).map fun pair =>
            { pair := pair, closing := .closedBoth }
      | .closedBoth =>
          if state.pair.killed = false ∧
              (state.pair.direction .a).forward = .returned then
            some { state with closing := .joinedA }
          else
            none
      | .joinedA =>
          if state.pair.killed = false ∧
              (state.pair.direction .b).forward = .returned then
            some { state with closing := .joinedBoth }
          else
            none
      | .joinedBoth =>
          none

/-- Execute a finite interleaving. -/
abbrev run? : ClosingPair → List CloseLabel → Option ClosingPair :=
  Transition.run? step?

/-- A new pair that nobody is closing yet. -/
def start (k : Knobs) (seed : UInt64) : ClosingPair where
  pair := Pair.start k seed
  closing := .notCalled

end ClosingPair

section Guard

/-- The loss test drops the chunk the forwarder is about to decide on. -/
def Direction.losesNext (direction : Direction) : Bool :=
  match direction.forward with
  | .atLoss k _ _ => (lossDraw k direction.rng).1
  | _ => true

/--
An end is closed only while no forwarder waits to write to it, and a chunk
taken up for a closed end is lost.  No read or write fails for other reasons.
-/
def Pair.Spares (pair : Pair) : Label → Prop
  | .closeUser y => (pair.direction y.other).forward.writing = false
  | .decide x =>
      pair.closed x.other = true →
        (pair.direction x).losesNext = true
  | .readFails _ | .writeFails _ => False
  | _ => True

instance (pair : Pair) (label : Label) :
    Decidable (pair.Spares label) :=
  match label with
  | .closeUser _ => inferInstanceAs (Decidable (_ = false))
  | .decide _ => inferInstanceAs (Decidable (_ → _))
  | .readFails _ | .writeFails _ => inferInstanceAs (Decidable False)
  | .send _ _ | .receive _ _ | .setKnobs _ | .read _ _ | .readEof _
  | .snapshot _ | .write _ _ | .writeBroken _ =>
      inferInstanceAs (Decidable True)

/-- The same for the steps of `chaos_net_close`. -/
def ClosingPair.Spares (state : ClosingPair) : CloseLabel → Prop
  | .step label => state.pair.Spares label
  | .close =>
      ∀ y ∈ state.closing.closes?, state.pair.Spares (.closeUser y)

instance (state : ClosingPair) (label : CloseLabel) :
    Decidable (state.Spares label) :=
  match label with
  | .step label => inferInstanceAs (Decidable (state.pair.Spares label))
  | .close =>
      inferInstanceAs (Decidable (∀ y ∈ state.closing.closes?, _))

end Guard

section Invariant

/-- No forwarder stands at a write to a closed end. -/
structure Spared (pair : Pair) : Prop where
  alive : pair.killed = false
  sound : ∀ x, (pair.direction x).Sound
  reachedEof : ∀ x, ReachedEof x pair
  farOpen :
    ∀ x,
      (pair.direction x).forward.writing = true →
        pair.closed x.other = false

variable
  {pair next : Pair}
  {label : Label}

/-- Entering the inner loop writes nothing yet. -/
theorem writing_enterLoop
    (k : Knobs)
    (buf : List UInt8)
    (off : Nat) :
    (enterLoop k buf off).writing = false := by
  by_cases inside : off < buf.length
  · simp only [enterLoop, inside, ↓reduceIte, Forward.writing]
  · simp only [enterLoop, inside, ↓reduceIte, Forward.writing]

/-- A forwarder comes to its write only by keeping a chunk. -/
theorem writing_of_step
    {x : End}
    (stepped : pair.step? label = some next)
    (writing : (next.direction x).forward.writing = true) :
    (pair.direction x).forward.writing = true ∨
      (label = .decide x ∧ (pair.direction x).losesNext = false) := by
  cases forwards : label.forwards x with
  | false =>
      rw [(forward_of_not_forwards stepped forwards).1] at writing
      exact Or.inl writing
  | true =>
      cases label with
      | decide y =>
          obtain rfl : y = x := beq_iff_eq.mp forwards
          obtain ⟨k, buf, off, here, rfl⟩ := Pair.step?_decide stepped
          refine Or.inr ⟨rfl, ?_⟩
          rw [Pair.direction_setDirection_same] at writing
          simp only [Direction.losesNext, here]
          cases lost : (lossDraw k (pair.direction y).rng).1 with
          | false =>
              rfl
          | true =>
              simp only [Direction.decideChunk, lost, ↓reduceIte,
                writing_enterLoop] at writing
              exact absurd writing Bool.false_ne_true
      | read y count =>
          obtain rfl : y = x := beq_iff_eq.mp forwards
          obtain ⟨_, _, _, _, rfl⟩ := Pair.step?_read stepped
          rw [Pair.direction_setDirection_same] at writing
          exact absurd writing Bool.false_ne_true
      | readEof y =>
          obtain rfl : y = x := beq_iff_eq.mp forwards
          obtain ⟨_, _, _, rfl⟩ := Pair.step?_readEof stepped
          rw [Pair.direction_setDirection_same] at writing
          exact absurd writing Bool.false_ne_true
      | readFails y =>
          obtain rfl : y = x := beq_iff_eq.mp forwards
          obtain ⟨_, rfl⟩ := Pair.step?_readFails stepped
          rw [Pair.direction_setDirection_same] at writing
          exact absurd writing Bool.false_ne_true
      | snapshot y =>
          obtain rfl : y = x := beq_iff_eq.mp forwards
          obtain ⟨buf, _, rfl⟩ := Pair.step?_snapshot stepped
          rw [Pair.direction_setDirection_same,
            writing_enterLoop] at writing
          exact absurd writing Bool.false_ne_true
      | write y count =>
          obtain rfl : y = x := beq_iff_eq.mp forwards
          obtain ⟨k, buf, off, _, _, _, _, _, rfl⟩ :=
            Pair.step?_write stepped
          rw [Pair.direction_setDirection_same, Direction.wroteChunk,
            writing_enterLoop] at writing
          exact absurd writing Bool.false_ne_true
      | writeFails y =>
          obtain rfl : y = x := beq_iff_eq.mp forwards
          obtain ⟨_, _, _, _, _, rfl⟩ :=
            Pair.step?_writeFails stepped
          rw [Pair.direction_setDirection_same] at writing
          exact absurd writing Bool.false_ne_true
      | send y bytes | receive y count | closeUser y | setKnobs k
      | writeBroken y =>
          exact absurd forwards Bool.false_ne_true

/-- Where no forwarder stands at a closed end, no write breaks. -/
theorem Spared.writeBroken_disabled
    (spared : Spared pair)
    (x : End) :
    pair.step? (.writeBroken x) = none := by
  refine Option.eq_none_iff_forall_ne_some.mpr fun next stepped => ?_
  obtain ⟨k, buf, off, size, here, closed, _⟩ :=
    Pair.step?_writeBroken stepped
  have stillOpen := spared.farOpen x (by rw [here]; rfl)
  rw [closed] at stillOpen
  exact Bool.noConfusion stillOpen

/-- Every step that spares the closed ends keeps it so. -/
theorem Spared.step
    (spared : Spared pair)
    (guarded : pair.Spares label)
    (stepped : pair.step? label = some next) :
    Spared next := by
  have notBroken : ∀ y, label ≠ .writeBroken y := by
    intro y same
    rw [same, spared.writeBroken_disabled y] at stepped
    exact absurd stepped (by simp)
  have readsOn : ∀ x, label ≠ .readFails x := by
    intro x same
    rw [same] at guarded
    exact guarded
  have writesOn : ∀ x, label ≠ .writeFails x := by
    intro x same
    rw [same] at guarded
    exact guarded
  refine {
    alive := Pair.killed_of_not_writeBroken stepped notBroken
    sound := fun x => sound_step (spared.sound x) stepped
    reachedEof := fun x =>
      (spared.reachedEof x).step (readsOn x) (writesOn x) stepped
    farOpen := ?_
  }
  intro x writing
  have arrived := writing_of_step stepped writing
  cases Pair.change_of_step? stepped with
  | moves y direction acts whole =>
      rcases arrived with still | ⟨rfl, keeps⟩
      · exact spared.farOpen x still
      · refine Bool.eq_false_of_not_eq_true fun closed => ?_
        have loses := guarded closed
        rw [keeps] at loses
        exact Bool.noConfusion loses
  | sets k =>
      rcases arrived with still | ⟨impossible, _⟩
      · exact spared.farOpen x still
      · exact Label.noConfusion impossible
  | breaks y =>
      exact absurd rfl (notBroken y)
  | closes y =>
      rcases arrived with still | ⟨impossible, _⟩
      · -- The end closed is not the one this forwarder writes to.
        have different : x.other ≠ y := by
          rintro rfl
          have quiet :
              (pair.direction x.other.other).forward.writing = false :=
            guarded
          rw [End.other_other, still] at quiet
          exact Bool.noConfusion quiet
        exact (Function.update_of_ne different _ _).trans
          (spared.farOpen x still)
      · exact Label.noConfusion impossible

/-- A step that spares no closed end makes the next write break. -/
theorem breaks_of_not_spares
    (stepped : pair.step? label = some next)
    (careless : ¬ pair.Spares label)
    (readsOn : ∀ x, label ≠ .readFails x)
    (writesOn : ∀ x, label ≠ .writeFails x) :
    ∃ x, (next.step? (.writeBroken x)).isSome := by
  have alive := (Pair.step?_alive stepped).1
  cases label with
  | closeUser y =>
      have writing :
          (pair.direction y.other).forward.writing = true := by
        simpa [Pair.Spares] using careless
      rw [Pair.step?_closeUser stepped]
      refine ⟨y.other, ?_⟩
      cases here : (pair.direction y.other).forward with
      | atWrite k buf off size =>
          simp [Pair.step?, Pair.stepAlive?, alive, here]
      | reading | filled buf | atLoss k buf off | returned =>
          rw [here] at writing
          exact absurd writing Bool.false_ne_true
  | decide x =>
      obtain ⟨k, buf, off, here, rfl⟩ := Pair.step?_decide stepped
      simp only [Pair.Spares, Direction.losesNext, here,
        Classical.not_imp, Bool.not_eq_true] at careless
      refine ⟨x, ?_⟩
      simp [Pair.step?, Pair.stepAlive?, alive, Direction.decideChunk,
        careless.1, careless.2]
  | readFails x =>
      exact absurd rfl (readsOn x)
  | writeFails x =>
      exact absurd rfl (writesOn x)
  | _ =>
      exact absurd trivial careless

end Invariant

section Runs

/-- The steps that `chaos_net_close` waits for, and its own. -/
def CloseLabel.productive : CloseLabel → Bool
  | .step label => label.forwards .a || label.forwards .b
  | .close => true

/-- The joins still to come once both ends are closed. -/
def Closing.joins : Closing → Nat
  | .notCalled | .closedA | .closedBoth => 2
  | .joinedA => 1
  | .joinedBoth => 0

/-- A bound on the steps before `chaos_net_close` returns. -/
def ClosingPair.work (state : ClosingPair) : Nat :=
  (state.pair.direction .a).work + (state.pair.direction .b).work +
    state.closing.joins

/-- What `chaos_net_close` has closed stays closed. -/
structure AsFar (state : ClosingPair) : Prop where
  sound : ∀ x, (state.pair.direction x).Sound
  closedA : state.closing ≠ .notCalled → state.pair.closed .a = true
  closedB : state.closing.closes? = none → state.pair.closed .b = true

variable {state next : ClosingPair} {label : CloseLabel}

/-- A step of `chaos_net_close`, case by case. -/
theorem step?_close
    (stepped : state.step? .close = some next) :
    (∃ y pair,
        state.closing.closes? = some y ∧
          state.pair.step? (.closeUser y) = some pair ∧
          next.pair = pair ∧
          (y = .a → next.closing = .closedA) ∧
          (y = .b → next.closing = .closedBoth)) ∨
      (state.closing = .closedBoth ∧
        (state.pair.direction .a).forward = .returned ∧
        next = { state with closing := .joinedA }) ∨
      (state.closing = .joinedA ∧
        (state.pair.direction .b).forward = .returned ∧
        next = { state with closing := .joinedBoth }) := by
  simp only [ClosingPair.step?] at stepped
  cases closing : state.closing with
  | notCalled =>
      simp only [closing, Option.map_eq_some_iff] at stepped
      obtain ⟨pair, taken, rfl⟩ := stepped
      exact Or.inl ⟨.a, pair, rfl, taken, rfl, fun _ => rfl,
        fun wrong => End.noConfusion wrong⟩
  | closedA =>
      simp only [closing, Option.map_eq_some_iff] at stepped
      obtain ⟨pair, taken, rfl⟩ := stepped
      exact Or.inl ⟨.b, pair, rfl, taken, rfl,
        fun wrong => End.noConfusion wrong, fun _ => rfl⟩
  | closedBoth =>
      simp only [closing, Option.ite_none_right_eq_some,
        Option.some.injEq] at stepped
      exact Or.inr (Or.inl ⟨rfl, stepped.1.2, stepped.2.symm⟩)
  | joinedA =>
      simp only [closing, Option.ite_none_right_eq_some,
        Option.some.injEq] at stepped
      exact Or.inr (Or.inr ⟨rfl, stepped.1.2, stepped.2.symm⟩)
  | joinedBoth =>
      simp [closing] at stepped

/-- A step of the pair keeps the call where it is. -/
theorem step?_step
    {inner : Label}
    (stepped : state.step? (.step inner) = some next) :
    ∃ pair,
      state.pair.step? inner = some pair ∧
        next = { state with pair := pair } := by
  simp only [ClosingPair.step?, Option.map_eq_some_iff] at stepped
  obtain ⟨pair, taken, rfl⟩ := stepped
  exact ⟨pair, taken, rfl⟩

/-- Closing spares the ends when every step does. -/
theorem Spared.closingStep
    (spared : Spared state.pair)
    (guarded : state.Spares label)
    (stepped : state.step? label = some next) :
    Spared next.pair := by
  cases label with
  | step inner =>
      obtain ⟨pair, taken, rfl⟩ := step?_step stepped
      exact spared.step guarded taken
  | close =>
      rcases step?_close stepped with closes | joinsA | joinsB
      · obtain ⟨y, pair, now, taken, rfl, _⟩ := closes
        exact spared.step (guarded y now) taken
      · obtain ⟨_, _, rfl⟩ := joinsA
        exact spared
      · obtain ⟨_, _, rfl⟩ := joinsB
        exact spared

/-- Every step keeps what has been closed. -/
theorem AsFar.step
    (asFar : AsFar state)
    (stepped : state.step? label = some next) :
    AsFar next := by
  cases label with
  | step inner =>
      obtain ⟨pair, taken, rfl⟩ := step?_step stepped
      exact {
        sound := fun x => sound_step (asFar.sound x) taken
        closedA := fun called => closed_step taken (asFar.closedA called)
        closedB := fun past => closed_step taken (asFar.closedB past)
      }
  | close =>
      rcases step?_close stepped with closes | joinsA | joinsB
      · obtain ⟨y, pair, now, taken, rfl, afterA, afterB⟩ := closes
        have sound := fun x => sound_step (asFar.sound x) taken
        have closed : next.pair.closed y = true := by
          rw [Pair.step?_closeUser taken]
          exact Function.update_self y true state.pair.closed
        cases y with
        | a =>
            exact {
              sound := sound
              closedA := fun _ => closed
              closedB := by
                intro past
                rw [afterA rfl] at past
                exact absurd past (by simp [Closing.closes?])
            }
        | b =>
            have called : state.closing ≠ .notCalled := by
              intro wrong
              rw [wrong] at now
              exact absurd now (by simp [Closing.closes?])
            exact {
              sound := sound
              closedA := fun _ =>
                closed_step taken (asFar.closedA called)
              closedB := fun _ => closed
            }
      · obtain ⟨here, _, rfl⟩ := joinsA
        exact {
          sound := asFar.sound
          closedA := fun _ => asFar.closedA (by simp [here])
          closedB := fun _ => asFar.closedB (by rw [here]; rfl)
        }
      · obtain ⟨here, _, rfl⟩ := joinsB
        exact {
          sound := asFar.sound
          closedA := fun _ => asFar.closedA (by simp [here])
          closedB := fun _ => asFar.closedB (by rw [here]; rfl)
        }

/-- Once both ends are closed, both are. -/
theorem AsFar.both
    (asFar : AsFar state)
    (past : state.closing.closes? = none)
    (x : End) :
    state.pair.closed x = true := by
  cases x with
  | a =>
      refine asFar.closedA fun notCalled => ?_
      rw [notCalled] at past
      exact absurd past (by simp [Closing.closes?])
  | b =>
      exact asFar.closedB past

/-- A direction whose user end is closed never gets more to do. -/
theorem work_le
    {x : End}
    {pair after : Pair}
    {inner : Label}
    (sound : (pair.direction x).Sound)
    (closed : pair.closed x = true)
    (taken : pair.step? inner = some after) :
    (after.direction x).work ≤ (pair.direction x).work := by
  cases forwards : inner.forwards x with
  | true =>
      exact Nat.le_of_lt (forwards_lowers sound taken forwards)
  | false =>
      obtain ⟨forward, source⟩ := forward_of_not_forwards taken forwards
      rw [Direction.work, Direction.work, forward, source closed]

/-- Once both ends are closed, `chaos_net_close` has a bounded way to go. -/
theorem countP_closing_le
    (asFar : AsFar state)
    (past : state.closing.closes? = none)
    {later : List CloseLabel}
    {final : ClosingPair}
    (ran : state.run? later = some final) :
    later.countP CloseLabel.productive ≤ state.work := by
  have preserved :
      ∀ {before : ClosingPair} {label : CloseLabel}
        {after : ClosingPair},
        AsFar before ∧ before.closing.closes? = none →
        True →
        before.step? label = some after →
        AsFar after ∧ after.closing.closes? = none := by
    intro before label after holds _ stepped
    refine ⟨holds.1.step stepped, ?_⟩
    cases label with
    | step inner =>
        obtain ⟨pair, taken, rfl⟩ := step?_step stepped
        exact holds.2
    | close =>
        rcases step?_close stepped with closes | joinsA | joinsB
        · obtain ⟨y, pair, now, _⟩ := closes
          rw [holds.2] at now
          exact absurd now (by simp)
        · rw [joinsA.2.2]
          rfl
        · rw [joinsB.2.2]
          rfl
  refine Transition.countP_productive_le CloseLabel.productive
    ClosingPair.work preserved ?_ ?_ ran
    (Transition.eachStep_of_forall (fun _ _ => trivial) state)
    ⟨asFar, past⟩
  · intro before label after holds _ stepped productive
    cases label with
    | step inner =>
        obtain ⟨pair, taken, rfl⟩ := step?_step stepped
        have lessA := work_le (holds.1.sound .a)
          (holds.1.both holds.2 .a) taken
        have lessB := work_le (holds.1.sound .b)
          (holds.1.both holds.2 .b) taken
        simp only [ClosingPair.work]
        rcases (Bool.or_eq_true _ _).mp productive with own | own
        · have lower := forwards_lowers (holds.1.sound .a) taken own
          omega
        · have lower := forwards_lowers (holds.1.sound .b) taken own
          omega
    | close =>
        rcases step?_close stepped with closes | joinsA | joinsB
        · obtain ⟨y, pair, now, _⟩ := closes
          rw [holds.2] at now
          exact absurd now (by simp)
        · obtain ⟨here, _, rfl⟩ := joinsA
          simp only [ClosingPair.work, here, Closing.joins]
          omega
        · obtain ⟨here, _, rfl⟩ := joinsB
          simp only [ClosingPair.work, here, Closing.joins]
          omega
  · intro before label after holds _ stepped others
    cases label with
    | step inner =>
        obtain ⟨pair, taken, rfl⟩ := step?_step stepped
        have lessA := work_le (holds.1.sound .a)
          (holds.1.both holds.2 .a) taken
        have lessB := work_le (holds.1.sound .b)
          (holds.1.both holds.2 .b) taken
        simp only [ClosingPair.work]
        omega
    | close =>
        exact absurd others.symm Bool.false_ne_true

/-- Where no end is written to after its close, closing can go on. -/
theorem Spared.closing_enabled
    (spared : Spared state.pair)
    (asFar : AsFar state)
    (past : state.closing.closes? = none)
    (waiting : state.closing ≠ .joinedBoth) :
    ∃ label, label.productive = true ∧ (state.step? label).isSome := by
  have forwarderGoesOn
      (x : End)
      (running : (state.pair.direction x).forward ≠ .returned) :
      ∃ label,
        label.productive = true ∧ (state.step? label).isSome := by
    obtain ⟨inner, forwards, enabled⟩ :=
      forwards_enabled spared.alive (spared.sound x)
        (spared.farOpen x) (asFar.both past x) running
    refine ⟨.step inner, ?_, ?_⟩
    · cases x with
      | a =>
          simp [CloseLabel.productive, forwards]
      | b =>
          simp [CloseLabel.productive, forwards]
    · simpa [ClosingPair.step?] using enabled
  cases closing : state.closing with
  | notCalled | closedA =>
      rw [closing] at past
      exact absurd past (by simp [Closing.closes?])
  | closedBoth =>
      by_cases returned :
          (state.pair.direction .a).forward = .returned
      · exact ⟨.close, rfl,
          by simp [ClosingPair.step?, closing, spared.alive,
            returned]⟩
      · exact forwarderGoesOn .a returned
  | joinedA =>
      by_cases returned :
          (state.pair.direction .b).forward = .returned
      · exact ⟨.close, rfl,
          by simp [ClosingPair.step?, closing, spared.alive,
            returned]⟩
      · exact forwarderGoesOn .b returned
  | joinedBoth =>
      exact absurd closing waiting

/-- A step of `chaos_net_close` or before it that spares no closed end. -/
theorem closing_breaks
    (stepped : state.step? label = some next)
    (careless : ¬ state.Spares label)
    (readsOn : ∀ x, label ≠ .step (.readFails x))
    (writesOn : ∀ x, label ≠ .step (.writeFails x)) :
    ∃ x, (next.step? (.step (.writeBroken x))).isSome := by
  have lift
      (broken :
        ∃ x, (next.pair.step? (.writeBroken x)).isSome) :
      ∃ x, (next.step? (.step (.writeBroken x))).isSome := by
    obtain ⟨x, enabled⟩ := broken
    exact ⟨x, by simpa [ClosingPair.step?] using enabled⟩
  cases label with
  | step inner =>
      obtain ⟨pair, taken, rfl⟩ := step?_step stepped
      exact lift (breaks_of_not_spares taken careless
        (fun x same => readsOn x (by rw [same]))
        (fun x same => writesOn x (by rw [same])))
  | close =>
      rcases step?_close stepped with closes | joinsA | joinsB
      · obtain ⟨y, pair, now, taken, rfl, _⟩ := closes
        simp only [ClosingPair.Spares, now, Option.mem_some_iff,
          forall_eq'] at careless
        exact lift (breaks_of_not_spares taken careless
          (by simp) (by simp))
      · simp only [ClosingPair.Spares, joinsA.1, Closing.closes?,
          Option.not_mem_none, false_implies, implies_true,
          not_true_eq_false] at careless
      · simp only [ClosingPair.Spares, joinsB.1, Closing.closes?,
          Option.not_mem_none, false_implies, implies_true,
          not_true_eq_false] at careless

end Runs

/-- What a run of a pair and its close guarantees. -/
structure ClosesQuietly (state : ClosingPair) : Prop where
  alive : state.pair.killed = false
  notBroken :
    ∀ x, state.step? (.step (.writeBroken x)) = none
  /-- A forwarder leaves its loop through EOF on its read. -/
  reachedEof :
    ∀ x,
      (state.pair.direction x).forward = .returned →
        state.pair.closed x = true ∧
          (state.pair.direction x).source = []
  closingEnabled :
    state.closing.closes? = none →
      state.closing ≠ .joinedBoth →
      ∃ label, label.productive = true ∧ (state.step? label).isSome
  closingBounded :
    state.closing.closes? = none →
      ∀ later final,
        state.run? later = some final →
        later.countP CloseLabel.productive ≤ state.work

/--
When every step spares the closed ends, no write ever breaks, forwarders
leave through EOF, and `chaos_net_close` comes to its end; after any run, a
step that does not is followed by a write that kills the process.
-/
theorem closing_exact
    (k : Knobs)
    (seed : UInt64)
    (labels : List CloseLabel)
    (state : ClosingPair)
    (ran : (ClosingPair.start k seed).run? labels = some state) :
    (Transition.EachStep ClosingPair.step? ClosingPair.Spares
        (ClosingPair.start k seed) labels →
      ClosesQuietly state) ∧
      ∀ label next,
        state.step? label = some next →
        ¬ state.Spares label →
        (∀ x, label ≠ .step (.readFails x)) →
        (∀ x, label ≠ .step (.writeFails x)) →
        ∃ x, (next.step? (.step (.writeBroken x))).isSome := by
  constructor
  · intro guarded
    have fresh : ∀ x, ((Pair.start k seed).direction x).Sound :=
      fun _ => ⟨trivial, by simp [Pair.start]⟩
    have started : Spared (ClosingPair.start k seed).pair := {
      alive := rfl
      sound := fresh
      reachedEof := fun _ returned => by
        simp [ClosingPair.start, Pair.start] at returned
      farOpen := fun _ _ => rfl
    }
    have spared : Spared state.pair :=
      Transition.run?_invariant_of_eachStep
        (fun (holds : Spared (_ : ClosingPair).pair) guardedStep
            stepped => holds.closingStep guardedStep stepped)
        ran guarded started
    have asFar : AsFar state :=
      Transition.run?_invariant AsFar.step ran {
        sound := fresh
        closedA := fun called => absurd rfl called
        closedB := fun past =>
          absurd past (by simp [ClosingPair.start, Closing.closes?])
      }
    exact {
      alive := spared.alive
      notBroken := fun x => by
        simp [ClosingPair.step?, spared.writeBroken_disabled x]
      reachedEof := spared.reachedEof
      closingEnabled := spared.closing_enabled asFar
      closingBounded := fun past _ _ ranLater =>
        countP_closing_le asFar past ranLater
    }
  · exact fun _ _ stepped careless readsOn writesOn =>
      closing_breaks stepped careless readsOn writesOn

/-- Knobs without effect. -/
def idleKnobs : Knobs where
  lossProb := .finite 0
  delayMinNs := 0
  delayMaxNs := 0
  maxChunkBytes := 0

/-- One byte crosses before the pair is closed. -/
def drainedRun : List CloseLabel :=
  [.step (.send .a [1]), .step (.read .a 1), .step (.snapshot .a),
    .step (.decide .a), .step (.write .a 1), .close, .close,
    .step (.readEof .b), .step (.readEof .a), .close, .close]

theorem closing_exact_drained :
    ∃ state,
      (ClosingPair.start idleKnobs 7).run? drainedRun = some state ∧
        state.closing = .joinedBoth ∧ ClosesQuietly state := by
  have ends :
      ((ClosingPair.start idleKnobs 7).run? drainedRun).any
        (fun state => state.closing = .joinedBoth) = true := by
    decide +kernel
  have guarded :
      Transition.EachStep ClosingPair.step? ClosingPair.Spares
        (ClosingPair.start idleKnobs 7) drainedRun := by
    decide +kernel
  obtain ⟨state, ran, joined⟩ := (Option.any_eq_true _ _).mp ends
  exact ⟨state, ran, of_decide_eq_true joined,
    (closing_exact idleKnobs 7 drainedRun state ran).1 guarded⟩

/-- One byte still on its way when `chaos_net_close` is called is enough. -/
theorem closing_kills_inFlight :
    ∃ state,
      (ClosingPair.start idleKnobs 7).run?
          [.step (.send .a [1]), .step (.read .a 1),
            .step (.snapshot .a), .step (.decide .a), .close, .close,
            .step (.writeBroken .a)] = some state ∧
        state.pair.killed = true := by
  have kills :
      ((ClosingPair.start idleKnobs 7).run?
          [.step (.send .a [1]), .step (.read .a 1),
            .step (.snapshot .a), .step (.decide .a), .close, .close,
            .step (.writeBroken .a)]).any
        (fun state => state.pair.killed) = true := by
    decide +kernel
  obtain ⟨state, ran, killed⟩ := (Option.any_eq_true _ _).mp kills
  exact ⟨state, ran, killed⟩

end FailurePlayground.ChaosNet
