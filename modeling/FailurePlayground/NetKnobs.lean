import FailurePlayground.NetFilter

namespace FailurePlayground.ChaosNet

/-!
# Changing the knobs of a live pair

A forwarder copies the knobs once for each read and uses the copy for every
chunk of that read.  A call of `chaos_net_set_knobs` therefore reaches the
next chunk only when no chunk of an earlier read is left to be decided.
-/

section Fresh

/-- A chunk about to be decided is decided with these knobs. -/
def Forward.DecidesWith (k : Knobs) : Forward → Prop
  | .atLoss taken _ _ => taken = k
  | .reading | .filled _ | .atWrite _ _ _ _ | .returned => True

instance (k : Knobs) : (forward : Forward) →
    Decidable (forward.DecidesWith k)
  | .atLoss taken _ _ => inferInstanceAs (Decidable (taken = k))
  | .reading | .filled _ | .atWrite _ _ _ _ | .returned =>
      inferInstanceAs (Decidable True)

/-- A loss and delay decision uses the knobs of the last call that set them. -/
def Pair.DecidesFresh (pair : Pair) : Label → Prop
  | .decide x => (pair.direction x).forward.DecidesWith pair.knobs
  | _ => True

instance (pair : Pair) : (label : Label) →
    Decidable (pair.DecidesFresh label)
  | .decide x =>
      inferInstanceAs
        (Decidable ((pair.direction x).forward.DecidesWith pair.knobs))
  | .send _ _ | .receive _ _ | .closeUser _ | .setKnobs _ | .read _ _
  | .readEof _ | .readFails _ | .snapshot _ | .write _ _
  | .writeFails _ | .writeBroken _ =>
      inferInstanceAs (Decidable True)

/--
No chunk is left to be decided with other knobs: the forwarder has copied
these, or has no copy, or stands at the last write of its read.
-/
def Forward.TakesUp (k : Knobs) (farClosed : Bool) : Forward → Prop
  | .atLoss taken _ _ => taken = k
  | .atWrite taken buf off _ =>
      taken = k ∨ off + 1 = buf.length ∨ farClosed = true
  | .reading | .filled _ | .returned => True

instance (k : Knobs) (farClosed : Bool) : (forward : Forward) →
    Decidable (forward.TakesUp k farClosed)
  | .atLoss taken _ _ => inferInstanceAs (Decidable (taken = k))
  | .atWrite _ _ _ _ => inferInstanceAs (Decidable (_ ∨ _ ∨ _))
  | .reading | .filled _ | .returned => inferInstanceAs (Decidable True)

/-- Every chunk still to be decided in direction `x` would use these knobs. -/
def Pair.TakesUp (pair : Pair) (k : Knobs) (x : End) : Prop :=
  (pair.direction x).forward.TakesUp k (pair.closed x.other)

instance (pair : Pair) (k : Knobs) (x : End) :
    Decidable (pair.TakesUp k x) :=
  inferInstanceAs (Decidable ((pair.direction x).forward.TakesUp k _))

/-- The knobs are set only between the reads whose chunks remain. -/
def Pair.SetsBetween (pair : Pair) : Label → Prop
  | .setKnobs k => pair.TakesUp k .a ∧ pair.TakesUp k .b
  | _ => True

instance (pair : Pair) : (label : Label) →
    Decidable (pair.SetsBetween label)
  | .setKnobs k =>
      inferInstanceAs
        (Decidable (pair.TakesUp k .a ∧ pair.TakesUp k .b))
  | .send _ _ | .receive _ _ | .closeUser _ | .decide _ | .read _ _
  | .readEof _ | .readFails _ | .snapshot _ | .write _ _
  | .writeFails _ | .writeBroken _ =>
      inferInstanceAs (Decidable True)

variable
  {pair next : Pair}
  {x : End}
  {label : Label}
  {k : Knobs}

/-- A guarded call reaches both directions. -/
theorem Pair.SetsBetween.takesUp
    (between : pair.SetsBetween (.setKnobs k))
    (x : End) :
    pair.TakesUp k x := by
  cases x with
  | a =>
      exact between.1
  | b =>
      exact between.2

/-- Closing the far end leaves fewer chunks to be decided. -/
theorem Forward.TakesUp.mono
    {forward : Forward}
    {before after : Bool}
    (takesUp : forward.TakesUp k before)
    (closes : before = true → after = true) :
    forward.TakesUp k after := by
  cases forward with
  | atWrite taken buf off size =>
      exact takesUp.imp id (Or.imp id closes)
  | reading | filled buf | atLoss taken buf off | returned =>
      exact takesUp

/-- Entering the inner loop decides nothing but with the copied knobs. -/
theorem takesUp_enterLoop
    (buf : List UInt8)
    (off : Nat)
    (farClosed : Bool) :
    (enterLoop k buf off).TakesUp k farClosed := by
  simp only [enterLoop]
  split
  · exact rfl
  · exact trivial

/-- What is taken up is decided with the knobs in force. -/
theorem decidesFresh_of_takesUp
    (takesUp : ∀ x, pair.TakesUp pair.knobs x)
    (label : Label) :
    pair.DecidesFresh label := by
  cases label with
  | decide x =>
      have held := takesUp x
      simp only [Pair.TakesUp] at held
      simp only [Pair.DecidesFresh]
      cases here : (pair.direction x).forward with
      | atLoss taken buf off =>
          rw [here] at held
          exact held
      | reading | filled buf | atWrite taken buf off size | returned =>
          exact trivial
  | _ =>
      exact trivial

end Fresh

section Runs

variable
  {pair next : Pair}
  {x : End}
  {label : Label}
  {k : Knobs}

/-- A step of forwarder `x` keeps to the knobs in force. -/
theorem takesUp_of_own_step
    (sound : (pair.direction x).Sound)
    (takesUp : pair.TakesUp pair.knobs x)
    (acts : label.direction? = some x)
    (stepped : pair.step? label = some next) :
    next.TakesUp pair.knobs x := by
  simp only [Pair.TakesUp] at takesUp ⊢
  cases label with
  | send y bytes =>
      obtain rfl : y = x := Option.some.inj acts
      obtain ⟨_, rfl⟩ := Pair.step?_send stepped
      rw [Pair.direction_setDirection_same]
      exact takesUp
  | receive y count =>
      obtain rfl : y.other = x := Option.some.inj acts
      obtain ⟨_, _, _, rfl⟩ := Pair.step?_receive stepped
      rw [Pair.direction_setDirection_same]
      exact takesUp
  | read y count =>
      obtain rfl : y = x := Option.some.inj acts
      obtain ⟨_, _, _, _, rfl⟩ := Pair.step?_read stepped
      rw [Pair.direction_setDirection_same]
      exact trivial
  | readEof y =>
      obtain rfl : y = x := Option.some.inj acts
      obtain ⟨_, _, _, rfl⟩ := Pair.step?_readEof stepped
      rw [Pair.direction_setDirection_same]
      exact trivial
  | readFails y =>
      obtain rfl : y = x := Option.some.inj acts
      obtain ⟨_, rfl⟩ := Pair.step?_readFails stepped
      rw [Pair.direction_setDirection_same]
      exact trivial
  | snapshot y =>
      obtain rfl : y = x := Option.some.inj acts
      obtain ⟨buf, _, rfl⟩ := Pair.step?_snapshot stepped
      rw [Pair.direction_setDirection_same]
      exact takesUp_enterLoop buf 0 _
  | decide y =>
      obtain rfl : y = x := Option.some.inj acts
      obtain ⟨taken, buf, off, here, rfl⟩ := Pair.step?_decide stepped
      rw [Pair.direction_setDirection_same]
      rw [here] at takesUp
      obtain rfl : taken = pair.knobs := takesUp
      simp only [Direction.decideChunk]
      split
      · exact takesUp_enterLoop buf _ _
      · exact Or.inl rfl
  | write y count =>
      obtain rfl : y = x := Option.some.inj acts
      obtain ⟨taken, buf, off, size, here, farOpen, positive, _, rfl⟩ :=
        Pair.step?_write stepped
      rw [Pair.direction_setDirection_same]
      rw [here, farOpen] at takesUp
      simp only [Direction.wroteChunk]
      rcases takesUp with same | last | closed
      · exact same ▸ takesUp_enterLoop buf _ _
      · have done : ¬ off + count < buf.length := by omega
        rw [enterLoop, if_neg done]
        exact trivial
      · exact absurd closed Bool.false_ne_true
  | writeFails y =>
      obtain rfl : y = x := Option.some.inj acts
      obtain ⟨_, _, _, _, _, rfl⟩ := Pair.step?_writeFails stepped
      rw [Pair.direction_setDirection_same]
      exact trivial
  | writeBroken y =>
      obtain ⟨_, _, _, _, _, _, rfl⟩ := Pair.step?_writeBroken stepped
      exact takesUp
  | closeUser y | setKnobs k =>
      exact absurd acts (by simp [Label.direction?])

/-- Every chunk still to be decided would use the knobs in force. -/
structure Settled (pair : Pair) : Prop where
  sound : ∀ x, (pair.direction x).Sound
  takesUp : ∀ x, pair.TakesUp pair.knobs x

/-- A new pair has no chunk to decide. -/
theorem settled_start
    (k : Knobs)
    (seed : UInt64) :
    Settled (Pair.start k seed) where
  sound _ := ⟨trivial, by simp [Pair.start]⟩
  takesUp _ := trivial

/-- A guarded step leaves no chunk to be decided with older knobs. -/
theorem Settled.step
    (settled : Settled pair)
    (between : pair.SetsBetween label)
    (stepped : pair.step? label = some next) :
    Settled next where
  sound x := sound_step (settled.sound x) stepped
  takesUp x := by
    by_cases acts : label.direction? = some x
    · have kept :=
        takesUp_of_own_step (settled.sound x) (settled.takesUp x)
          acts stepped
      have same : next.knobs = pair.knobs :=
        Pair.knobs_of_not_setKnobs stepped (by
          rintro k rfl
          exact absurd acts (by simp [Label.direction?]))
      rw [same]
      exact kept
    · have unmoved := Pair.direction_of_elsewhere stepped acts
      simp only [Pair.TakesUp, unmoved]
      cases Pair.change_of_step? stepped with
      | moves y direction owner whole =>
          exact settled.takesUp x
      | closes y =>
          refine (settled.takesUp x).mono fun closed => ?_
          exact closed_step stepped closed
      | sets k =>
          exact between.takesUp x
      | breaks y =>
          exact settled.takesUp x

/-- A chunk left over with other knobs is decided with them. -/
theorem stale_of_not_takesUp
    (alive : pair.killed = false)
    (sound : (pair.direction x).Sound)
    (stale : ¬ pair.TakesUp pair.knobs x) :
    ∃ later final,
      pair.run? later = some final ∧
        ¬ Transition.EachStep Pair.step? Pair.DecidesFresh pair later := by
  simp only [Pair.TakesUp] at stale
  have forward := sound.forward
  cases here : (pair.direction x).forward with
  | atLoss taken buf off =>
      rw [here] at stale
      have enabled : (pair.step? (.decide x)).isSome := by
        simp [Pair.step?, Pair.stepAlive?, alive, here]
      obtain ⟨next, stepped⟩ := Option.isSome_iff_exists.mp enabled
      refine ⟨[.decide x], next,
        Transition.run?_cons_eq_some.mpr ⟨next, stepped, rfl⟩, ?_⟩
      rintro ⟨fresh, _⟩
      simp only [Pair.DecidesFresh, here] at fresh
      exact stale fresh
  | atWrite taken buf off size =>
      rw [here] at stale
      simp only [here, Forward.Sound] at forward
      simp only [Forward.TakesUp, not_or, Bool.not_eq_true] at stale
      obtain ⟨other, more, farOpen⟩ := stale
      have one : 1 ≤ size := forward.2 ▸ thisChunk_pos taken forward.1
      have inside : off + 1 < buf.length := by omega
      have wrote :
          pair.step? (.write x 1) =
            some (pair.setDirection x
              ((pair.direction x).wroteChunk taken buf off 1)) := by
        simp [Pair.step?, Pair.stepAlive?, alive, here, farOpen, one]
      have there :
          ((pair.setDirection x
            ((pair.direction x).wroteChunk taken buf off 1)).direction
              x).forward = .atLoss taken buf (off + 1) := by
        rw [Pair.direction_setDirection_same]
        simp only [Direction.wroteChunk, enterLoop, if_pos inside]
      have enabled :
          ((pair.setDirection x
            ((pair.direction x).wroteChunk taken buf off 1)).step?
              (.decide x)).isSome := by
        simp only [Pair.step?, Pair.stepAlive?, there,
          Pair.killed_setDirection, alive]
        exact rfl
      obtain ⟨next, stepped⟩ := Option.isSome_iff_exists.mp enabled
      refine ⟨[.write x 1, .decide x], next,
        Transition.run?_cons_eq_some.mpr ⟨_, wrote,
          Transition.run?_cons_eq_some.mpr ⟨next, stepped, rfl⟩⟩, ?_⟩
      rintro ⟨_, rest⟩
      rw [wrote] at rest
      have fresh := rest.1
      simp only [Pair.DecidesFresh, there] at fresh
      exact other fresh
  | reading | filled buf | returned =>
      rw [here] at stale
      exact absurd trivial stale

end Runs

section Partition

variable
  {pair next : Pair}
  {x : End}
  {label : Label}
  {k : Knobs}
  {bytes : List UInt8}

/-- The bytes of a chunk that was kept and waits for its write. -/
def Forward.kept : Forward → List UInt8
  | .atWrite _ buf off size => (buf.drop off).take size
  | .reading | .filled _ | .atLoss _ _ _ | .returned => []

@[simp] theorem kept_enterLoop
    (k : Knobs)
    (buf : List UInt8)
    (off : Nat) :
    (enterLoop k buf off).kept = [] := by
  simp only [enterLoop]
  split
  · exact rfl
  · exact rfl

/-- What has been delivered in a direction, with the chunk kept for it. -/
def Direction.promised (direction : Direction) : List UInt8 :=
  direction.delivered ++ direction.forward.kept

/-- Dropping the kept chunk leaves what has been delivered. -/
theorem promised_of_nothing_kept
    {direction moved : Direction}
    (within : direction.promised <+: bytes)
    (delivered : moved.delivered = direction.delivered)
    (nothing : moved.forward.kept = []) :
    moved.promised <+: bytes := by
  rw [Direction.promised, nothing, List.append_nil, delivered]
  exact (List.prefix_append _ _).trans within

/-- Under certain loss every decision drops its chunk. -/
theorem decideChunk_of_certain
    (certain : k.lossProb.atLeastOne = true)
    (direction : Direction)
    (buf : List UInt8)
    (off : Nat) :
    (direction.decideChunk k buf off).delivered = direction.delivered ∧
      (direction.decideChunk k buf off).forward.kept = [] := by
  obtain ⟨possible, lost⟩ := exceeds_of_atLeastOne certain direction.rng
  have drops : (lossDraw k direction.rng).1 = true := by
    rw [lossDraw, if_pos possible]
    exact lost
  simp only [Direction.decideChunk, drops, ↓reduceIte]
  exact ⟨rfl, kept_enterLoop k buf _⟩

/-- Part of the kept chunk is written, and the rest goes to the loss test. -/
theorem promised_wroteChunk
    {direction : Direction}
    {k : Knobs}
    {buf : List UInt8}
    {off size count : Nat}
    (here : direction.forward = .atWrite k buf off size)
    (within : direction.promised <+: bytes)
    (fits : count ≤ size) :
    (direction.wroteChunk k buf off count).promised <+: bytes := by
  have nothing :
      (direction.wroteChunk k buf off count).forward.kept = [] :=
    kept_enterLoop k buf (off + count)
  rw [Direction.promised, here] at within
  rw [Direction.promised, nothing, List.append_nil,
    delivered_wroteChunk]
  refine List.IsPrefix.trans ?_ within
  rw [List.prefix_append_right_inj]
  exact List.take_prefix_take_left fits

/-- Certain loss is in force, and at most these bytes are ever delivered. -/
structure Severed (x : End) (bytes : List UInt8) (pair : Pair) : Prop where
  settled : Settled pair
  certain : pair.knobs.lossProb.atLeastOne = true
  within : (pair.direction x).promised <+: bytes

/-- A decision under certain loss keeps no further chunk. -/
theorem Severed.own_step
    (severed : Severed x bytes pair)
    (acts : label.direction? = some x)
    (stepped : pair.step? label = some next) :
    (next.direction x).promised <+: bytes := by
  have within := severed.within
  cases label with
  | send y message =>
      obtain rfl : y = x := Option.some.inj acts
      obtain ⟨_, rfl⟩ := Pair.step?_send stepped
      rw [Pair.direction_setDirection_same]
      exact within
  | receive y count =>
      obtain rfl : y.other = x := Option.some.inj acts
      obtain ⟨_, _, _, rfl⟩ := Pair.step?_receive stepped
      rw [Pair.direction_setDirection_same]
      simp only [Direction.promised, delivered_receive]
      exact within
  | read y count =>
      obtain rfl : y = x := Option.some.inj acts
      obtain ⟨_, _, _, _, rfl⟩ := Pair.step?_read stepped
      rw [Pair.direction_setDirection_same]
      exact promised_of_nothing_kept within rfl rfl
  | readEof y =>
      obtain rfl : y = x := Option.some.inj acts
      obtain ⟨_, _, _, rfl⟩ := Pair.step?_readEof stepped
      rw [Pair.direction_setDirection_same]
      exact promised_of_nothing_kept within rfl rfl
  | readFails y =>
      obtain rfl : y = x := Option.some.inj acts
      obtain ⟨_, rfl⟩ := Pair.step?_readFails stepped
      rw [Pair.direction_setDirection_same]
      exact promised_of_nothing_kept within rfl rfl
  | snapshot y =>
      obtain rfl : y = x := Option.some.inj acts
      obtain ⟨buf, _, rfl⟩ := Pair.step?_snapshot stepped
      rw [Pair.direction_setDirection_same]
      exact promised_of_nothing_kept within rfl
        (kept_enterLoop pair.knobs buf 0)
  | decide y =>
      obtain rfl : y = x := Option.some.inj acts
      obtain ⟨taken, buf, off, here, rfl⟩ := Pair.step?_decide stepped
      have fresh := severed.settled.takesUp y
      simp only [Pair.TakesUp, here] at fresh
      obtain rfl : taken = pair.knobs := fresh
      rw [Pair.direction_setDirection_same]
      obtain ⟨delivered, nothing⟩ :=
        decideChunk_of_certain severed.certain (pair.direction y) buf off
      exact promised_of_nothing_kept within delivered nothing
  | write y count =>
      obtain rfl : y = x := Option.some.inj acts
      obtain ⟨taken, buf, off, size, here, _, _, fits, rfl⟩ :=
        Pair.step?_write stepped
      rw [Pair.direction_setDirection_same]
      exact promised_wroteChunk here within fits
  | writeFails y =>
      obtain rfl : y = x := Option.some.inj acts
      obtain ⟨_, _, _, _, _, rfl⟩ := Pair.step?_writeFails stepped
      rw [Pair.direction_setDirection_same]
      exact promised_of_nothing_kept within rfl rfl
  | writeBroken y =>
      obtain ⟨_, _, _, _, _, _, rfl⟩ := Pair.step?_writeBroken stepped
      exact within
  | closeUser y | setKnobs k =>
      exact absurd acts (by simp [Label.direction?])

/-- Without a further change of knobs nothing more is delivered. -/
theorem Severed.step
    (severed : Severed x bytes pair)
    (unset : ∀ k, label ≠ .setKnobs k)
    (stepped : pair.step? label = some next) :
    Severed x bytes next where
  settled := by
    refine severed.settled.step ?_ stepped
    cases label with
    | setKnobs k =>
        exact absurd rfl (unset k)
    | _ =>
        exact trivial
  certain := by
    rw [Pair.knobs_of_not_setKnobs stepped unset]
    exact severed.certain
  within := by
    by_cases acts : label.direction? = some x
    · exact severed.own_step acts stepped
    · rw [Pair.direction_of_elsewhere stepped acts]
      exact severed.within

end Partition

section Main

/--
After a partition is installed, direction `x` delivers no chunk but the one
its forwarder had already kept.
-/
def Pair.Partitions (pair : Pair) (x : End) : Prop :=
  ∀ later final,
    pair.run? later = some final →
    (∀ label ∈ later, ∀ k, label ≠ .setKnobs k) →
    (final.direction x).delivered <+: (pair.direction x).promised

/--
When the knobs are set only where no chunk of an earlier read is left, every
decision uses the knobs in force, and certain loss ends the delivery; after
any run, knobs set elsewhere can be followed by a decision with older ones.
-/
theorem knobsFresh_exact
    (k : Knobs)
    (seed : UInt64)
    (labels : List Label)
    (pair : Pair)
    (ran : (Pair.start k seed).run? labels = some pair) :
    (Transition.EachStep Pair.step? Pair.SetsBetween
        (Pair.start k seed) labels →
      Transition.EachStep Pair.step? Pair.DecidesFresh
          (Pair.start k seed) labels ∧
        (pair.knobs.lossProb.atLeastOne = true →
          ∀ x, pair.Partitions x)) ∧
      ∀ set next,
        pair.step? (.setKnobs set) = some next →
        ¬ pair.SetsBetween (.setKnobs set) →
        ∃ later final,
          next.run? later = some final ∧
            ¬ Transition.EachStep Pair.step? Pair.DecidesFresh
                next later := by
  constructor
  · intro guarded
    have settled : Settled pair :=
      Transition.run?_invariant_of_eachStep Settled.step ran guarded
        (settled_start k seed)
    refine ⟨?_, ?_⟩
    · refine Transition.eachStep_mono Settled.step ?_ ran guarded
        (settled_start k seed)
      intro state label next holds _ _
      exact decidesFresh_of_takesUp holds.takesUp label
    · intro certain x later final ranLater unset
      have severed : Severed x (pair.direction x).promised pair :=
        ⟨settled, certain, List.prefix_rfl⟩
      have after : Severed x (pair.direction x).promised final :=
        Transition.run?_invariant_of_eachStep
          (fun (holds : Severed x _ _) unset stepped =>
            holds.step unset stepped)
          ranLater
          (Transition.eachStep_of_forall unset pair) severed
      exact (List.prefix_append _ _).trans after.within
  · intro set next stepped elsewhere
    have sound : ∀ x, (pair.direction x).Sound := fun x =>
      Transition.run?_invariant
        (fun holds stepped => sound_step holds stepped) ran
        ((settled_start k seed).sound x)
    have alive := (Pair.step?_alive stepped).1
    obtain rfl := Pair.step?_setKnobs stepped
    have stale : ∃ x, ¬ pair.TakesUp set x := by
      by_contra none
      simp only [not_exists, not_not] at none
      exact elsewhere ⟨none .a, none .b⟩
    obtain ⟨x, stale⟩ := stale
    have staleSet :
        ¬ ({ pair with knobs := set } : Pair).TakesUp set x := stale
    exact stale_of_not_takesUp alive (sound x) staleSet

/-- Chunks of one byte, without loss or delay. -/
def oneByteChunks : Knobs where
  lossProb := .finite 0
  delayMinNs := 0
  delayMaxNs := 0
  maxChunkBytes := 1

/-- A partition: every chunk is lost. -/
def partitionKnobs : Knobs :=
  { oneByteChunks with lossProb := .finite 1 }

/-- The partition is installed between two reads. -/
def partitionedRun : List Label :=
  [.send .a [1, 2], .read .a 2, .snapshot .a, .decide .a, .write .a 1,
    .decide .a, .write .a 1, .setKnobs partitionKnobs, .send .a [3],
    .read .a 1, .snapshot .a, .decide .a]

theorem knobsFresh_exact_betweenReads :
    ∃ pair,
      (Pair.start oneByteChunks 7).run? partitionedRun = some pair ∧
        (pair.direction .a).delivered = [1, 2] ∧
        Transition.EachStep Pair.step? Pair.DecidesFresh
          (Pair.start oneByteChunks 7) partitionedRun := by
  have ends :
      ((Pair.start oneByteChunks 7).run? partitionedRun).any
        (fun pair => (pair.direction .a).delivered = [1, 2]) = true := by
    decide +kernel
  have guarded :
      Transition.EachStep Pair.step? Pair.SetsBetween
        (Pair.start oneByteChunks 7) partitionedRun := by
    decide +kernel
  obtain ⟨pair, ran, delivered⟩ := (Option.any_eq_true _ _).mp ends
  have fresh :=
    (knobsFresh_exact oneByteChunks 7 partitionedRun pair ran).1 guarded
  exact ⟨pair, ran, of_decide_eq_true delivered, fresh.1⟩

/-- The rest of a read is still delivered after the partition. -/
def midReadRun : List Label :=
  [.send .a [1, 2], .read .a 2, .snapshot .a,
    .setKnobs partitionKnobs, .decide .a, .write .a 1]

theorem knobs_stale_midRead :
    ∃ pair,
      (Pair.start oneByteChunks 7).run? midReadRun = some pair ∧
        pair.knobs = partitionKnobs ∧
        (pair.direction .a).delivered = [1] ∧
        ¬ Transition.EachStep Pair.step? Pair.DecidesFresh
            (Pair.start oneByteChunks 7) midReadRun := by
  have ends :
      ((Pair.start oneByteChunks 7).run? midReadRun).any
        (fun pair => pair.knobs = partitionKnobs ∧
          (pair.direction .a).delivered = [1]) = true := by
    decide +kernel
  have stale :
      ¬ Transition.EachStep Pair.step? Pair.DecidesFresh
          (Pair.start oneByteChunks 7) midReadRun := by
    decide +kernel
  obtain ⟨pair, ran, delivered⟩ := (Option.any_eq_true _ _).mp ends
  obtain ⟨set, one⟩ := of_decide_eq_true delivered
  exact ⟨pair, ran, set, one, stale⟩

end Main

end FailurePlayground.ChaosNet
