import FailurePlayground.ChaosNet

namespace FailurePlayground.ChaosNet

/-!
# The forwarder's loops make progress

Whatever the knobs, the reads and the writes, a forwarder stays within its
buffer, and each of its own steps leaves it less to do: its inner loop ends
for every read, and once its user end is closed it comes to an end.
-/

section Measure

/-- A bound on the forwarder's steps before its next read, and a step to end. -/
def Forward.work : Forward → Nat
  | .reading => 1
  | .filled buf => 2 * buf.length + 2
  | .atLoss _ buf off => 2 * (buf.length - off) + 1
  | .atWrite _ buf off _ => 2 * (buf.length - off)
  | .returned => 0

/-- A bound on the forwarder's steps before it returns. -/
def Direction.work (direction : Direction) : Nat :=
  4 * direction.source.length + direction.forward.work

/-- Entering the inner loop costs two steps a byte. -/
theorem work_enterLoop
    (k : Knobs)
    (buf : List UInt8)
    (off : Nat) :
    (enterLoop k buf off).work ≤ 2 * (buf.length - off) + 1 := by
  by_cases inside : off < buf.length
  · simp only [enterLoop, inside, ↓reduceIte, Forward.work, le_refl]
  · simp only [enterLoop, inside, ↓reduceIte, Forward.work]
    exact Nat.le_add_left 1 _

/-- The steps of forwarder `x`. -/
def Label.forwards (x : End) : Label → Bool
  | .read y _ | .readEof y | .readFails y | .snapshot y | .decide y
  | .write y _ | .writeFails y => y == x
  | .send _ _ | .receive _ _ | .closeUser _ | .setKnobs _
  | .writeBroken _ => false

/-- The steps of the inner loop of forwarder `x`. -/
def Label.inner (x : End) : Label → Bool
  | .decide y | .write y _ => y == x
  | _ => false

/-- The steps that start a new buffer of forwarder `x`. -/
def Label.reads (x : End) : Label → Bool
  | .read y _ => y == x
  | _ => false

end Measure

section Chunks

/-- A chunk lies within the remainder. -/
theorem thisChunk_le
    (k : Knobs)
    (buf : List UInt8)
    (off : Nat) :
    thisChunk k buf off ≤ buf.length - off :=
  Nat.min_le_left _ _

/-- A chunk of a nonempty remainder is nonempty. -/
theorem thisChunk_pos
    (k : Knobs)
    {buf : List UInt8}
    {off : Nat}
    (inside : off < buf.length) :
    0 < thisChunk k buf off := by
  have capped : 0 < chunkMax k buf.length := by
    unfold chunkMax
    split
    · omega
    · omega
  rw [thisChunk, Nat.lt_min]
  exact ⟨by omega, capped⟩

/-- A remainder of at least a chunk gives a whole chunk. -/
theorem thisChunk_eq
    {k : Knobs}
    {width : Nat}
    (positive : 0 < width)
    (chunked : k.maxChunkBytes = width)
    {buf : List UInt8}
    {off : Nat}
    (enough : width ≤ buf.length - off) :
    thisChunk k buf off = width := by
  have capped : chunkMax k buf.length = width := by
    rw [chunkMax, if_pos (by omega), chunked, Int.toNat_natCast]
  rw [thisChunk, capped]
  exact Nat.min_eq_right enough

/-- A chunk respects a positive `max_chunk_bytes`. -/
theorem thisChunk_le_maxChunkBytes
    {k : Knobs}
    (positive : 0 < k.maxChunkBytes)
    (buf : List UInt8)
    (off : Nat) :
    (thisChunk k buf off : Int) ≤ k.maxChunkBytes := by
  have capped : chunkMax k buf.length = k.maxChunkBytes.toNat := by
    rw [chunkMax, if_pos positive]
  have within : thisChunk k buf off ≤ k.maxChunkBytes.toNat :=
    capped ▸ Nat.min_le_right _ _
  omega

end Chunks

section Sound

/-- The forwarder is within its buffer. -/
def Forward.Sound : Forward → Prop
  | .reading | .returned => True
  | .filled buf => buf ≠ []
  | .atLoss _ buf off => off < buf.length
  | .atWrite k buf off size =>
      off < buf.length ∧ size = thisChunk k buf off

/-- The forwarder is within its buffer, and EOF is sent when it returns. -/
structure Direction.Sound (direction : Direction) : Prop where
  forward : direction.forward.Sound
  ended : direction.ended = true ↔ direction.forward = .returned

/-- The inner loop is entered within the buffer. -/
theorem sound_enterLoop
    (k : Knobs)
    (buf : List UInt8)
    (off : Nat) :
    (enterLoop k buf off).Sound ∧
      enterLoop k buf off ≠ .returned := by
  by_cases inside : off < buf.length
  · simp [enterLoop, inside, Forward.Sound]
  · simp [enterLoop, inside, Forward.Sound]

/-- A forwarder that has returned stays within its buffer. -/
theorem sound_finish (direction : Direction) :
    direction.finish.Sound where
  forward := trivial
  ended := by simp [Direction.finish]

/-- A direction whose forwarder moves on without returning stays sound. -/
theorem Direction.Sound.move
    {direction moved : Direction}
    (sound : direction.Sound)
    (running : direction.forward ≠ .returned)
    (ended : moved.ended = direction.ended)
    (forward : moved.forward.Sound ∧ moved.forward ≠ .returned) :
    moved.Sound where
  forward := forward.1
  ended := by
    rw [ended, sound.ended]
    exact iff_of_false running forward.2

variable
  {x : End}
  {pair next : Pair}
  {label : Label}

/-- Every step keeps every forwarder within its buffer. -/
theorem sound_step
    (sound : (pair.direction x).Sound)
    (stepped : pair.step? label = some next) :
    (next.direction x).Sound := by
  by_cases acts : label.direction? = some x
  · cases label with
    | send y bytes =>
        obtain rfl : y = x := Option.some.inj acts
        obtain ⟨_, rfl⟩ := Pair.step?_send stepped
        rw [Pair.direction_setDirection_same]
        exact ⟨sound.forward, sound.ended⟩
    | receive y count =>
        obtain rfl : y.other = x := Option.some.inj acts
        obtain ⟨_, _, _, rfl⟩ := Pair.step?_receive stepped
        rw [Pair.direction_setDirection_same]
        exact ⟨sound.forward, sound.ended⟩
    | closeUser y | setKnobs k =>
        exact absurd acts (by simp [Label.direction?])
    | read y count =>
        obtain rfl : y = x := Option.some.inj acts
        obtain ⟨reading, positive, _, available, rfl⟩ :=
          Pair.step?_read stepped
        rw [Pair.direction_setDirection_same]
        refine sound.move (by simp [reading]) rfl ⟨?_, by simp⟩
        intro empty
        have lengths := congrArg List.length empty
        rw [List.length_take_of_le available,
          List.length_nil] at lengths
        omega
    | readEof y =>
        obtain rfl : y = x := Option.some.inj acts
        obtain ⟨_, _, _, rfl⟩ := Pair.step?_readEof stepped
        rw [Pair.direction_setDirection_same]
        exact sound_finish _
    | readFails y =>
        obtain rfl : y = x := Option.some.inj acts
        obtain ⟨_, rfl⟩ := Pair.step?_readFails stepped
        rw [Pair.direction_setDirection_same]
        exact sound_finish _
    | snapshot y =>
        obtain rfl : y = x := Option.some.inj acts
        obtain ⟨buf, filled, rfl⟩ := Pair.step?_snapshot stepped
        rw [Pair.direction_setDirection_same]
        exact sound.move (by simp [filled]) rfl
          (sound_enterLoop pair.knobs buf 0)
    | decide y =>
        obtain rfl : y = x := Option.some.inj acts
        obtain ⟨k, buf, off, here, rfl⟩ := Pair.step?_decide stepped
        rw [Pair.direction_setDirection_same]
        have inside := sound.forward
        simp only [here, Forward.Sound] at inside
        simp only [Direction.decideChunk]
        split
        · exact sound.move (by simp [here]) rfl (sound_enterLoop k buf _)
        · exact sound.move (by simp [here]) rfl
            ⟨⟨inside, rfl⟩, by simp⟩
    | write y count =>
        obtain rfl : y = x := Option.some.inj acts
        obtain ⟨k, buf, off, size, here, _, _, _, rfl⟩ :=
          Pair.step?_write stepped
        rw [Pair.direction_setDirection_same]
        exact sound.move (by simp [here]) rfl (sound_enterLoop k buf _)
    | writeFails y =>
        obtain rfl : y = x := Option.some.inj acts
        obtain ⟨_, _, _, _, _, rfl⟩ := Pair.step?_writeFails stepped
        rw [Pair.direction_setDirection_same]
        exact sound_finish _
    | writeBroken y =>
        obtain ⟨_, _, _, _, _, _, rfl⟩ := Pair.step?_writeBroken stepped
        exact sound
  · rw [Pair.direction_of_elsewhere stepped acts]
    exact sound

end Sound

section Progress

variable
  {x : End}
  {pair next : Pair}
  {label : Label}

/-- A step of the inner loop leaves less of the buffer to do. -/
theorem inner_lowers
    (sound : (pair.direction x).Sound)
    (stepped : pair.step? label = some next)
    (inner : label.inner x = true) :
    (next.direction x).forward.work <
        (pair.direction x).forward.work ∧
      (next.direction x).source = (pair.direction x).source := by
  have forward := sound.forward
  cases label with
  | decide y =>
      obtain rfl : y = x := beq_iff_eq.mp inner
      obtain ⟨k, buf, off, here, rfl⟩ := Pair.step?_decide stepped
      simp only [here, Forward.Sound] at forward
      rw [Pair.direction_setDirection_same, here]
      have bound := work_enterLoop k buf (off + thisChunk k buf off)
      have before :
          (Forward.atLoss k buf off).work =
            2 * (buf.length - off) + 1 := rfl
      have chunk := thisChunk_pos k forward
      simp only [Direction.decideChunk, before]
      split
      · exact ⟨by simp only; omega, rfl⟩
      · exact ⟨Nat.lt_succ_self _, rfl⟩
  | write y count =>
      obtain rfl : y = x := beq_iff_eq.mp inner
      obtain ⟨k, buf, off, size, here, _, positive, within, rfl⟩ :=
        Pair.step?_write stepped
      simp only [here, Forward.Sound] at forward
      obtain ⟨inside, sized⟩ := forward
      rw [Pair.direction_setDirection_same, here]
      have bound := work_enterLoop k buf (off + count)
      have chunk := thisChunk_le k buf off
      have before :
          (Forward.atWrite k buf off size).work =
            2 * (buf.length - off) := rfl
      simp only [Direction.wroteChunk, before]
      exact ⟨by omega, trivial⟩
  | _ =>
      exact absurd inner Bool.false_ne_true

/-- A step of the forwarder leaves less to do before it returns. -/
theorem forwards_lowers
    (sound : (pair.direction x).Sound)
    (stepped : pair.step? label = some next)
    (forwards : label.forwards x = true) :
    (next.direction x).work < (pair.direction x).work := by
  cases label with
  | read y count =>
      obtain rfl : y = x := beq_iff_eq.mp forwards
      obtain ⟨reading, positive, _, available, rfl⟩ :=
        Pair.step?_read stepped
      rw [Pair.direction_setDirection_same]
      simp only [Direction.work, reading, Forward.work,
        List.length_drop, List.length_take_of_le available]
      omega
  | readEof y =>
      obtain rfl : y = x := beq_iff_eq.mp forwards
      obtain ⟨reading, _, _, rfl⟩ := Pair.step?_readEof stepped
      rw [Pair.direction_setDirection_same]
      simp only [Direction.work, Direction.finish, reading,
        Forward.work]
      omega
  | readFails y =>
      obtain rfl : y = x := beq_iff_eq.mp forwards
      obtain ⟨reading, rfl⟩ := Pair.step?_readFails stepped
      rw [Pair.direction_setDirection_same]
      simp only [Direction.work, Direction.finish, reading,
        Forward.work]
      omega
  | snapshot y =>
      obtain rfl : y = x := beq_iff_eq.mp forwards
      obtain ⟨buf, filled, rfl⟩ := Pair.step?_snapshot stepped
      rw [Pair.direction_setDirection_same]
      have bound := work_enterLoop pair.knobs buf 0
      have before : (Forward.filled buf).work = 2 * buf.length + 2 :=
        rfl
      simp only [Direction.work, filled, before]
      omega
  | decide y | write y count =>
      obtain ⟨lower, same⟩ := inner_lowers sound stepped forwards
      rw [Direction.work, Direction.work, same]
      omega
  | writeFails y =>
      obtain rfl : y = x := beq_iff_eq.mp forwards
      obtain ⟨k, buf, off, size, here, _, rfl⟩ :=
        Pair.step?_writeFails stepped
      have inside := sound.forward
      simp only [here, Forward.Sound] at inside
      rw [Pair.direction_setDirection_same]
      simp only [Direction.work, Direction.finish, here, Forward.work]
      omega
  | send y bytes | receive y count | closeUser y | setKnobs k
  | writeBroken y =>
      exact absurd forwards Bool.false_ne_true

/-- Only its own steps move the forwarder, and only a user adds bytes. -/
theorem forward_of_not_forwards
    (stepped : pair.step? label = some next)
    (others : label.forwards x = false) :
    (next.direction x).forward = (pair.direction x).forward ∧
      (pair.closed x = true →
        (next.direction x).source = (pair.direction x).source) := by
  by_cases acts : label.direction? = some x
  · cases label with
    | send y bytes =>
        obtain rfl : y = x := Option.some.inj acts
        obtain ⟨stillOpen, rfl⟩ := Pair.step?_send stepped
        rw [Pair.direction_setDirection_same]
        refine ⟨rfl, fun closed => ?_⟩
        rw [stillOpen] at closed
        exact absurd closed Bool.false_ne_true
    | receive y count =>
        obtain rfl : y.other = x := Option.some.inj acts
        obtain ⟨_, _, _, rfl⟩ := Pair.step?_receive stepped
        rw [Pair.direction_setDirection_same]
        exact ⟨rfl, fun _ => rfl⟩
    | writeBroken y =>
        obtain ⟨_, _, _, _, _, _, rfl⟩ := Pair.step?_writeBroken stepped
        exact ⟨rfl, fun _ => rfl⟩
    | closeUser y | setKnobs k =>
        exact absurd acts (by simp [Label.direction?])
    | read y count | readEof y | readFails y | snapshot y | decide y
    | write y count | writeFails y =>
        have own := Option.some.inj acts
        simp [Label.forwards, own] at others
  · rw [Pair.direction_of_elsewhere stepped acts]
    exact ⟨rfl, fun _ => rfl⟩

/-- A closed user end stays closed. -/
theorem closed_step
    (stepped : pair.step? label = some next)
    (closed : pair.closed x = true) :
    next.closed x = true := by
  cases Pair.change_of_step? stepped with
  | moves y direction acts whole | sets k | breaks y =>
      exact closed
  | closes y =>
      by_cases same : x = y
      · subst same
        exact Function.update_self x true pair.closed
      · exact (Function.update_of_ne same true pair.closed).trans closed

/-- A forwarder that returned has read EOF: its user end is gone. -/
def ReachedEof (x : End) (pair : Pair) : Prop :=
  (pair.direction x).forward = .returned →
    pair.closed x = true ∧ (pair.direction x).source = []

/-- Without failing calls, only EOF makes a forwarder return. -/
theorem ReachedEof.step
    (reached : ReachedEof x pair)
    (readsOn : label ≠ .readFails x)
    (writesOn : label ≠ .writeFails x)
    (stepped : pair.step? label = some next) :
    ReachedEof x next := by
  intro returned
  cases forwards : label.forwards x with
  | false =>
      obtain ⟨forward, source⟩ :=
        forward_of_not_forwards stepped forwards
      obtain ⟨closed, drained⟩ := reached (forward ▸ returned)
      exact ⟨closed_step stepped closed,
        (source closed).trans drained⟩
  | true =>
      cases label with
      | readEof y =>
          obtain rfl : y = x := beq_iff_eq.mp forwards
          obtain ⟨_, drained, closed, rfl⟩ :=
            Pair.step?_readEof stepped
          rw [Pair.direction_setDirection_same]
          exact ⟨closed, drained⟩
      | read y count =>
          obtain rfl : y = x := beq_iff_eq.mp forwards
          obtain ⟨_, _, _, _, rfl⟩ := Pair.step?_read stepped
          rw [Pair.direction_setDirection_same] at returned
          exact absurd returned (by simp)
      | snapshot y =>
          obtain rfl : y = x := beq_iff_eq.mp forwards
          obtain ⟨buf, _, rfl⟩ := Pair.step?_snapshot stepped
          rw [Pair.direction_setDirection_same] at returned
          exact absurd returned (sound_enterLoop pair.knobs buf 0).2
      | decide y =>
          obtain rfl : y = x := beq_iff_eq.mp forwards
          obtain ⟨k, buf, off, _, rfl⟩ := Pair.step?_decide stepped
          rw [Pair.direction_setDirection_same] at returned
          simp only [Direction.decideChunk] at returned
          split at returned
          · exact absurd returned (sound_enterLoop k buf _).2
          · exact absurd returned (by simp)
      | write y count =>
          obtain rfl : y = x := beq_iff_eq.mp forwards
          obtain ⟨k, buf, off, _, _, _, _, _, rfl⟩ :=
            Pair.step?_write stepped
          rw [Pair.direction_setDirection_same] at returned
          exact absurd returned (sound_enterLoop k buf _).2
      | readFails y =>
          obtain rfl : y = x := beq_iff_eq.mp forwards
          exact absurd rfl readsOn
      | writeFails y =>
          obtain rfl : y = x := beq_iff_eq.mp forwards
          exact absurd rfl writesOn
      | send y bytes | receive y count | closeUser y | setKnobs k
      | writeBroken y =>
          exact absurd forwards Bool.false_ne_true

/-- The forwarder stands at its write. -/
def Forward.writing : Forward → Bool
  | .atWrite _ _ _ _ => true
  | .reading | .filled _ | .atLoss _ _ _ | .returned => false

/-- The forwarder stands inside its inner loop. -/
def Forward.looping : Forward → Bool
  | .atLoss _ _ _ | .atWrite _ _ _ _ => true
  | .reading | .filled _ | .returned => false

/--
Inside its inner loop a forwarder can go on, unless it stands at a write to a
closed end.
-/
theorem inner_enabled
    (alive : pair.killed = false)
    (sound : (pair.direction x).Sound)
    (farOpen :
      (pair.direction x).forward.writing = true →
        pair.closed x.other = false)
    (looping : (pair.direction x).forward.looping = true) :
    ∃ label, label.inner x = true ∧ (pair.step? label).isSome := by
  have forward := sound.forward
  cases here : (pair.direction x).forward with
  | atLoss k buf off =>
      exact ⟨.decide x, beq_self_eq_true x,
        by simp [Pair.step?, Pair.stepAlive?, alive, here]⟩
  | atWrite k buf off size =>
      simp only [here, Forward.Sound] at forward
      have stillOpen := farOpen (by rw [here]; rfl)
      have one : 1 ≤ size :=
        forward.2 ▸ thisChunk_pos k forward.1
      exact ⟨.write x 1, beq_self_eq_true x,
        by simp [Pair.step?, Pair.stepAlive?, alive, here, stillOpen,
          one]⟩
  | reading | filled buf | returned =>
      rw [here] at looping
      exact absurd looping Bool.false_ne_true

/-- A step of the inner loop is a step of the forwarder. -/
theorem forwards_of_inner
    (inner : label.inner x = true) :
    label.forwards x = true := by
  cases label with
  | decide y | write y count =>
      exact inner
  | _ =>
      exact absurd inner Bool.false_ne_true

/-- Once its user end is closed the forwarder can go on until it returns. -/
theorem forwards_enabled
    (alive : pair.killed = false)
    (sound : (pair.direction x).Sound)
    (farOpen :
      (pair.direction x).forward.writing = true →
        pair.closed x.other = false)
    (closed : pair.closed x = true)
    (running : (pair.direction x).forward ≠ .returned) :
    ∃ label, label.forwards x = true ∧ (pair.step? label).isSome := by
  have goesOn
      (looping : (pair.direction x).forward.looping = true) :
      ∃ label,
        label.forwards x = true ∧ (pair.step? label).isSome := by
    obtain ⟨label, inner, enabled⟩ :=
      inner_enabled alive sound farOpen looping
    exact ⟨label, forwards_of_inner inner, enabled⟩
  cases here : (pair.direction x).forward with
  | reading =>
      cases source : (pair.direction x).source with
      | nil =>
          exact ⟨.readEof x, beq_self_eq_true x,
            by simp [Pair.step?, Pair.stepAlive?, alive, here, source,
              closed]⟩
      | cons byte rest =>
          exact ⟨.read x 1, beq_self_eq_true x,
            by simp [Pair.step?, Pair.stepAlive?, alive, here, source,
              bufSize]⟩
  | filled buf =>
      exact ⟨.snapshot x, beq_self_eq_true x,
        by simp [Pair.step?, Pair.stepAlive?, alive, here]⟩
  | atLoss k buf off =>
      exact goesOn (by rw [here]; rfl)
  | atWrite k buf off size =>
      exact goesOn (by rw [here]; rfl)
  | returned =>
      exact absurd here running

end Progress

section Bounds

variable
  {x : End}
  {pair final : Pair}
  {later : List Label}

/-- Between two reads the forwarder's inner loop is bounded by its buffer. -/
theorem countP_inner_le
    (sound : (pair.direction x).Sound)
    (ran : pair.run? later = some final)
    (noRead : ∀ label ∈ later, label.reads x = false) :
    later.countP (Label.inner x) ≤
      (pair.direction x).forward.work := by
  have preserved :
      ∀ {before : Pair} {label : Label} {after : Pair},
        (before.direction x).Sound →
        label.reads x = false →
        before.step? label = some after →
        (after.direction x).Sound :=
    fun holds _ stepped => sound_step holds stepped
  refine Transition.countP_productive_le (Label.inner x)
    (fun pair : Pair => (pair.direction x).forward.work) preserved
    ?_ ?_ ran (Transition.eachStep_of_forall noRead pair) sound
  · intro before label after holds _ stepped inner
    exact (inner_lowers holds stepped inner).1
  · intro before label after holds noRead stepped outer
    cases forwards : label.forwards x with
    | false =>
        rw [(forward_of_not_forwards stepped forwards).1]
    | true =>
        have lower := forwards_lowers holds stepped forwards
        cases label with
        | readEof y =>
            obtain rfl : y = x := beq_iff_eq.mp forwards
            obtain ⟨_, _, _, rfl⟩ := Pair.step?_readEof stepped
            rw [Pair.direction_setDirection_same]
            exact Nat.zero_le _
        | readFails y =>
            obtain rfl : y = x := beq_iff_eq.mp forwards
            obtain ⟨_, rfl⟩ := Pair.step?_readFails stepped
            rw [Pair.direction_setDirection_same]
            exact Nat.zero_le _
        | writeFails y =>
            obtain rfl : y = x := beq_iff_eq.mp forwards
            obtain ⟨_, _, _, _, _, _, rfl⟩ :=
              Pair.step?_writeFails stepped
            rw [Pair.direction_setDirection_same]
            exact Nat.zero_le _
        | snapshot y =>
            obtain rfl : y = x := beq_iff_eq.mp forwards
            obtain ⟨buf, filled, rfl⟩ := Pair.step?_snapshot stepped
            rw [Pair.direction_setDirection_same] at lower ⊢
            exact Nat.le_of_lt (Nat.lt_of_add_lt_add_left lower)
        | read y count =>
            exact absurd (noRead.symm.trans forwards)
              Bool.false_ne_true
        | _ =>
            exact absurd (outer.symm.trans forwards)
              Bool.false_ne_true

/-- Once its user end is closed the forwarder has a bounded way to go. -/
theorem countP_forwards_le
    (sound : (pair.direction x).Sound)
    (closed : pair.closed x = true)
    (ran : pair.run? later = some final) :
    later.countP (Label.forwards x) ≤ (pair.direction x).work := by
  have preserved :
      ∀ {before : Pair} {label : Label} {after : Pair},
        (before.direction x).Sound ∧ before.closed x = true →
        True →
        before.step? label = some after →
        (after.direction x).Sound ∧ after.closed x = true :=
    fun holds _ stepped =>
      ⟨sound_step holds.1 stepped, closed_step stepped holds.2⟩
  refine Transition.countP_productive_le (Label.forwards x)
    (fun pair : Pair => (pair.direction x).work) preserved
    ?_ ?_ ran
    (Transition.eachStep_of_forall (fun _ _ => trivial) pair)
    ⟨sound, closed⟩
  · intro before label after holds _ stepped forwards
    exact forwards_lowers holds.1 stepped forwards
  · intro before label after holds _ stepped others
    obtain ⟨forward, source⟩ := forward_of_not_forwards stepped others
    rw [Direction.work, Direction.work, forward, source holds.2]

end Bounds

end FailurePlayground.ChaosNet
