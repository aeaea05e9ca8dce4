import FailurePlayground.NetProgress

namespace FailurePlayground.ChaosNet

/-!
# Integrity of the proxy without loss

While no knobs in force allow loss, the bytes delivered, the bytes in the
forwarder's buffer and the bytes waiting to be read are together exactly the
bytes sent, whatever the chunk size, the read sizes and the short writes.
-/

section Guard

/--
The steps of a run in which no knobs allow loss, the far end of direction `x`
stays open, and no call of its forwarder fails.
-/
def Lossless (x : End) (_ : Pair) : Label → Prop
  | .setKnobs k => k.lossProb.gtZero = false
  | .closeUser y => y = x
  | .readFails y | .writeFails y => y ≠ x
  | .writeBroken _ => False
  | _ => True

instance (x : End) (pair : Pair) (label : Label) :
    Decidable (Lossless x pair label) :=
  match label with
  | .setKnobs k =>
      inferInstanceAs (Decidable (k.lossProb.gtZero = false))
  | .closeUser y => inferInstanceAs (Decidable (y = x))
  | .readFails y | .writeFails y => inferInstanceAs (Decidable (y ≠ x))
  | .writeBroken _ => inferInstanceAs (Decidable False)
  | .send _ _ | .receive _ _ | .read _ _ | .readEof _ | .snapshot _
  | .decide _ | .write _ _ => inferInstanceAs (Decidable True)

end Guard

section Invariant

/-- The knobs a forwarder works with allow no loss. -/
def Forward.Lossless : Forward → Prop
  | .atLoss k _ _ | .atWrite k _ _ _ => k.lossProb.gtZero = false
  | .reading | .filled _ | .returned => True

/-- Direction `x` holds every byte sent, in order. -/
structure Intact
    (x : End)
    (sent : List UInt8)
    (pair : Pair) : Prop where
  alive : pair.killed = false
  lossless : pair.knobs.lossProb.gtZero = false
  farOpen : pair.closed x.other = false
  bytes :
    (pair.direction x).delivered ++
        ((pair.direction x).forward.unread ++
          (pair.direction x).source) = sent
  sound : (pair.direction x).Sound
  forward : (pair.direction x).forward.Lossless
  reachedEof : ReachedEof x pair

/-- Entering the inner loop keeps the knobs. -/
theorem lossless_enterLoop
    {k : Knobs}
    (lossless : k.lossProb.gtZero = false)
    (buf : List UInt8)
    (off : Nat) :
    (enterLoop k buf off).Lossless := by
  by_cases inside : off < buf.length
  · simp only [enterLoop, inside, ↓reduceIte, Forward.Lossless,
      lossless]
  · simp only [enterLoop, inside, ↓reduceIte, Forward.Lossless]

/-- Without loss a decision only offers the chunk to a write. -/
theorem decideChunk_lossless
    {k : Knobs}
    (lossless : k.lossProb.gtZero = false)
    (direction : Direction)
    (buf : List UInt8)
    (off : Nat) :
    direction.decideChunk k buf off =
      { direction with
        forward := .atWrite k buf off (thisChunk k buf off)
        rng := (delayDraw k direction.rng).2 } := by
  simp only [Direction.decideChunk, lossDraw, lossless,
    Bool.false_eq_true, ↓reduceIte]

variable
  {x : End}
  {earlier : List Label}
  {pair next : Pair}
  {label : Label}

/-- A step conserves the bytes of direction `x` and keeps its knobs. -/
theorem Intact.conserves
    (intact : Intact x (sentFrom x earlier).flatten pair)
    (guarded : ChaosNet.Lossless x pair label)
    (stepped : pair.step? label = some next) :
    (next.direction x).delivered ++
          ((next.direction x).forward.unread ++
            (next.direction x).source) =
        (sentFrom x (earlier ++ [label])).flatten ∧
      (next.direction x).forward.Lossless := by
  have bytes := intact.bytes
  have forward := intact.forward
  by_cases acts : label.direction? = some x
  · cases label with
    | send y sent =>
        obtain rfl : y = x := Option.some.inj acts
        obtain ⟨_, rfl⟩ := Pair.step?_send stepped
        rw [Pair.direction_setDirection_same]
        refine ⟨?_, forward⟩
        rw [sentFrom_send, List.flatten_append,
          List.flatten_singleton, ← bytes]
        simp only [Direction.delivered, List.append_assoc]
    | receive y count =>
        obtain rfl : y.other = x := Option.some.inj acts
        obtain ⟨_, _, _, rfl⟩ := Pair.step?_receive stepped
        rw [Pair.direction_setDirection_same]
        refine ⟨?_, forward⟩
        rw [sentFrom_of_not_send (by simp), delivered_receive]
        exact bytes
    | closeUser y | setKnobs k =>
        exact absurd acts (by simp [Label.direction?])
    | read y count =>
        obtain rfl : y = x := Option.some.inj acts
        obtain ⟨reading, _, _, _, rfl⟩ := Pair.step?_read stepped
        rw [Pair.direction_setDirection_same]
        simp only [reading, Forward.unread, List.nil_append] at bytes
        refine ⟨?_, trivial⟩
        rw [sentFrom_of_not_send (by simp), Forward.unread,
          List.take_append_drop]
        exact bytes
    | readEof y =>
        obtain rfl : y = x := Option.some.inj acts
        obtain ⟨reading, _, _, rfl⟩ := Pair.step?_readEof stepped
        rw [Pair.direction_setDirection_same]
        simp only [reading, Forward.unread] at bytes
        refine ⟨?_, trivial⟩
        rw [sentFrom_of_not_send (by simp)]
        exact bytes
    | readFails y | writeFails y =>
        exact absurd (Option.some.inj acts) guarded
    | snapshot y =>
        obtain rfl : y = x := Option.some.inj acts
        obtain ⟨buf, filled, rfl⟩ := Pair.step?_snapshot stepped
        rw [Pair.direction_setDirection_same]
        simp only [filled, Forward.unread] at bytes
        refine ⟨?_, lossless_enterLoop intact.lossless buf 0⟩
        rw [sentFrom_of_not_send (by simp), unread_enterLoop,
          List.drop_zero]
        exact bytes
    | decide y =>
        obtain rfl : y = x := Option.some.inj acts
        obtain ⟨k, buf, off, here, rfl⟩ := Pair.step?_decide stepped
        simp only [here, Forward.unread] at bytes
        simp only [here, Forward.Lossless] at forward
        rw [Pair.direction_setDirection_same,
          decideChunk_lossless forward]
        refine ⟨?_, forward⟩
        rw [sentFrom_of_not_send (by simp)]
        exact bytes
    | write y count =>
        obtain rfl : y = x := Option.some.inj acts
        obtain ⟨k, buf, off, size, here, _, _, _, rfl⟩ :=
          Pair.step?_write stepped
        simp only [here, Forward.unread] at bytes
        simp only [here, Forward.Lossless] at forward
        rw [Pair.direction_setDirection_same]
        refine ⟨?_, lossless_enterLoop forward buf _⟩
        rw [sentFrom_of_not_send (by simp), delivered_wroteChunk,
          ← bytes, Direction.wroteChunk, unread_enterLoop,
          ← List.drop_drop, List.append_assoc]
        congr 1
        rw [← List.append_assoc, List.take_append_drop]
    | writeBroken y =>
        exact absurd guarded id
  · rw [Pair.direction_of_elsewhere stepped acts, sentFrom_of_not_send]
    · exact ⟨bytes, forward⟩
    · intro bytes isSend
      exact acts (by rw [isSend]; rfl)

/-- Every lossless step keeps direction `x` intact. -/
theorem Intact.step
    (intact : Intact x (sentFrom x earlier).flatten pair)
    (guarded : ChaosNet.Lossless x pair label)
    (stepped : pair.step? label = some next) :
    Intact x (sentFrom x (earlier ++ [label])).flatten next := by
  obtain ⟨bytes, forward⟩ := intact.conserves guarded stepped
  have notBroken : ∀ y, label ≠ .writeBroken y := by
    intro y same
    rw [same] at guarded
    exact guarded
  have readsOn : label ≠ .readFails x := by
    intro same
    rw [same] at guarded
    exact guarded rfl
  have writesOn : label ≠ .writeFails x := by
    intro same
    rw [same] at guarded
    exact guarded rfl
  refine {
    alive := Pair.killed_of_not_writeBroken stepped notBroken
    lossless := ?_
    farOpen := ?_
    bytes := bytes
    sound := sound_step intact.sound stepped
    forward := forward
    reachedEof := intact.reachedEof.step readsOn writesOn stepped
  }
  · cases Pair.change_of_step? stepped with
    | moves y direction acts whole | closes y | breaks y =>
        exact intact.lossless
    | sets k =>
        exact guarded
  · cases Pair.change_of_step? stepped with
    | moves y direction acts whole | sets k | breaks y =>
        exact intact.farOpen
    | closes y =>
        obtain rfl : y = x := guarded
        exact (Function.update_of_ne (End.other_ne y) _ _).trans
          intact.farOpen

/-- Every lossless run keeps direction `x` intact. -/
theorem Intact.run
    {k : Knobs}
    {seed : UInt64}
    {labels : List Label}
    (lossless : k.lossProb.gtZero = false)
    (ran : (Pair.start k seed).run? labels = some pair)
    (guarded :
      Transition.EachStep Pair.step? (ChaosNet.Lossless x)
        (Pair.start k seed) labels) :
    Intact x (sentFrom x labels).flatten pair := by
  refine Transition.run?_history
    (fun earlier pair => Intact x (sentFrom x earlier).flatten pair) ?_
    (fun holds guardedStep stepped => holds.step guardedStep stepped)
    ran guarded
  exact {
    alive := rfl
    lossless := lossless
    farOpen := rfl
    bytes := rfl
    sound := ⟨trivial, by simp [Pair.start]⟩
    forward := trivial
    reachedEof := fun returned => by simp [Pair.start] at returned
  }

end Invariant

section Snapshots

/--
What a step does to the knobs in force, and to those that `chaos_net_pair`'s
forwarder `x` took for the read it is working on.
-/
def Label.record
    (x : End)
    (inForce : Knobs × Option Knobs) : Label → Knobs × Option Knobs
  | .setKnobs k => (k, inForce.2)
  | .snapshot y =>
      if y = x then (inForce.1, some inForce.1) else inForce
  | .send _ _ | .receive _ _ | .closeUser _ | .read _ _ | .readEof _
  | .readFails _ | .decide _ | .write _ _ | .writeFails _
  | .writeBroken _ => inForce

/-- The knobs in force after a run, with those of the last snapshot of `x`. -/
def recorded
    (x : End)
    (k : Knobs)
    (labels : List Label) : Knobs × Option Knobs :=
  labels.foldl (Label.record x) (k, none)

/-- The knobs that were in force at the last snapshot of forwarder `x`. -/
def snapshotInForce
    (x : End)
    (k : Knobs)
    (labels : List Label) : Option Knobs :=
  (recorded x k labels).2

/-- One more step updates the record. -/
theorem recorded_append
    (x : End)
    (k : Knobs)
    (labels : List Label)
    (label : Label) :
    recorded x k (labels ++ [label]) =
      label.record x (recorded x k labels) := by
  simp only [recorded, List.foldl_append, List.foldl_cons,
    List.foldl_nil]

/-- Inside its inner loop a forwarder works with the knobs given. -/
def Forward.WorksWith (taken : Option Knobs) : Forward → Prop
  | .atLoss k _ _ | .atWrite k _ _ _ => taken = some k
  | .reading | .filled _ | .returned => True

/-- Entering the inner loop with some knobs works with them. -/
theorem worksWith_enterLoop
    (k : Knobs)
    (buf : List UInt8)
    (off : Nat) :
    (enterLoop k buf off).WorksWith (some k) := by
  by_cases inside : off < buf.length
  · simp only [enterLoop, inside, ↓reduceIte, Forward.WorksWith]
  · simp only [enterLoop, inside, ↓reduceIte, Forward.WorksWith]

/-- A decision keeps working with the same knobs. -/
theorem worksWith_decideChunk
    (direction : Direction)
    (k : Knobs)
    (buf : List UInt8)
    (off : Nat) :
    (direction.decideChunk k buf off).forward.WorksWith (some k) := by
  simp only [Direction.decideChunk]
  split
  · exact worksWith_enterLoop k buf _
  · exact rfl

/-- The record agrees with the pair and with the forwarder's own copy. -/
structure Recorded
    (x : End)
    (inForce : Knobs × Option Knobs)
    (pair : Pair) : Prop where
  knobs : inForce.1 = pair.knobs
  works : (pair.direction x).forward.WorksWith inForce.2

variable
  {x : End}
  {inForce : Knobs × Option Knobs}
  {pair next : Pair}
  {label : Label}

/-- Every step of the forwarder of `x` keeps the record. -/
theorem Recorded.own_step
    (before : Recorded x inForce pair)
    (acts : label.direction? = some x)
    (stepped : pair.step? label = some next) :
    (next.direction x).forward.WorksWith (label.record x inForce).2 := by
  have works := before.works
  cases label with
  | send y bytes =>
      obtain rfl : y = x := Option.some.inj acts
      obtain ⟨_, rfl⟩ := Pair.step?_send stepped
      rw [Pair.direction_setDirection_same]
      exact works
  | receive y count =>
      obtain rfl : y.other = x := Option.some.inj acts
      obtain ⟨_, _, _, rfl⟩ := Pair.step?_receive stepped
      rw [Pair.direction_setDirection_same]
      exact works
  | closeUser y | setKnobs k =>
      exact absurd acts (by simp [Label.direction?])
  | read y count =>
      obtain rfl : y = x := Option.some.inj acts
      obtain ⟨_, _, _, _, rfl⟩ := Pair.step?_read stepped
      rw [Pair.direction_setDirection_same]
      exact trivial
  | readEof y =>
      obtain rfl : y = x := Option.some.inj acts
      obtain ⟨_, _, _, rfl⟩ := Pair.step?_readEof stepped
      rw [Pair.direction_setDirection_same]
      exact trivial
  | readFails y =>
      obtain rfl : y = x := Option.some.inj acts
      obtain ⟨_, rfl⟩ := Pair.step?_readFails stepped
      rw [Pair.direction_setDirection_same]
      exact trivial
  | snapshot y =>
      obtain rfl : y = x := Option.some.inj acts
      obtain ⟨buf, _, rfl⟩ := Pair.step?_snapshot stepped
      rw [Pair.direction_setDirection_same]
      simp only [Label.record, ↓reduceIte, before.knobs]
      exact worksWith_enterLoop pair.knobs buf 0
  | decide y =>
      obtain rfl : y = x := Option.some.inj acts
      obtain ⟨k, buf, off, here, rfl⟩ := Pair.step?_decide stepped
      rw [Pair.direction_setDirection_same]
      simp only [here, Forward.WorksWith] at works
      simp only [Label.record, works]
      exact worksWith_decideChunk _ k buf off
  | write y count =>
      obtain rfl : y = x := Option.some.inj acts
      obtain ⟨k, buf, off, size, here, _, _, _, rfl⟩ :=
        Pair.step?_write stepped
      rw [Pair.direction_setDirection_same]
      simp only [here, Forward.WorksWith] at works
      simp only [Label.record, works]
      exact worksWith_enterLoop k buf _
  | writeFails y =>
      obtain rfl : y = x := Option.some.inj acts
      obtain ⟨_, _, _, _, _, rfl⟩ := Pair.step?_writeFails stepped
      rw [Pair.direction_setDirection_same]
      exact trivial
  | writeBroken y =>
      obtain ⟨_, _, _, _, _, _, rfl⟩ := Pair.step?_writeBroken stepped
      exact works

/-- A step elsewhere leaves the last snapshot of `x` alone. -/
theorem record_of_elsewhere
    (elsewhere : label.direction? ≠ some x) :
    (label.record x inForce).2 = inForce.2 := by
  cases label with
  | snapshot y =>
      have other : y ≠ x := by
        rintro rfl
        exact elsewhere rfl
      simp only [Label.record, other, ↓reduceIte]
  | _ =>
      rfl

/-- Only setting the knobs changes the knobs in force. -/
theorem record_fst
    (stepped : pair.step? label = some next)
    (agrees : inForce.1 = pair.knobs) :
    (label.record x inForce).1 = next.knobs := by
  by_cases sets : ∃ k, label = .setKnobs k
  · obtain ⟨k, rfl⟩ := sets
    obtain rfl := Pair.step?_setKnobs stepped
    rfl
  · rw [Pair.knobs_of_not_setKnobs stepped
      fun k same => sets ⟨k, same⟩, ← agrees]
    cases label with
    | setKnobs k =>
        exact absurd ⟨k, rfl⟩ sets
    | snapshot y =>
        simp only [Label.record]
        split
        · rfl
        · rfl
    | _ =>
        rfl

/-- Every step keeps the record in agreement with the pair. -/
theorem Recorded.step
    (before : Recorded x inForce pair)
    (stepped : pair.step? label = some next) :
    Recorded x (label.record x inForce) next where
  knobs := record_fst stepped before.knobs
  works := by
    by_cases acts : label.direction? = some x
    · exact before.own_step acts stepped
    · rw [Pair.direction_of_elsewhere stepped acts,
        record_of_elsewhere acts]
      exact before.works

/-- After every run the record agrees with the pair. -/
theorem Recorded.run
    {k : Knobs}
    {seed : UInt64}
    {labels : List Label}
    (ran : (Pair.start k seed).run? labels = some pair) :
    Recorded x (recorded x k labels) pair := by
  refine Transition.run?_history
    (fun earlier pair => Recorded x (recorded x k earlier) pair)
    ?_ ?_ ran (Transition.eachStep_of_forall (fun _ _ => trivial) _)
  · exact {
      knobs := rfl
      works := trivial
    }
  · intro earlier state label next before _ stepped
    rw [recorded_append]
    exact before.step stepped

end Snapshots

/-- What a lossless run guarantees about direction `x`. -/
structure Integrity
    (x : End)
    (k : Knobs)
    (labels : List Label)
    (pair : Pair) : Prop where
  inOrder :
    (pair.direction x).delivered ++
        ((pair.direction x).forward.unread ++
          (pair.direction x).source) =
      (sentFrom x labels).flatten
  /-- The inner loop never runs past what its last read filled. -/
  innerBounded :
    ∀ later final,
      pair.run? later = some final →
      (∀ label ∈ later, label.reads x = false) →
      later.countP (Label.inner x) ≤ (pair.direction x).forward.work
  innerEnabled :
    (pair.direction x).forward.looping = true →
      ∃ label, label.inner x = true ∧ (pair.step? label).isSome
  /-- A write asks for, and moves, no more than the last snapshot allows. -/
  chunked :
    ∀ taken buf off size,
      (pair.direction x).forward = .atWrite taken buf off size →
      ∃ inForce,
        snapshotInForce x k labels = some inForce ∧
          (0 < inForce.maxChunkBytes →
            (size : Int) ≤ inForce.maxChunkBytes ∧
              ∀ count next,
                pair.step? (.write x count) = some next →
                (count : Int) ≤ inForce.maxChunkBytes)
  /-- EOF comes after the last byte, and is on its way once closed. -/
  atEof :
    (pair.direction x).ended = true →
      (pair.direction x).forward = .returned ∧
        (pair.direction x).delivered = (sentFrom x labels).flatten
  eofBounded :
    pair.closed x = true →
      ∀ later final,
        pair.run? later = some final →
        later.countP (Label.forwards x) ≤ (pair.direction x).work
  eofEnabled :
    pair.closed x = true →
      (pair.direction x).ended = false →
      ∃ label, label.forwards x = true ∧ (pair.step? label).isSome

/--
Without loss the proxy delivers exactly the bytes sent, then EOF, for every
splitting of reads and writes and every change of the other knobs.
-/
theorem losslessIntegrity
    (k : Knobs)
    (seed : UInt64)
    (x : End)
    (labels : List Label)
    (pair : Pair)
    (lossless : k.lossProb.gtZero = false)
    (ran : (Pair.start k seed).run? labels = some pair)
    (guarded :
      Transition.EachStep Pair.step? (Lossless x)
        (Pair.start k seed) labels) :
    Integrity x k labels pair := by
  have intact : Intact x (sentFrom x labels).flatten pair :=
    Intact.run lossless ran guarded
  exact {
    inOrder := intact.bytes
    innerBounded := fun _ _ ranLater noRead =>
      countP_inner_le intact.sound ranLater noRead
    innerEnabled :=
      inner_enabled intact.alive intact.sound fun _ => intact.farOpen
    chunked := by
      intro taken buf off size here
      have works : (pair.direction x).forward.WorksWith
          (snapshotInForce x k labels) := (Recorded.run ran).works
      have forward := intact.sound.forward
      simp only [here, Forward.WorksWith] at works
      simp only [here, Forward.Sound] at forward
      refine ⟨taken, works, fun positive => ?_⟩
      have capped := thisChunk_le_maxChunkBytes positive buf off
      rw [← forward.2] at capped
      refine ⟨capped, fun count next stepped => ?_⟩
      obtain ⟨_, _, _, _, there, _, _, within, _⟩ :=
        Pair.step?_write stepped
      obtain ⟨_, _, _, rfl⟩ :=
        Forward.atWrite.inj (here.symm.trans there)
      omega
    atEof := by
      intro ended
      have returned := intact.sound.ended.mp ended
      have bytes := intact.bytes
      rw [returned, (intact.reachedEof returned).2, Forward.unread,
        List.append_nil, List.append_nil] at bytes
      exact ⟨returned, bytes⟩
    eofBounded := fun closed _ _ ranLater =>
      countP_forwards_le intact.sound closed ranLater
    eofEnabled := by
      intro closed notEnded
      refine forwards_enabled intact.alive intact.sound
        (fun _ => intact.farOpen) closed fun returned => ?_
      rw [intact.sound.ended.mpr returned] at notEnded
      exact Bool.noConfusion notEnded
  }

/-- Knobs that do nothing, and a meaningless chunk size. -/
def quietKnobs : Knobs where
  lossProb := .finite 0
  delayMinNs := 0
  delayMaxNs := 0
  maxChunkBytes := -1

/-- Three bytes cross in two reads, a short write and a change of knobs. -/
def threeBytesRun : List Label :=
  [.send .a [1, 2, 3], .read .a 2, .snapshot .a, .decide .a,
    .write .a 1, .setKnobs { quietKnobs with maxChunkBytes := 1 },
    .decide .a, .write .a 1, .read .a 1, .snapshot .a, .decide .a,
    .write .a 1, .closeUser .a, .readEof .a]

theorem losslessIntegrity_threeBytes :
    ∃ pair,
      (Pair.start quietKnobs 7).run? threeBytesRun = some pair ∧
        (pair.direction .a).ended = true ∧
        (pair.direction .a).delivered = [1, 2, 3] := by
  have ends :
      ((Pair.start quietKnobs 7).run? threeBytesRun).any
        (fun pair => (pair.direction .a).ended) = true := by
    decide +kernel
  have guarded :
      Transition.EachStep Pair.step? (Lossless .a)
        (Pair.start quietKnobs 7) threeBytesRun := by
    decide +kernel
  obtain ⟨pair, ran, ended⟩ := (Option.any_eq_true _ _).mp ends
  have integrity := losslessIntegrity quietKnobs 7 .a threeBytesRun
    pair (by decide) ran guarded
  exact ⟨pair, ran, ended, (integrity.atEof ended).2⟩

end FailurePlayground.ChaosNet
