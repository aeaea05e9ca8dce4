import Mathlib.Algebra.Order.Field.Basic
import Mathlib.Algebra.Order.Field.Rat
import Mathlib.Tactic.Positivity
import Mathlib.Tactic.NormNum
import FailurePlayground.NetProgress

namespace FailurePlayground.ChaosNet

/-!
# Seeded loss as a filter on messages

With fixed knobs and messages of exactly the chunk size, the forwarder drops
whole messages.  The reference filter below decides each message from the
direction's generator alone, so what is delivered does not depend on how the
forwarder's reads batch the messages.
-/

section Reference

/-- One message of the reference filter: whether it is kept, and the draws. -/
def referenceDraw (k : Knobs) (rng : PgXosh) : Bool × PgXosh :=
  let (kept, rng) :=
    if k.lossProb.gtZero then
      (!k.lossProb.exceeds ((top53 rng : ℚ) / 2 ^ 53),
        (pgXoshNext rng).2)
    else
      (true, rng)
  if kept ∧ k.delayMaxNs > 0 ∧ k.delayMaxNs > k.delayMinNs then
    (kept, (pgXoshNext rng).2)
  else
    (kept, rng)

/-- The generator after some messages. -/
def referenceRng
    (k : Knobs)
    (rng : PgXosh)
    (messages : List (List UInt8)) : PgXosh :=
  messages.foldl (fun rng _ => (referenceDraw k rng).2) rng

/-- The messages the reference filter keeps. -/
def referenceFilter
    (k : Knobs) :
    PgXosh → List (List UInt8) → List (List UInt8)
  | _, [] =>
      []
  | rng, message :: rest =>
      let (kept, rng) := referenceDraw k rng
      if kept then
        message :: referenceFilter k rng rest
      else
        referenceFilter k rng rest

/-- The filter decides a further message from the generator it reached. -/
theorem referenceFilter_append
    (k : Knobs)
    (rng : PgXosh)
    (first second : List (List UInt8)) :
    referenceFilter k rng (first ++ second) =
      referenceFilter k rng first ++
        referenceFilter k (referenceRng k rng first) second := by
  induction first generalizing rng with
  | nil =>
      rfl
  | cons message rest inductionHypothesis =>
      simp only [List.cons_append, referenceFilter, referenceRng,
        List.foldl_cons]
      rw [inductionHypothesis]
      split <;> rfl

/-- A kept message is appended. -/
theorem referenceFilter_snoc_kept
    {k : Knobs}
    {rng : PgXosh}
    {earlier : List (List UInt8)}
    (kept : (referenceDraw k (referenceRng k rng earlier)).1 = true)
    (message : List UInt8) :
    referenceFilter k rng (earlier ++ [message]) =
      referenceFilter k rng earlier ++ [message] := by
  simp only [referenceFilter_append, referenceFilter, kept, ↓reduceIte]

/-- A lost message is not. -/
theorem referenceFilter_snoc_lost
    {k : Knobs}
    {rng : PgXosh}
    {earlier : List (List UInt8)}
    (lost : (referenceDraw k (referenceRng k rng earlier)).1 = false)
    (message : List UInt8) :
    referenceFilter k rng (earlier ++ [message]) =
      referenceFilter k rng earlier := by
  simp only [referenceFilter_append, referenceFilter, lost,
    Bool.false_eq_true, ↓reduceIte, List.append_nil]

@[simp] theorem referenceRng_snoc
    (k : Knobs)
    (rng : PgXosh)
    (earlier : List (List UInt8))
    (message : List UInt8) :
    referenceRng k rng (earlier ++ [message]) =
      (referenceDraw k (referenceRng k rng earlier)).2 := by
  simp [referenceRng]

/-- Filtering keeps some of the messages, in order. -/
theorem referenceFilter_sublist
    (k : Knobs)
    (rng : PgXosh)
    (messages : List (List UInt8)) :
    (referenceFilter k rng messages).Sublist messages := by
  induction messages generalizing rng with
  | nil =>
      exact .slnil
  | cons message rest inductionHypothesis =>
      simp only [referenceFilter]
      split
      · exact (inductionHypothesis _).cons_cons message
      · exact (inductionHypothesis _).cons message

/-- The comparison `p >= 1`. -/
def CDouble.atLeastOne : CDouble → Bool
  | .finite value => decide (1 ≤ value)
  | .posInfinity => true
  | .negInfinity | .nan => false

/-- Every draw of `rand_unit` is below a probability of at least one. -/
theorem exceeds_of_atLeastOne
    {p : CDouble}
    (certain : p.atLeastOne = true)
    (rng : PgXosh) :
    p.gtZero = true ∧ p.exceeds ((top53 rng : ℚ) / 2 ^ 53) = true := by
  cases p with
  | finite value =>
      have atLeast : 1 ≤ value := of_decide_eq_true certain
      have below : (top53 rng : ℚ) / 2 ^ 53 < 1 := by
        rw [div_lt_one (by positivity)]
        exact_mod_cast top53_lt rng
      constructor
      · exact decide_eq_true (lt_of_lt_of_le one_pos atLeast)
      · exact decide_eq_true (lt_of_lt_of_le below atLeast)
  | posInfinity =>
      exact ⟨rfl, rfl⟩
  | negInfinity | nan =>
      exact absurd certain (by decide)

/-- With certain loss nothing is kept. -/
theorem referenceFilter_certain
    {k : Knobs}
    (certain : k.lossProb.atLeastOne = true)
    (rng : PgXosh)
    (messages : List (List UInt8)) :
    referenceFilter k rng messages = [] := by
  induction messages generalizing rng with
  | nil =>
      rfl
  | cons message rest inductionHypothesis =>
      obtain ⟨possible, lost⟩ := exceeds_of_atLeastOne certain rng
      simp [referenceFilter, referenceDraw, possible, lost,
        inductionHypothesis]

/-- The forwarder draws as the reference filter does. -/
theorem referenceDraw_eq (k : Knobs) (rng : PgXosh) :
    referenceDraw k rng =
      if (lossDraw k rng).1 then
        (false, (lossDraw k rng).2)
      else
        (true, (delayDraw k (lossDraw k rng).2).2) := by
  have delay (rng : PgXosh) :
      (delayDraw k rng).2 =
        if k.delayMaxNs > 0 ∧ k.delayMaxNs > k.delayMinNs then
          (pgXoshNext rng).2
        else
          rng := by
    unfold delayDraw applyDelay
    by_cases some : k.delayMaxNs > 0
    · by_cases wide : k.delayMaxNs > k.delayMinNs
      · have span : k.delayMaxNs - k.delayMinNs ≠ 0 := by
          intro none
          have same := UInt64.sub_eq_iff_eq_add.mp none
          rw [UInt64.zero_add] at same
          exact UInt64.ne_of_lt wide same.symm
        simp [some, wide, span]
      · simp [some, wide]
    · simp [some]
  unfold referenceDraw lossDraw randUnit
  cases k.lossProb.gtZero with
  | false =>
      simp only [Bool.false_eq_true, ↓reduceIte, true_and, delay]
      split <;> rfl
  | true =>
      cases k.lossProb.exceeds ((top53 rng : ℚ) / 2 ^ 53) with
      | true =>
          simp
      | false =>
          simp only [↓reduceIte, Bool.not_false, true_and,
            Bool.false_eq_true, delay]
          split <;> rfl

end Reference

section Invariant

/-- The generator is where the reference filter's is. -/
def InStep
    (k : Knobs)
    (c : Nat)
    (current : PgXosh)
    (direction : Direction) : Prop :=
  match direction.forward with
  | .atLoss k' buf off =>
      k' = k ∧ off < buf.length ∧ direction.rng = current
  | .atWrite k' buf off size =>
      k' = k ∧ off < buf.length ∧ size = c ∧
        (referenceDraw k current).1 = true ∧
        direction.rng = (referenceDraw k current).2
  | _ =>
      direction.rng = current

/-- The forwarder between the messages done with and those still to come. -/
structure Filtered
    (k : Knobs)
    (c : Nat)
    (rng : PgXosh)
    (done rest : List (List UInt8))
    (direction : Direction) : Prop where
  wide : ∀ message ∈ rest, message.length = c
  delivered :
    direction.delivered = (referenceFilter k rng done).flatten
  pending :
    direction.forward.unread ++ direction.source = rest.flatten
  whole : c ∣ direction.forward.unread.length
  inStep : InStep k c (referenceRng k rng done) direction

/-- Entering the inner loop draws nothing. -/
theorem inStep_enterLoop
    {k : Knobs}
    {c : Nat}
    {current : PgXosh}
    {direction : Direction}
    {buf : List UInt8}
    {off : Nat}
    (entered : direction.forward = enterLoop k buf off)
    (rng : direction.rng = current) :
    InStep k c current direction := by
  by_cases inside : off < buf.length
  · simp only [InStep, entered, enterLoop, inside, ↓reduceIte, rng,
      and_self]
  · simp only [InStep, entered, enterLoop, inside, ↓reduceIte, rng]

variable {k : Knobs} {c : Nat}

/-- The chunk at the offset is the next message. -/
theorem nextMessage
    (positive : 0 < c)
    (chunked : k.maxChunkBytes = c)
    {buf source : List UInt8}
    {off : Nat}
    {rest : List (List UInt8)}
    (inside : off < buf.length)
    (wide : ∀ message ∈ rest, message.length = c)
    (pending : buf.drop off ++ source = rest.flatten)
    (whole : c ∣ (buf.drop off).length) :
    ∃ message later,
      rest = message :: later ∧
        thisChunk k buf off = c ∧
        (buf.drop off).take c = message ∧
        buf.drop (off + c) ++ source = later.flatten ∧
        c ∣ (buf.drop (off + c)).length := by
  have remaining : 0 < (buf.drop off).length := by
    rw [List.length_drop]
    omega
  have enough : c ≤ (buf.drop off).length :=
    Nat.le_of_dvd remaining whole
  cases rest with
  | nil =>
      have empty := congrArg List.length pending
      simp only [List.length_append, List.flatten_nil,
        List.length_nil] at empty
      omega
  | cons message later =>
      have split :
          (buf.drop off).take c ++
              ((buf.drop off).drop c ++ source) =
            message ++ later.flatten := by
        rw [← List.append_assoc, List.take_append_drop, pending,
          List.flatten_cons]
      obtain ⟨here, after⟩ :=
        List.append_inj split (by
          rw [List.length_take_of_le enough,
            wide message List.mem_cons_self])
      rw [List.drop_drop] at after
      refine ⟨message, later, rfl, ?_, here, after, ?_⟩
      · rw [List.length_drop] at enough
        exact thisChunk_eq positive chunked enough
      · rw [← List.drop_drop, List.length_drop]
        exact Nat.dvd_sub whole (dvd_refl c)

/-- The inner loop may be entered wherever whole messages remain. -/
theorem Filtered.enter
    {rng : PgXosh}
    {done rest : List (List UInt8)}
    {direction : Direction}
    {buf : List UInt8}
    {off : Nat}
    (entered : direction.forward = enterLoop k buf off)
    (wide : ∀ message ∈ rest, message.length = c)
    (delivered :
      direction.delivered = (referenceFilter k rng done).flatten)
    (pending : buf.drop off ++ direction.source = rest.flatten)
    (whole : c ∣ (buf.drop off).length)
    (generator : direction.rng = referenceRng k rng done) :
    Filtered k c rng done rest direction where
  wide := wide
  delivered := delivered
  pending := by rw [entered, unread_enterLoop, pending]
  whole := by rw [entered, unread_enterLoop]; exact whole
  inStep := inStep_enterLoop entered generator

section Moves

variable
  {rng : PgXosh}
  {done rest : List (List UInt8)}
  {direction : Direction}

/-- A message sent comes last. -/
theorem Filtered.sent
    (filtered : Filtered k c rng done rest direction)
    {bytes : List UInt8}
    (wide : bytes.length = c) :
    Filtered k c rng done (rest ++ [bytes])
      { direction with source := direction.source ++ bytes } where
  wide := by
    intro message member
    rcases List.mem_append.mp member with old | new
    · exact filtered.wide message old
    · rw [List.mem_singleton.mp new]
      exact wide
  delivered := filtered.delivered
  pending := by
    rw [List.flatten_append, List.flatten_singleton,
      ← filtered.pending, List.append_assoc]
  whole := filtered.whole
  inStep := filtered.inStep

/-- What a user reads was delivered before. -/
theorem Filtered.received
    (filtered : Filtered k c rng done rest direction)
    (count : Nat) :
    Filtered k c rng done rest
      { direction with
        arrived := direction.arrived.drop count
        received :=
          direction.received ++ direction.arrived.take count } where
  wide := filtered.wide
  delivered := (delivered_receive _ count).trans filtered.delivered
  pending := filtered.pending
  whole := filtered.whole
  inStep := filtered.inStep

/-- A forwarder reads whole messages into its buffer. -/
theorem Filtered.filled
    (filtered : Filtered k c rng done rest direction)
    (reading : direction.forward = .reading)
    {count : Nat}
    (available : count ≤ direction.source.length)
    (whole : c ∣ count) :
    Filtered k c rng done rest
      { direction with
        forward := .filled (direction.source.take count)
        source := direction.source.drop count } := by
  have pending := filtered.pending
  have inStep := filtered.inStep
  simp only [reading, Forward.unread, List.nil_append] at pending
  simp only [InStep, reading] at inStep
  exact {
    wide := filtered.wide
    delivered := filtered.delivered
    pending := by
      rw [Forward.unread, List.take_append_drop, pending]
    whole := by
      rw [Forward.unread, List.length_take_of_le available]
      exact whole
    inStep := inStep
  }

/-- A forwarder that ends while it reads has nothing unread. -/
theorem Filtered.finished
    (filtered : Filtered k c rng done rest direction)
    (reading : direction.forward = .reading) :
    Filtered k c rng done rest direction.finish := by
  have pending := filtered.pending
  have inStep := filtered.inStep
  simp only [reading, Forward.unread] at pending
  simp only [InStep, reading] at inStep
  exact {
    wide := filtered.wide
    delivered := filtered.delivered
    pending := pending
    whole := Nat.dvd_zero c
    inStep := inStep
  }

/-- A snapshot enters the loop with the whole buffer. -/
theorem Filtered.snapshot
    (filtered : Filtered k c rng done rest direction)
    {buf : List UInt8}
    (filled : direction.forward = .filled buf) :
    Filtered k c rng done rest
      { direction with forward := enterLoop k buf 0 } := by
  have pending := filtered.pending
  have wholeBuf := filtered.whole
  have inStep := filtered.inStep
  simp only [filled, Forward.unread] at pending wholeBuf
  simp only [InStep, filled] at inStep
  exact Filtered.enter rfl filtered.wide filtered.delivered
    (by rw [List.drop_zero]; exact pending)
    (by rw [List.drop_zero]; exact wholeBuf) inStep

end Moves

/-- A decision drops the next message or keeps it, as the filter does. -/
theorem Filtered.decideChunk
    {rng : PgXosh}
    {done rest : List (List UInt8)}
    {direction : Direction}
    {k' : Knobs}
    {buf : List UInt8}
    {off : Nat}
    (positive : 0 < c)
    (chunked : k.maxChunkBytes = c)
    (filtered : Filtered k c rng done rest direction)
    (here : direction.forward = .atLoss k' buf off) :
    ∃ now later,
      rest = now ++ later ∧
        Filtered k c rng (done ++ now) later
          (direction.decideChunk k' buf off) := by
  have inStep := filtered.inStep
  have pending := filtered.pending
  have whole := filtered.whole
  simp only [InStep, here] at inStep
  simp only [here, Forward.unread] at pending whole
  obtain ⟨rfl, inside, generator⟩ := inStep
  obtain ⟨message, later, rfl, size, chunk, after, wholeAfter⟩ :=
    nextMessage positive chunked inside filtered.wide pending whole
  have draw := referenceDraw_eq k' (referenceRng k' rng done)
  cases lost : (lossDraw k' (referenceRng k' rng done)).1 with
  | true =>
      rw [lost, if_pos rfl] at draw
      have decided :
          direction.decideChunk k' buf off =
            { direction with
              forward := enterLoop k' buf (off + c)
              rng := (lossDraw k' (referenceRng k' rng done)).2 } := by
        simp only [Direction.decideChunk, generator, lost, ↓reduceIte,
          size]
      rw [decided]
      refine ⟨[message], later, rfl, Filtered.enter rfl ?_ ?_ after
        wholeAfter ?_⟩
      · exact fun other member =>
          filtered.wide other (List.mem_cons_of_mem message member)
      · rw [referenceFilter_snoc_lost (by rw [draw])]
        exact filtered.delivered
      · rw [referenceRng_snoc, draw]
  | false =>
      rw [lost, if_neg Bool.false_ne_true] at draw
      have decided :
          direction.decideChunk k' buf off =
            { direction with
              forward := .atWrite k' buf off c
              rng :=
                (delayDraw k'
                  (lossDraw k' (referenceRng k' rng done)).2).2 } := by
        simp only [Direction.decideChunk, generator, lost, size,
          Bool.false_eq_true, ↓reduceIte]
      rw [decided]
      refine ⟨[], message :: later, rfl, ?_⟩
      rw [List.append_nil]
      exact {
        wide := filtered.wide
        delivered := filtered.delivered
        pending := pending
        whole := whole
        inStep := ⟨rfl, inside, rfl, by rw [draw], by rw [draw]⟩
      }

/-- Writing a kept chunk whole delivers one message. -/
theorem Filtered.wroteChunk
    {rng : PgXosh}
    {done rest : List (List UInt8)}
    {direction : Direction}
    {k' : Knobs}
    {buf : List UInt8}
    {off size : Nat}
    (positive : 0 < c)
    (chunked : k.maxChunkBytes = c)
    (filtered : Filtered k c rng done rest direction)
    (here : direction.forward = .atWrite k' buf off size) :
    ∃ now later,
      rest = now ++ later ∧
        Filtered k c rng (done ++ now) later
          (direction.wroteChunk k' buf off size) := by
  have inStep := filtered.inStep
  have pending := filtered.pending
  have whole := filtered.whole
  simp only [InStep, here] at inStep
  simp only [here, Forward.unread] at pending whole
  obtain ⟨rfl, inside, rfl, kept, generator⟩ := inStep
  obtain ⟨message, later, rfl, _, chunk, after, wholeAfter⟩ :=
    nextMessage positive chunked inside filtered.wide pending whole
  refine ⟨[message], later, rfl, Filtered.enter rfl ?_ ?_ after
    wholeAfter ?_⟩
  · exact fun other member =>
      filtered.wide other (List.mem_cons_of_mem message member)
  · rw [delivered_wroteChunk, chunk, filtered.delivered,
      referenceFilter_snoc_kept kept, List.flatten_append,
      List.flatten_singleton]
  · rw [referenceRng_snoc]
    exact generator

end Invariant

section Runs

/--
The steps of a run with fixed knobs in which direction `x` carries `c`-byte
messages, reads whole messages, and has its writes accepted in full.
-/
def WholeMessages (x : End) (c : Nat) (pair : Pair) : Label → Prop
  | .setKnobs _ => False
  | .send y bytes => y = x → bytes.length = c
  | .read y count => y = x → c ∣ count
  | .write y count =>
      y = x → count = (pair.direction x).forward.offered
  | .readFails y | .writeFails y | .writeBroken y => y ≠ x
  | _ => True

instance (x : End) (c : Nat) (pair : Pair) (label : Label) :
    Decidable (WholeMessages x c pair label) :=
  match label with
  | .setKnobs _ => inferInstanceAs (Decidable False)
  | .send _ _ | .read _ _ | .write _ _ =>
      inferInstanceAs (Decidable (_ → _))
  | .readFails _ | .writeFails _ | .writeBroken _ =>
      inferInstanceAs (Decidable (_ ≠ _))
  | .receive _ _ | .closeUser _ | .readEof _ | .snapshot _
  | .decide _ => inferInstanceAs (Decidable True)

/-- Direction `x` is filtered with respect to what was sent from `x`. -/
def FilteredAt
    (x : End)
    (k : Knobs)
    (c : Nat)
    (rng : PgXosh)
    (earlier : List Label)
    (pair : Pair) : Prop :=
  pair.knobs = k ∧
    ∃ done rest,
      sentFrom x earlier = done ++ rest ∧
        Filtered k c rng done rest (pair.direction x)

/-- A step that leaves direction `x` alone keeps it filtered. -/
theorem FilteredAt.elsewhere
    {x : End}
    {k : Knobs}
    {c : Nat}
    {rng : PgXosh}
    {earlier : List Label}
    {pair next : Pair}
    {label : Label}
    (filteredAt : FilteredAt x k c rng earlier pair)
    (stepped : pair.step? label = some next)
    (elsewhere : label.direction? ≠ some x)
    (fixed : ∀ k, label ≠ .setKnobs k) :
    FilteredAt x k c rng (earlier ++ [label]) next := by
  obtain ⟨knobs, done, rest, sent, filtered⟩ := filteredAt
  refine ⟨(Pair.knobs_of_not_setKnobs stepped fixed).trans knobs,
    done, rest, ?_, ?_⟩
  · rw [sentFrom_of_not_send, sent]
    intro bytes same
    exact elsewhere (by rw [same]; rfl)
  · rw [Pair.direction_of_elsewhere stepped elsewhere]
    exact filtered

/-- A step that sends nothing only has to keep the direction filtered. -/
theorem Filtered.filteredAt
    {x : End}
    {k : Knobs}
    {c : Nat}
    {rng : PgXosh}
    {earlier : List Label}
    {pair : Pair}
    {direction : Direction}
    {label : Label}
    {done rest : List (List UInt8)}
    (filtered : Filtered k c rng done rest direction)
    (knobs : pair.knobs = k)
    (sent : sentFrom x earlier = done ++ rest)
    (silent : ∀ bytes, label ≠ .send x bytes) :
    FilteredAt x k c rng (earlier ++ [label])
      (pair.setDirection x direction) := by
  refine ⟨knobs, done, rest, ?_, ?_⟩
  · rw [sentFrom_of_not_send silent, sent]
  · rw [Pair.direction_setDirection_same]
    exact filtered

/-- Every step of such a run keeps direction `x` filtered. -/
theorem FilteredAt.step
    {x : End}
    {k : Knobs}
    {c : Nat}
    {rng : PgXosh}
    (positive : 0 < c)
    (chunked : k.maxChunkBytes = c)
    {earlier : List Label}
    {pair next : Pair}
    {label : Label}
    (filteredAt : FilteredAt x k c rng earlier pair)
    (whole : WholeMessages x c pair label)
    (stepped : pair.step? label = some next) :
    FilteredAt x k c rng (earlier ++ [label]) next := by
  by_cases acts : label.direction? = some x
  · obtain ⟨knobs, done, rest, sent, filtered⟩ := filteredAt
    cases label with
    | send y bytes =>
        obtain rfl : y = x := Option.some.inj acts
        obtain ⟨_, rfl⟩ := Pair.step?_send stepped
        refine ⟨knobs, done, rest ++ [bytes], ?_, ?_⟩
        · rw [sentFrom_send, sent, List.append_assoc]
        · rw [Pair.direction_setDirection_same]
          exact filtered.sent (whole rfl)
    | receive y count =>
        obtain rfl : y.other = x := Option.some.inj acts
        obtain ⟨_, _, _, rfl⟩ := Pair.step?_receive stepped
        exact (filtered.received count).filteredAt knobs sent (by simp)
    | closeUser y | setKnobs k =>
        exact absurd acts (by simp [Label.direction?])
    | read y count =>
        obtain rfl : y = x := Option.some.inj acts
        obtain ⟨reading, _, _, available, rfl⟩ :=
          Pair.step?_read stepped
        exact
          (filtered.filled reading available (whole rfl)).filteredAt
            knobs sent (by simp)
    | readEof y =>
        obtain rfl : y = x := Option.some.inj acts
        obtain ⟨reading, _, _, rfl⟩ := Pair.step?_readEof stepped
        exact
          (filtered.finished reading).filteredAt knobs sent (by simp)
    | readFails y | writeFails y | writeBroken y =>
        exact absurd (Option.some.inj acts) whole
    | snapshot y =>
        obtain rfl : y = x := Option.some.inj acts
        obtain ⟨buf, filled, rfl⟩ := Pair.step?_snapshot stepped
        rw [knobs]
        exact
          (filtered.snapshot filled).filteredAt knobs sent (by simp)
    | decide y =>
        obtain rfl : y = x := Option.some.inj acts
        obtain ⟨k', buf, off, here, rfl⟩ := Pair.step?_decide stepped
        obtain ⟨now, later, rfl, filteredNext⟩ :=
          filtered.decideChunk positive chunked here
        exact filteredNext.filteredAt knobs
          (by rw [sent, List.append_assoc]) (by simp)
    | write y count =>
        obtain rfl : y = x := Option.some.inj acts
        obtain ⟨k', buf, off, size, here, _, _, _, rfl⟩ :=
          Pair.step?_write stepped
        have full := whole rfl
        simp only [here, Forward.offered] at full
        subst full
        obtain ⟨now, later, rfl, filteredNext⟩ :=
          filtered.wroteChunk positive chunked here
        exact filteredNext.filteredAt knobs
          (by rw [sent, List.append_assoc]) (by simp)
  · refine filteredAt.elsewhere stepped acts ?_
    intro k same
    rw [same] at whole
    exact whole

/-- Every such run keeps direction `x` filtered. -/
theorem FilteredAt.run
    {x : End}
    {k : Knobs}
    {c : Nat}
    (positive : 0 < c)
    (chunked : k.maxChunkBytes = c)
    {seed : UInt64}
    {labels : List Label}
    {pair : Pair}
    (ran : (Pair.start k seed).run? labels = some pair)
    (whole :
      Transition.EachStep Pair.step? (WholeMessages x c)
        (Pair.start k seed) labels) :
    FilteredAt x k c (Pair.rngOf seed x) labels pair := by
  refine Transition.run?_history
    (FilteredAt x k c (Pair.rngOf seed x)) ?_
    (fun holds wholeStep stepped =>
      holds.step positive chunked wholeStep stepped)
    ran whole
  exact ⟨rfl, [], [], rfl, {
    wide := fun _ member => absurd member List.not_mem_nil
    delivered := rfl
    pending := rfl
    whole := Nat.dvd_zero c
    inStep := rfl
  }⟩

/-- What is delivered is a prefix of the filter, all of it once caught up. -/
theorem FilteredAt.delivered
    {x : End}
    {k : Knobs}
    {c : Nat}
    {rng : PgXosh}
    {earlier : List Label}
    {pair : Pair}
    (positive : 0 < c)
    (filteredAt : FilteredAt x k c rng earlier pair) :
    (pair.direction x).delivered <+:
        (referenceFilter k rng (sentFrom x earlier)).flatten ∧
      ((pair.direction x).caughtUp →
        (pair.direction x).delivered =
          (referenceFilter k rng (sentFrom x earlier)).flatten) := by
  obtain ⟨_, done, rest, sent, filtered⟩ := filteredAt
  constructor
  · rw [sent, referenceFilter_append, List.flatten_append,
      filtered.delivered]
    exact List.prefix_append _ _
  · intro caughtUp
    have nothing := filtered.pending
    rw [caughtUp.1, caughtUp.2, List.append_nil] at nothing
    cases rest with
    | nil =>
        rw [sent, List.append_nil, filtered.delivered]
    | cons message later =>
        have wide := filtered.wide message List.mem_cons_self
        have lengths := congrArg List.length nothing
        rw [List.flatten_cons, List.length_append, wide,
          List.length_nil] at lengths
        omega

/-- The knobs of the packet-loss scenario. -/
def packetLossKnobs : Knobs where
  lossProb := .finite (3 / 10)
  delayMinNs := 0
  delayMaxNs := 0
  maxChunkBytes := 16

/-- Two messages read as one batch; with seed 1 only the second is kept. -/
def twoMessagesRun : List Label :=
  [.send .a (List.replicate 16 88), .send .a (List.replicate 16 89),
    .read .a 32, .snapshot .a, .decide .a, .decide .a, .write .a 16]

end Runs

end FailurePlayground.ChaosNet
