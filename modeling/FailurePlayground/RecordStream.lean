import FailurePlayground.NetProgress
import FailurePlayground.Lib.Bytes

namespace FailurePlayground.ChaosNet

/-!
# Records of one chunk each

When every record is as wide as a chunk and the calls move whole records, a
direction of the pair is a queue of records: the loss draws delete some, and
none is split, copied or overtaken.
-/

universe u

variable {Item : Type u}

/-- The records lying in one direction, by the place that holds them. -/
structure Records (Item : Type u) where
  arrived : List Item
  unread : List Item
  source : List Item

/-- The records in the order in which they come out. -/
def Records.inOrder (records : Records Item) : List Item :=
  records.arrived ++ (records.unread ++ records.source)

/-- The knobs a forwarder works with ask for chunks of `width` bytes. -/
def Forward.ChunkedBy (width : Nat) : Forward → Prop
  | .atLoss k _ _ | .atWrite k _ _ _ => k.maxChunkBytes = width
  | .reading | .filled _ | .returned => True

/-- A direction holds exactly these records, each in one place. -/
structure Carries
    (code : Item → List UInt8)
    (width : Nat)
    (records : Records Item)
    (direction : Direction) : Prop where
  arrived : direction.arrived = records.arrived.flatMap code
  unread : direction.forward.unread = records.unread.flatMap code
  source : direction.source = records.source.flatMap code
  sound : direction.Sound
  chunked : direction.forward.ChunkedBy width

/-- A forwarder's call that moves whole records. -/
def Label.movesWhole (width : Nat) (pair : Pair) : Label → Bool
  | .read _ count => count % width == 0
  | .write x count => count == (pair.direction x).forward.offered
  | _ => true

/-- A forwarder acts on its own direction. -/
theorem direction?_of_forwards
    {x : End}
    {label : Label}
    (forwards : label.forwards x = true) :
    label.direction? = some x := by
  cases label with
  | read y count | readEof y | readFails y | snapshot y | decide y
  | write y count | writeFails y =>
      exact congrArg some (beq_iff_eq.mp forwards)
  | send y bytes | receive y count | closeUser y | setKnobs k
  | writeBroken y =>
      exact absurd forwards Bool.false_ne_true

/-- Entering the inner loop keeps the chunk size. -/
theorem chunkedBy_enterLoop
    {k : Knobs}
    {width : Nat}
    (chunked : k.maxChunkBytes = width)
    (buf : List UInt8)
    (off : Nat) :
    (enterLoop k buf off).ChunkedBy width := by
  by_cases inside : off < buf.length
  · simp only [enterLoop, inside, ↓reduceIte, Forward.ChunkedBy,
      chunked]
  · simp only [enterLoop, inside, ↓reduceIte, Forward.ChunkedBy]

section Moves

variable
  {code : Item → List UInt8}
  {width : Nat}
  {records : Records Item}
  {direction : Direction}

/-- A record written to the pair is the last to come out. -/
theorem Carries.send
    (carries : Carries code width records direction)
    (item : Item) :
    Carries code width
      { records with source := records.source ++ [item] }
      { direction with source := direction.source ++ code item } where
  arrived := carries.arrived
  unread := carries.unread
  source := by
    rw [List.flatMap_append, List.flatMap_singleton, carries.source]
  sound := ⟨carries.sound.forward, carries.sound.ended⟩
  chunked := carries.chunked

/-- Less than a record at the far end is nothing. -/
theorem Carries.arrived_eq_nil
    (wide : ∀ item, (code item).length = width)
    (carries : Carries code width records direction)
    (short : direction.arrived.length < width) :
    direction.arrived = [] := by
  cases waiting : records.arrived with
  | nil =>
      rw [carries.arrived, waiting, List.flatMap_nil]
  | cons item rest =>
      rw [carries.arrived, waiting, List.flatMap_cons,
        List.length_append, wide] at short
      omega

/-- A read of one record's width takes the first record. -/
theorem Carries.receive
    (wide : ∀ item, (code item).length = width)
    (positive : 0 < width)
    (carries : Carries code width records direction)
    (available : width ≤ direction.arrived.length) :
    ∃ item rest,
      records.arrived = item :: rest ∧
        direction.arrived.take width = code item ∧
        Carries code width { records with arrived := rest }
          { direction with
            arrived := direction.arrived.drop width
            received :=
              direction.received ++ direction.arrived.take width } := by
  cases waiting : records.arrived with
  | nil =>
      rw [carries.arrived, waiting, List.flatMap_nil,
        List.length_nil] at available
      omega
  | cons item rest =>
      have shape : direction.arrived = code item ++ rest.flatMap code := by
        rw [carries.arrived, waiting, List.flatMap_cons]
      refine ⟨item, rest, rfl, ?_, ?_⟩
      · rw [shape, List.take_left' (wide item)]
      · exact {
          arrived := by rw [shape, List.drop_left' (wide item)]
          unread := carries.unread
          source := carries.source
          sound := ⟨carries.sound.forward, carries.sound.ended⟩
          chunked := carries.chunked
        }

/-- The chunk at the offset is the next record. -/
theorem nextRecord
    (wide : ∀ item, (code item).length = width)
    (positive : 0 < width)
    {k : Knobs}
    (chunked : k.maxChunkBytes = width)
    {buf : List UInt8}
    {off : Nat}
    (inside : off < buf.length)
    {items : List Item}
    (unread : buf.drop off = items.flatMap code) :
    ∃ item rest,
      items = item :: rest ∧
        thisChunk k buf off = width ∧
        (buf.drop off).take width = code item ∧
        buf.drop (off + width) = rest.flatMap code := by
  have remaining : (buf.drop off).length = buf.length - off :=
    List.length_drop
  cases items with
  | nil =>
      rw [unread, List.flatMap_nil, List.length_nil] at remaining
      omega
  | cons item rest =>
      rw [List.flatMap_cons] at unread
      rw [unread, List.length_append, wide] at remaining
      refine ⟨item, rest, rfl, ?_, ?_, ?_⟩
      · exact thisChunk_eq positive chunked (by omega)
      · rw [unread, List.take_left' (wide item)]
      · rw [← List.drop_drop, unread, List.drop_left' (wide item)]

/-- A read of whole records moves them into the buffer. -/
theorem Carries.read
    (wide : ∀ item, (code item).length = width)
    (width_pos : 0 < width)
    (carries : Carries code width records direction)
    (reading : direction.forward = .reading)
    {count : Nat}
    (positive : 0 < count)
    (available : count ≤ direction.source.length)
    (whole : count % width = 0) :
    ∃ later,
      later.inOrder = records.inOrder ∧
        Carries code width later
          { direction with
            forward := .filled (direction.source.take count)
            source := direction.source.drop count } := by
  have exactly : width * (count / width) = count :=
    Nat.mul_div_cancel' (Nat.dvd_of_mod_eq_zero whole)
  have unread := carries.unread
  rw [reading, Forward.unread] at unread
  have empty : records.unread = [] :=
    Bytes.eq_nil_of_flatMap_eq_nil wide width_pos unread.symm
  have filled : direction.source.take count ≠ [] := by
    intro nothing
    have lengths := congrArg List.length nothing
    rw [List.length_take_of_le available, List.length_nil] at lengths
    omega
  refine ⟨{ records with
    unread := records.source.take (count / width)
    source := records.source.drop (count / width) }, ?_, ?_⟩
  · simp only [Records.inOrder, empty, List.nil_append,
      List.take_append_drop]
  · exact {
      arrived := carries.arrived
      unread := by
        rw [Forward.unread, carries.source, ← exactly,
          Bytes.take_flatMap wide, exactly]
      source := by
        rw [carries.source, ← exactly, Bytes.drop_flatMap wide, exactly]
      sound :=
        carries.sound.move (by simp [reading]) rfl ⟨filled, by simp⟩
      chunked := trivial
    }

/-- A forwarder that returns takes its buffer with it. -/
theorem Carries.finish
    (carries : Carries code width records direction) :
    Carries code width { records with unread := [] }
      direction.finish where
  arrived := carries.arrived
  unread := rfl
  source := carries.source
  sound := sound_finish direction
  chunked := trivial

/-- Entering the inner loop keeps the records from the offset on. -/
theorem Carries.enter
    (carries : Carries code width records direction)
    (running : direction.forward ≠ .returned)
    {k : Knobs}
    (chunked : k.maxChunkBytes = width)
    {buf : List UInt8}
    {off : Nat}
    {arrived unread : List Item}
    {entered : Direction}
    (forward : entered.forward = enterLoop k buf off)
    (rest : buf.drop off = unread.flatMap code)
    (there : entered.arrived = arrived.flatMap code)
    (source : entered.source = direction.source)
    (ended : entered.ended = direction.ended) :
    Carries code width
      { records with arrived := arrived, unread := unread }
      entered where
  arrived := there
  unread := by rw [forward, unread_enterLoop, rest]
  source := source.trans carries.source
  sound :=
    carries.sound.move running ended
      (forward ▸ sound_enterLoop k buf off)
  chunked := forward ▸ chunkedBy_enterLoop chunked buf off

/-- A decision deletes the next record or leaves all where they are. -/
theorem Carries.decideChunk
    (wide : ∀ item, (code item).length = width)
    (positive : 0 < width)
    (carries : Carries code width records direction)
    {k : Knobs}
    {buf : List UInt8}
    {off : Nat}
    (here : direction.forward = .atLoss k buf off) :
    ∃ later,
      later.inOrder.Sublist records.inOrder ∧
        Carries code width later (direction.decideChunk k buf off) := by
  have unread := carries.unread
  have inside := carries.sound.forward
  have chunked := carries.chunked
  simp only [here, Forward.unread, Forward.Sound,
    Forward.ChunkedBy] at unread inside chunked
  obtain ⟨item, rest, shape, size, _, after⟩ :=
    nextRecord wide positive chunked inside unread
  simp only [Direction.decideChunk]
  split
  · refine ⟨{ records with unread := rest }, ?_,
      carries.enter (by simp [here]) chunked rfl (size ▸ after)
        carries.arrived rfl rfl⟩
    simp only [Records.inOrder, shape, List.cons_append]
    exact List.Sublist.append_left (List.sublist_cons_self item _) _
  · refine ⟨records, List.Sublist.refl _, ?_⟩
    exact {
      arrived := carries.arrived
      unread := unread
      source := carries.source
      sound :=
        carries.sound.move (by simp [here]) rfl
          ⟨⟨inside, rfl⟩, by simp⟩
      chunked := chunked
    }

/-- A whole write moves the next record to the far end. -/
theorem Carries.wroteChunk
    (wide : ∀ item, (code item).length = width)
    (positive : 0 < width)
    (carries : Carries code width records direction)
    {k : Knobs}
    {buf : List UInt8}
    {off size : Nat}
    (here : direction.forward = .atWrite k buf off size) :
    ∃ later,
      later.inOrder = records.inOrder ∧
        Carries code width later
          (direction.wroteChunk k buf off size) := by
  have unread := carries.unread
  have inside := carries.sound.forward
  have chunked := carries.chunked
  simp only [here, Forward.unread, Forward.Sound,
    Forward.ChunkedBy] at unread inside chunked
  obtain ⟨item, rest, shape, chunk, record, after⟩ :=
    nextRecord wide positive chunked inside.1 unread
  obtain rfl : size = width := inside.2.trans chunk
  refine ⟨{ records with
    arrived := records.arrived ++ [item]
    unread := rest }, ?_, ?_⟩
  · simp only [Records.inOrder, shape, List.append_assoc,
      List.cons_append, List.nil_append]
  · refine carries.enter (by simp [here]) chunked rfl after ?_ rfl rfl
    rw [List.flatMap_append, List.flatMap_singleton, ← record,
      ← carries.arrived]
    rfl

end Moves

section Steps

variable
  {code : Item → List UInt8}
  {width : Nat}
  {records : Records Item}
  {x : End}
  {pair next : Pair}
  {label : Label}

/-- A forwarder that moves whole records only ever deletes some. -/
theorem Carries.forwards
    (wide : ∀ item, (code item).length = width)
    (positive : 0 < width)
    (carries : Carries code width records (pair.direction x))
    (knobs : pair.knobs.maxChunkBytes = width)
    (stepped : pair.step? label = some next)
    (forwards : label.forwards x = true)
    (whole : label.movesWhole width pair = true) :
    ∃ later,
      later.inOrder.Sublist records.inOrder ∧
        Carries code width later (next.direction x) := by
  have returns
      (direction : Direction)
      (finished : direction = (pair.direction x).finish) :
      ∃ later,
        later.inOrder.Sublist records.inOrder ∧
          Carries code width later direction := by
    refine ⟨{ records with unread := [] }, ?_,
      finished ▸ carries.finish⟩
    exact List.Sublist.append_left
      (List.Sublist.append_right (List.nil_sublist _) _) _
  cases label with
  | read y count =>
      obtain rfl : y = x := beq_iff_eq.mp forwards
      obtain ⟨reading, some, _, available, rfl⟩ :=
        Pair.step?_read stepped
      rw [Pair.direction_setDirection_same]
      obtain ⟨later, same, carried⟩ :=
        carries.read wide positive reading some available
          (beq_iff_eq.mp whole)
      exact ⟨later, same ▸ List.Sublist.refl _, carried⟩
  | readEof y =>
      obtain rfl : y = x := beq_iff_eq.mp forwards
      obtain ⟨_, _, _, rfl⟩ := Pair.step?_readEof stepped
      exact returns _ (Pair.direction_setDirection_same pair y _)
  | readFails y =>
      obtain rfl : y = x := beq_iff_eq.mp forwards
      obtain ⟨_, rfl⟩ := Pair.step?_readFails stepped
      exact returns _ (Pair.direction_setDirection_same pair y _)
  | writeFails y =>
      obtain rfl : y = x := beq_iff_eq.mp forwards
      obtain ⟨_, _, _, _, _, rfl⟩ := Pair.step?_writeFails stepped
      exact returns _ (Pair.direction_setDirection_same pair y _)
  | snapshot y =>
      obtain rfl : y = x := beq_iff_eq.mp forwards
      obtain ⟨buf, filled, rfl⟩ := Pair.step?_snapshot stepped
      rw [Pair.direction_setDirection_same]
      have unread := carries.unread
      rw [filled, Forward.unread] at unread
      exact ⟨records, List.Sublist.refl _,
        carries.enter (by simp [filled]) knobs rfl unread
          carries.arrived rfl rfl⟩
  | decide y =>
      obtain rfl : y = x := beq_iff_eq.mp forwards
      obtain ⟨k, buf, off, here, rfl⟩ := Pair.step?_decide stepped
      rw [Pair.direction_setDirection_same]
      exact carries.decideChunk wide positive here
  | write y count =>
      obtain rfl : y = x := beq_iff_eq.mp forwards
      obtain ⟨k, buf, off, size, here, _, _, _, rfl⟩ :=
        Pair.step?_write stepped
      obtain rfl : count = size := by
        simpa [Label.movesWhole, here, Forward.offered] using whole
      rw [Pair.direction_setDirection_same]
      obtain ⟨later, same, carried⟩ :=
        carries.wroteChunk wide positive here
      exact ⟨later, same ▸ List.Sublist.refl _, carried⟩
  | send y bytes | receive y count | closeUser y | setKnobs k
  | writeBroken y =>
      exact absurd forwards Bool.false_ne_true

end Steps

end FailurePlayground.ChaosNet
