import FailurePlayground.NetFilter
import FailurePlayground.RecordStream

namespace FailurePlayground.ChaosNet

/-!
# What the proxy can do to a stream

Whatever the knobs and whichever calls fail, a forwarder only deletes: what
comes out at the far end are bytes that went in, in the order they went in.
Every missing byte was given up by a lost chunk or by a write that failed.
-/

namespace Direction

/-- The bytes of a direction, from the far end back to the user. -/
def inOrder (direction : Direction) : List UInt8 :=
  direction.delivered ++ (direction.forward.unread ++ direction.source)

end Direction

/-- The bytes a step sends from `x`. -/
def Label.sends (x : End) (label : Label) : List UInt8 :=
  (sentFrom x [label]).flatten

namespace Pair

/-- The bytes a step of forwarder `x` gives up. -/
def discards (pair : Pair) (x : End) : Label → Nat
  | .decide y =>
      match (pair.direction x).forward with
      | .atLoss k buf off =>
          if y = x ∧ (lossDraw k (pair.direction x).rng).1 = true then
            thisChunk k buf off
          else
            0
      | _ => 0
  | .writeFails y =>
      if y = x then (pair.direction x).forward.unread.length else 0
  | _ => 0

/-- The bytes forwarder `x` gives up in a run. -/
def discardsIn (x : End) : Pair → List Label → Nat
  | _, [] => 0
  | pair, label :: rest =>
      pair.discards x label +
        match pair.step? label with
        | some next => discardsIn x next rest
        | none => 0

end Pair

/-- A stream after some bytes were sent and some were given up. -/
structure Thins
    (before sent : List UInt8)
    (given : Nat)
    (after : List UInt8) : Prop where
  sublist : after.Sublist (before ++ sent)
  counted : after.length + given = before.length + sent.length

namespace Thins

variable {before sent after later more : List UInt8} {given further : Nat}

/-- Nothing is given up when the bytes stay as they are. -/
theorem of_eq (same : after = before ++ sent) :
    Thins before sent 0 after where
  sublist := same ▸ List.Sublist.refl _
  counted := by
    rw [same, List.length_append, Nat.add_zero]

/-- A part is given up from the middle. -/
theorem of_drop
    (front back : List UInt8)
    (part rest : List UInt8) :
    Thins (front ++ (part ++ rest ++ back)) [] part.length
      (front ++ (rest ++ back)) where
  sublist := by
    rw [List.append_nil, List.append_assoc]
    exact (List.sublist_append_right part _).append_left front
  counted := by
    simp only [List.length_append, List.length_nil]
    omega

/-- What two steps do to a stream. -/
theorem trans
    (first : Thins before sent given after)
    (second : Thins after more further later) :
    Thins before (sent ++ more) (given + further) later where
  sublist := by
    rw [← List.append_assoc]
    exact second.sublist.trans (first.sublist.append_right more)
  counted := by
    have earlier := first.counted
    have now := second.counted
    rw [List.length_append]
    omega

end Thins

section Steps

variable
  {x : End}
  {pair next final : Pair}
  {label : Label}
  {labels : List Label}

/-- A step that is no write of the user at `x` sends nothing from there. -/
theorem sends_of_not_send
    (silent : ∀ bytes, label ≠ .send x bytes) :
    label.sends x = [] := by
  have none : sentFrom x [label] = sentFrom x [] :=
    sentFrom_of_not_send silent []
  rw [Label.sends, none]
  rfl

/-- Elsewhere in the pair nothing happens to direction `x`. -/
theorem thins_elsewhere
    (stepped : pair.step? label = some next)
    (elsewhere : label.direction? ≠ some x) :
    Thins (pair.direction x).inOrder (label.sends x)
      (pair.discards x label) (next.direction x).inOrder := by
  have silent : label.sends x = [] := by
    apply sends_of_not_send
    intro bytes same
    exact elsewhere (by rw [same]; rfl)
  have nothing : pair.discards x label = 0 := by
    cases label with
    | decide y =>
        have different : y ≠ x := fun same => elsewhere (by rw [same]; rfl)
        simp only [Pair.discards, different, false_and, ↓reduceIte]
        split <;> rfl
    | writeFails y =>
        have different : y ≠ x := fun same => elsewhere (by rw [same]; rfl)
        simp only [Pair.discards, different, ↓reduceIte]
    | _ =>
        rfl
  rw [Pair.direction_of_elsewhere stepped elsewhere, silent, nothing]
  exact Thins.of_eq (List.append_nil _).symm

/-- A decision keeps the chunk at the offset or gives it up. -/
theorem thins_decideChunk
    {k : Knobs}
    {buf : List UInt8}
    {off : Nat}
    {direction : Direction}
    (here : direction.forward = .atLoss k buf off) :
    Thins direction.inOrder []
      (if (lossDraw k direction.rng).1 = true then thisChunk k buf off
        else 0)
      (direction.decideChunk k buf off).inOrder := by
  cases lost : (lossDraw k direction.rng).1 with
  | false =>
      refine Thins.of_eq ?_
      simp only [Direction.decideChunk, lost, Bool.false_eq_true,
        ↓reduceIte, Direction.inOrder, Direction.delivered, here,
        Forward.unread, List.append_nil]
  | true =>
      have size :
          ((buf.drop off).take (thisChunk k buf off)).length =
            thisChunk k buf off := by
        rw [List.length_take_of_le]
        rw [List.length_drop]
        exact thisChunk_le k buf off
      have dropped :=
        Thins.of_drop direction.delivered direction.source
          ((buf.drop off).take (thisChunk k buf off))
          ((buf.drop off).drop (thisChunk k buf off))
      rw [size, List.take_append_drop, List.drop_drop] at dropped
      simp only [Direction.decideChunk, lost, ↓reduceIte,
        Direction.inOrder, here, unread_enterLoop]
      exact dropped

/-- Every step of the pair only thins a direction. -/
theorem thins_step
    (stepped : pair.step? label = some next) :
    Thins (pair.direction x).inOrder (label.sends x)
      (pair.discards x label) (next.direction x).inOrder := by
  by_cases acts : label.direction? = some x
  · cases label with
    | send y bytes =>
        obtain rfl : y = x := Option.some.inj acts
        obtain ⟨_, rfl⟩ := Pair.step?_send stepped
        rw [Pair.direction_setDirection_same]
        refine Thins.of_eq ?_
        simp [Direction.inOrder, Direction.delivered, Label.sends,
          sentFrom]
    | receive y count =>
        obtain rfl : y.other = x := Option.some.inj acts
        obtain ⟨_, _, _, rfl⟩ := Pair.step?_receive stepped
        rw [Pair.direction_setDirection_same,
          sends_of_not_send (by simp)]
        refine Thins.of_eq ?_
        rw [List.append_nil, Direction.inOrder, delivered_receive]
        rfl
    | closeUser y | setKnobs k =>
        exact absurd acts (by simp [Label.direction?])
    | read y count =>
        obtain rfl : y = x := Option.some.inj acts
        obtain ⟨reading, _, _, _, rfl⟩ := Pair.step?_read stepped
        rw [Pair.direction_setDirection_same,
          sends_of_not_send (by simp)]
        refine Thins.of_eq ?_
        simp only [Direction.inOrder, Direction.delivered, reading,
          Forward.unread, List.take_append_drop, List.nil_append,
          List.append_nil]
    | readEof y =>
        obtain rfl : y = x := Option.some.inj acts
        obtain ⟨reading, _, _, rfl⟩ := Pair.step?_readEof stepped
        rw [Pair.direction_setDirection_same,
          sends_of_not_send (by simp)]
        refine Thins.of_eq ?_
        simp only [Direction.inOrder, Direction.delivered,
          Direction.finish, reading, Forward.unread, List.append_nil]
    | readFails y =>
        obtain rfl : y = x := Option.some.inj acts
        obtain ⟨reading, rfl⟩ := Pair.step?_readFails stepped
        rw [Pair.direction_setDirection_same,
          sends_of_not_send (by simp)]
        refine Thins.of_eq ?_
        simp only [Direction.inOrder, Direction.delivered,
          Direction.finish, reading, Forward.unread, List.append_nil]
    | snapshot y =>
        obtain rfl : y = x := Option.some.inj acts
        obtain ⟨buf, filled, rfl⟩ := Pair.step?_snapshot stepped
        rw [Pair.direction_setDirection_same,
          sends_of_not_send (by simp)]
        refine Thins.of_eq ?_
        simp only [Direction.inOrder, filled, unread_enterLoop,
          List.drop_zero, List.append_nil]
        rfl
    | decide y =>
        obtain rfl : y = x := Option.some.inj acts
        obtain ⟨k, buf, off, here, rfl⟩ := Pair.step?_decide stepped
        have decided := thins_decideChunk here
        rw [Pair.direction_setDirection_same,
          sends_of_not_send (by simp)]
        simp only [Pair.discards, here, true_and]
        exact decided
    | write y count =>
        obtain rfl : y = x := Option.some.inj acts
        obtain ⟨k, buf, off, size, here, _, _, _, rfl⟩ :=
          Pair.step?_write stepped
        rw [Pair.direction_setDirection_same,
          sends_of_not_send (by simp)]
        refine Thins.of_eq ?_
        rw [List.append_nil, Direction.inOrder, delivered_wroteChunk,
          Direction.inOrder, here, List.append_assoc]
        simp only [Direction.wroteChunk, unread_enterLoop]
        rw [← List.drop_drop, ← List.append_assoc (List.take _ _),
          List.take_append_drop]
        rfl
    | writeFails y =>
        obtain rfl : y = x := Option.some.inj acts
        obtain ⟨k, buf, off, size, here, rfl⟩ :=
          Pair.step?_writeFails stepped
        rw [Pair.direction_setDirection_same,
          sends_of_not_send (by simp)]
        have dropped :=
          Thins.of_drop (pair.direction y).delivered
            (pair.direction y).source (pair.direction y).forward.unread []
        rw [List.append_nil, List.nil_append] at dropped
        simp only [Pair.discards, ↓reduceIte]
        exact dropped
    | writeBroken y =>
        obtain ⟨k, buf, off, size, here, _, rfl⟩ :=
          Pair.step?_writeBroken stepped
        rw [sends_of_not_send (by simp)]
        exact Thins.of_eq (List.append_nil _).symm
  · exact thins_elsewhere stepped acts

/-- Only its user's reads change what was received from a direction. -/
theorem received_of_not_receive
    (stepped : pair.step? label = some next)
    (silent : ∀ y count, label ≠ .receive y count) :
    (next.direction x).received = (pair.direction x).received := by
  by_cases acts : label.direction? = some x
  · cases label with
    | send y bytes =>
        obtain rfl : y = x := Option.some.inj acts
        obtain ⟨_, rfl⟩ := Pair.step?_send stepped
        rw [Pair.direction_setDirection_same]
    | receive y count =>
        exact absurd rfl (silent y count)
    | closeUser y | setKnobs k =>
        exact absurd acts (by simp [Label.direction?])
    | read y count =>
        obtain rfl : y = x := Option.some.inj acts
        obtain ⟨_, _, _, _, rfl⟩ := Pair.step?_read stepped
        rw [Pair.direction_setDirection_same]
    | readEof y =>
        obtain rfl : y = x := Option.some.inj acts
        obtain ⟨_, _, _, rfl⟩ := Pair.step?_readEof stepped
        rw [Pair.direction_setDirection_same]
        rfl
    | readFails y =>
        obtain rfl : y = x := Option.some.inj acts
        obtain ⟨_, rfl⟩ := Pair.step?_readFails stepped
        rw [Pair.direction_setDirection_same]
        rfl
    | snapshot y =>
        obtain rfl : y = x := Option.some.inj acts
        obtain ⟨_, _, rfl⟩ := Pair.step?_snapshot stepped
        rw [Pair.direction_setDirection_same]
    | decide y =>
        obtain rfl : y = x := Option.some.inj acts
        obtain ⟨_, _, _, _, rfl⟩ := Pair.step?_decide stepped
        rw [Pair.direction_setDirection_same]
        simp only [Direction.decideChunk]
        split <;> rfl
    | write y count =>
        obtain rfl : y = x := Option.some.inj acts
        obtain ⟨_, _, _, _, _, _, _, _, rfl⟩ := Pair.step?_write stepped
        rw [Pair.direction_setDirection_same]
        rfl
    | writeFails y =>
        obtain rfl : y = x := Option.some.inj acts
        obtain ⟨_, _, _, _, _, rfl⟩ := Pair.step?_writeFails stepped
        rw [Pair.direction_setDirection_same]
        rfl
    | writeBroken y =>
        obtain ⟨_, _, _, _, _, _, rfl⟩ := Pair.step?_writeBroken stepped
        rfl
  · rw [Pair.direction_of_elsewhere stepped acts]

/-- Only closing a user end closes one. -/
theorem closed_of_not_closeUser
    (stepped : pair.step? label = some next)
    (silent : ∀ y, label ≠ .closeUser y) :
    next.closed = pair.closed := by
  cases Pair.change_of_step? stepped with
  | moves y direction acts whole | sets k | breaks y =>
      rfl
  | closes y =>
      exact absurd rfl (silent y)

/-- What a step of either forwarder leaves to the users. -/
structure Forwarded (pair next : Pair) : Prop where
  alive : next.killed = false
  knobs : next.knobs = pair.knobs
  closed : next.closed = pair.closed
  received : ∀ x,
    (next.direction x).received = (pair.direction x).received
  thinned : ∀ x,
    (next.direction x).inOrder.Sublist (pair.direction x).inOrder
  sound : ∀ x, (pair.direction x).Sound → (next.direction x).Sound

/-- A forwarder's step is no call of a user. -/
theorem forwarded_of_forwards
    {y : End}
    (stepped : pair.step? label = some next)
    (forwards : label.forwards y = true) :
    Forwarded pair next := by
  have notBroken : ∀ z, label ≠ .writeBroken z := by
    rintro z rfl
    exact absurd forwards Bool.false_ne_true
  have notKnobs : ∀ k, label ≠ .setKnobs k := by
    rintro k rfl
    exact absurd forwards Bool.false_ne_true
  have notClose : ∀ z, label ≠ .closeUser z := by
    rintro z rfl
    exact absurd forwards Bool.false_ne_true
  have notReceive : ∀ z count, label ≠ .receive z count := by
    rintro z count rfl
    exact absurd forwards Bool.false_ne_true
  have notSend : ∀ x bytes, label ≠ .send x bytes := by
    rintro x bytes rfl
    exact absurd forwards Bool.false_ne_true
  exact {
    alive := Pair.killed_of_not_writeBroken stepped notBroken
    knobs := Pair.knobs_of_not_setKnobs stepped notKnobs
    closed := closed_of_not_closeUser stepped notClose
    received := fun _ => received_of_not_receive stepped notReceive
    thinned := by
      intro x
      have thinned := (thins_step (x := x) stepped).sublist
      rw [sends_of_not_send (notSend x), List.append_nil] at thinned
      exact thinned
    sound := fun _ sound => sound_step sound stepped
  }

/-- Every run of the pair only thins a direction. -/
theorem thins_run
    (ran : pair.run? labels = some final) :
    Thins (pair.direction x).inOrder (sentFrom x labels).flatten
      (Pair.discardsIn x pair labels) (final.direction x).inOrder := by
  induction labels generalizing pair with
  | nil =>
      simp only [Transition.run?_nil, Option.some.injEq] at ran
      subst ran
      exact Thins.of_eq (List.append_nil _).symm
  | cons label rest inductionHypothesis =>
      obtain ⟨next, stepped, ranRest⟩ :=
        Transition.run?_cons_eq_some.mp ran
      have sent :
          (sentFrom x (label :: rest)).flatten =
            label.sends x ++ (sentFrom x rest).flatten := by
        rw [Label.sends, ← List.flatten_append, sentFrom, sentFrom,
          sentFrom, ← List.filterMap_append]
        rfl
      rw [sent, Pair.discardsIn, stepped]
      exact (thins_step stepped).trans (inductionHypothesis ranRest)

end Steps

section Batches

variable
  {x : End}
  {k : Knobs}
  {c : Nat}
  {rng : PgXosh}
  {pair next : Pair}
  {label : Label}

/-- Only the messages sent matter to the filter. -/
theorem FilteredAt.congr
    {earlier other : List Label}
    (filteredAt : FilteredAt x k c rng earlier pair)
    (same : sentFrom x other = sentFrom x earlier) :
    FilteredAt x k c rng other pair := by
  obtain ⟨knobs, done, rest, sent, filtered⟩ := filteredAt
  exact ⟨knobs, done, rest, same.trans sent, filtered⟩

/-- The messages of a sender that repeats itself. -/
theorem sentFrom_replicate
    (x : End)
    (count : Nat)
    (message : List UInt8) :
    sentFrom x (List.replicate count (.send x message)) =
      List.replicate count message := by
  rw [sentFrom, List.filterMap_replicate]
  simp

/-- A step that sends nothing leaves the messages sent alone. -/
theorem FilteredAt.quiet
    {earlier : List Label}
    (positive : 0 < c)
    (chunked : k.maxChunkBytes = c)
    (filteredAt : FilteredAt x k c rng earlier pair)
    (whole : WholeMessages x c pair label)
    (silent : ∀ bytes, label ≠ .send x bytes)
    (stepped : pair.step? label = some next) :
    FilteredAt x k c rng earlier next :=
  (filteredAt.step positive chunked whole stepped).congr
    (sentFrom_of_not_send silent earlier).symm

/-- Whole messages come last, however many are sent at once. -/
theorem Filtered.sentBatch
    {done rest : List (List UInt8)}
    {direction : Direction}
    {message : List UInt8}
    (filtered : Filtered k c rng done rest direction)
    (wide : message.length = c)
    (count : Nat) :
    Filtered k c rng done (rest ++ List.replicate count message)
      { direction with
        source :=
          direction.source ++ (List.replicate count message).flatten } := by
  induction count with
  | zero =>
      simpa using filtered
  | succ count inductionHypothesis =>
      have sent := inductionHypothesis.sent wide
      have flat :
          (List.replicate (count + 1) message).flatten =
            (List.replicate count message).flatten ++ message := by
        rw [List.replicate_succ', List.flatten_append,
          List.flatten_singleton]
      rw [List.append_assoc, ← List.replicate_succ'] at sent
      rw [flat, ← List.append_assoc]
      exact sent

/-- A write of several messages sends them one after the other. -/
theorem FilteredAt.sendsBatch
    {earlier count : Nat}
    {message : List UInt8}
    (filteredAt :
      FilteredAt x k c rng
        (List.replicate earlier (.send x message)) pair)
    (wide : message.length = c)
    (stepped :
      pair.step? (.send x (List.replicate count message).flatten) =
        some next) :
    FilteredAt x k c rng
      (List.replicate (earlier + count) (.send x message)) next := by
  obtain ⟨knobs, done, rest, sent, filtered⟩ := filteredAt
  obtain ⟨_, rfl⟩ := Pair.step?_send stepped
  refine ⟨knobs, done, rest ++ List.replicate count message, ?_, ?_⟩
  · rw [sentFrom_replicate] at sent
    rw [sentFrom_replicate, List.replicate_add, sent, List.append_assoc]
  · rw [Pair.direction_setDirection_same]
    exact filtered.sentBatch wide count

/-- A forwarder's step that moves whole chunks. -/
theorem wholeMessages_of_forwards
    {y : End}
    (forwards : label.forwards y = true)
    (whole : label.movesWhole c pair = true)
    (readsOn : label ≠ .readFails x)
    (writesOn : label ≠ .writeFails x) :
    WholeMessages x c pair label := by
  cases label with
  | read z count =>
      intro _
      exact Nat.dvd_of_mod_eq_zero (beq_iff_eq.mp whole)
  | write z count =>
      rintro rfl
      exact beq_iff_eq.mp whole
  | readFails z =>
      intro same
      exact readsOn (by rw [same])
  | writeFails z =>
      intro same
      exact writesOn (by rw [same])
  | readEof z | snapshot z | decide z =>
      trivial
  | send z bytes | receive z count | closeUser z | setKnobs k
  | writeBroken z =>
      exact absurd forwards Bool.false_ne_true

/-- A forwarder's step leaves the other direction alone. -/
theorem direction_of_forwards
    {y : End}
    (different : y ≠ x)
    (forwards : label.forwards x = true)
    (stepped : pair.step? label = some next) :
    next.direction y = pair.direction y := by
  refine Pair.direction_of_elsewhere stepped fun acts => different ?_
  exact (Option.some.inj
    ((direction?_of_forwards forwards).symm.trans acts)).symm

/-- A forwarder that has returned takes no steps. -/
theorem elsewhere_of_returned
    {y : End}
    (returned : (pair.direction x).forward = .returned)
    (forwards : label.forwards y = true)
    (stepped : pair.step? label = some next) :
    next.direction x = pair.direction x := by
  refine Pair.direction_of_elsewhere stepped fun acts => ?_
  obtain rfl : y = x :=
    Option.some.inj ((direction?_of_forwards forwards).symm.trans acts)
  cases label with
  | read z count =>
      obtain rfl : z = y := beq_iff_eq.mp forwards
      have reading := (Pair.step?_read stepped).1
      rw [returned] at reading
      cases reading
  | readEof z =>
      obtain rfl : z = y := beq_iff_eq.mp forwards
      have reading := (Pair.step?_readEof stepped).1
      rw [returned] at reading
      cases reading
  | readFails z =>
      obtain rfl : z = y := beq_iff_eq.mp forwards
      have reading := (Pair.step?_readFails stepped).1
      rw [returned] at reading
      cases reading
  | snapshot z =>
      obtain rfl : z = y := beq_iff_eq.mp forwards
      obtain ⟨buf, filled, _⟩ := Pair.step?_snapshot stepped
      rw [returned] at filled
      cases filled
  | decide z =>
      obtain rfl : z = y := beq_iff_eq.mp forwards
      obtain ⟨k, buf, off, here, _⟩ := Pair.step?_decide stepped
      rw [returned] at here
      cases here
  | write z count =>
      obtain rfl : z = y := beq_iff_eq.mp forwards
      obtain ⟨k, buf, off, size, here, _⟩ := Pair.step?_write stepped
      rw [returned] at here
      cases here
  | writeFails z =>
      obtain rfl : z = y := beq_iff_eq.mp forwards
      obtain ⟨k, buf, off, size, here, _⟩ := Pair.step?_writeFails stepped
      rw [returned] at here
      cases here
  | send z bytes | receive z count | closeUser z | setKnobs k
  | writeBroken z =>
      exact absurd forwards Bool.false_ne_true

end Batches

/--
Whatever the seed, the knobs set on the way, the sizes of the reads and
writes, the calls that fail and the ends that close: a user only ever receives
bytes that the other user sent, in their order and none of them twice, and
what was sent is received, under way, or given up by a lost chunk or a failed
write.
-/
theorem proxy_only_deletes
    (k : Knobs)
    (seed : UInt64)
    (labels : List Label)
    (pair : Pair)
    (ran : (Pair.start k seed).run? labels = some pair)
    (x : End) :
    (pair.direction x).received.Sublist (sentFrom x labels).flatten ∧
      (pair.direction x).received.length +
          (pair.direction x).arrived.length +
          (pair.direction x).forward.unread.length +
          (pair.direction x).source.length +
          Pair.discardsIn x (Pair.start k seed) labels =
        (sentFrom x labels).flatten.length := by
  have thinned : Thins ((Pair.start k seed).direction x).inOrder _ _ _ :=
    thins_run ran
  have empty : ((Pair.start k seed).direction x).inOrder = [] := rfl
  rw [empty] at thinned
  constructor
  · refine List.Sublist.trans ?_ thinned.sublist
    rw [Direction.inOrder, Direction.delivered, List.append_assoc]
    exact List.sublist_append_left _ _
  · have counted := thinned.counted
    simp only [Direction.inOrder, Direction.delivered,
      List.length_append, List.length_nil] at counted
    omega

/-- Two messages are sent; the first is lost and half of the second taken. -/
theorem proxy_only_deletes_twoMessages :
    ∃ pair,
      (Pair.start packetLossKnobs 1).run?
          (twoMessagesRun ++ [.receive .b 8]) = some pair ∧
        (pair.direction .a).received.Sublist
          (List.replicate 16 88 ++ List.replicate 16 89) ∧
        Pair.discardsIn .a (Pair.start packetLossKnobs 1)
          (twoMessagesRun ++ [.receive .b 8]) = 16 := by
  have enabled :
      ((Pair.start packetLossKnobs 1).run?
        (twoMessagesRun ++ [.receive .b 8])).isSome = true := by
    decide +kernel
  obtain ⟨pair, ran⟩ := Option.isSome_iff_exists.mp enabled
  have deletes := proxy_only_deletes packetLossKnobs 1 _ pair ran .a
  exact ⟨pair, ran, deletes.1, by decide +kernel⟩

end FailurePlayground.ChaosNet
