import Mathlib.Data.Rat.Defs
import Mathlib.Logic.Function.Basic
import FailurePlayground.Rand
import FailurePlayground.Lib.Transition

namespace FailurePlayground.ChaosNet

/-!
# The proxied socket pair

`chaos_net_pair` joins two user ends through two forwarder threads that share
one set of knobs.  A step is one system call or one decision of a forwarder,
or one call of a user.  The kernel chooses how many bytes a read or a write
moves and when a call happens; a delay is time spent before a write.
-/

/-- The values of a C `double`; a finite one is a rational. -/
inductive CDouble where
  | finite (value : ℚ)
  | posInfinity
  | negInfinity
  | nan
  deriving DecidableEq

namespace CDouble

/-- The comparison `p > 0.0`. -/
def gtZero : CDouble → Bool
  | .finite value => decide (0 < value)
  | .posInfinity => true
  | .negInfinity | .nan => false

/-- The comparison `u < p` with a finite left side. -/
def exceeds (unit : ℚ) : CDouble → Bool
  | .finite value => decide (unit < value)
  | .posInfinity => true
  | .negInfinity | .nan => false

end CDouble

/-- `chaos_net_knobs_t`. -/
structure Knobs where
  lossProb : CDouble
  delayMinNs : UInt64
  delayMaxNs : UInt64
  maxChunkBytes : Int
  deriving DecidableEq

/-- `rand_unit`: both conversion and division are exact on 53 bits. -/
def randUnit (r : PgXosh) : ℚ × PgXosh :=
  ((top53 r : ℚ) / 2 ^ 53, (pgXoshNext r).2)

/-- `apply_delay`: the nanoseconds slept, and the generator. -/
def applyDelay (rng : PgXosh) (minNs maxNs : UInt64) : UInt64 × PgXosh :=
  let span := if maxNs > minNs then maxNs - minNs else 0
  if span ≠ 0 then
    (minNs + (pgXoshNext rng).1 % span, (pgXoshNext rng).2)
  else
    (minNs, rng)

/-- The loss test of `forward_fn`; it draws only when loss is possible. -/
def lossDraw (k : Knobs) (rng : PgXosh) : Bool × PgXosh :=
  if k.lossProb.gtZero then
    (k.lossProb.exceeds (randUnit rng).1, (randUnit rng).2)
  else
    (false, rng)

/-- The delay of `forward_fn`. -/
def delayDraw (k : Knobs) (rng : PgXosh) : UInt64 × PgXosh :=
  if k.delayMaxNs > 0 then
    applyDelay rng k.delayMinNs k.delayMaxNs
  else
    (0, rng)

/-- The size of the forwarder's buffer. -/
def bufSize : Nat := 4096

/-- `chunk_max` for a read of `n` bytes. -/
def chunkMax (k : Knobs) (n : Nat) : Nat :=
  if k.maxChunkBytes > 0 then k.maxChunkBytes.toNat else n

/-- `this`: the size of the chunk at `off`. -/
def thisChunk (k : Knobs) (buf : List UInt8) (off : Nat) : Nat :=
  min (buf.length - off) (chunkMax k buf.length)

/-- Where a forwarder stands in `forward_fn`. -/
inductive Forward where
  | reading
  | filled (buf : List UInt8)
  | atLoss (k : Knobs) (buf : List UInt8) (off : Nat)
  | atWrite (k : Knobs) (buf : List UInt8) (off size : Nat)
  | returned
  deriving DecidableEq

/-- The test of the inner loop. -/
def enterLoop (k : Knobs) (buf : List UInt8) (off : Nat) : Forward :=
  if off < buf.length then .atLoss k buf off else .reading

/-- A user end of the pair; a direction is named after the end it reads. -/
inductive End where
  | a
  | b
  deriving Repr, DecidableEq

namespace End

/-- The other end. -/
def other : End → End
  | .a => .b
  | .b => .a

@[simp] theorem other_other (x : End) : x.other.other = x := by
  cases x <;> rfl

@[simp] theorem other_ne (x : End) : x.other ≠ x := by
  cases x <;> decide

/-- The mask `chaos_net_pair` seeds the direction's generator with. -/
def seedMask : End → UInt64
  | .a => 0xA1A1A1A1A1A1A1A1
  | .b => 0xB2B2B2B2B2B2B2B2

end End

/--
One direction: its forwarder and generator, the bytes waiting to be read by
the forwarder, the bytes that have arrived at the far end, those the far user
has taken since the start, and whether the far end has been sent EOF.
-/
structure Direction where
  forward : Forward
  rng : PgXosh
  source : List UInt8
  arrived : List UInt8
  received : List UInt8
  ended : Bool
  deriving DecidableEq

namespace Direction

/-- Every byte written to the far end, in order. -/
def delivered (direction : Direction) : List UInt8 :=
  direction.received ++ direction.arrived

/-- `forward_fn` leaves its loop: `shutdown` signals EOF to the far end. -/
def finish (direction : Direction) : Direction :=
  { direction with forward := .returned, ended := true }

/-- The chunk decision: the loss test, then the delay of a kept chunk. -/
def decideChunk
    (direction : Direction)
    (k : Knobs)
    (buf : List UInt8)
    (off : Nat) : Direction :=
  let size := thisChunk k buf off
  let (lost, rng) := lossDraw k direction.rng
  if lost then
    { direction with forward := enterLoop k buf (off + size), rng := rng }
  else
    { direction with
      forward := .atWrite k buf off size
      rng := (delayDraw k rng).2 }

/-- A write that took `count` bytes of the chunk. -/
def wroteChunk
    (direction : Direction)
    (k : Knobs)
    (buf : List UInt8)
    (off count : Nat) : Direction :=
  { direction with
    forward := enterLoop k buf (off + count)
    arrived := direction.arrived ++ (buf.drop off).take count }

end Direction

/-- The pair: shared knobs, both directions, and the closed user ends. -/
structure Pair where
  knobs : Knobs
  direction : End → Direction
  closed : End → Bool
  killed : Bool

/-- One step of a user, of the kernel's choices, or of a forwarder. -/
inductive Label where
  | send (x : End) (bytes : List UInt8)
  | receive (x : End) (count : Nat)
  | closeUser (x : End)
  | setKnobs (k : Knobs)
  | read (x : End) (count : Nat)
  | readEof (x : End)
  | readFails (x : End)
  | snapshot (x : End)
  | decide (x : End)
  | write (x : End) (count : Nat)
  | writeFails (x : End)
  | writeBroken (x : End)
  deriving DecidableEq

namespace Pair

/-- Replace one direction. -/
def setDirection
    (pair : Pair)
    (x : End)
    (direction : Direction) : Pair :=
  { pair with
    direction := Function.update pair.direction x direction }

@[simp] theorem direction_setDirection_same
    (pair : Pair)
    (x : End)
    (direction : Direction) :
    (pair.setDirection x direction).direction x = direction := by
  simp [setDirection]

@[simp] theorem direction_setDirection_other
    (pair : Pair)
    {x y : End}
    (different : y ≠ x)
    (direction : Direction) :
    (pair.setDirection x direction).direction y = pair.direction y := by
  simp [setDirection, Function.update_of_ne different]

@[simp] theorem knobs_setDirection
    (pair : Pair)
    (x : End)
    (direction : Direction) :
    (pair.setDirection x direction).knobs = pair.knobs := rfl

@[simp] theorem closed_setDirection
    (pair : Pair)
    (x : End)
    (direction : Direction) :
    (pair.setDirection x direction).closed = pair.closed := rfl

@[simp] theorem killed_setDirection
    (pair : Pair)
    (x : End)
    (direction : Direction) :
    (pair.setDirection x direction).killed = pair.killed := rfl

/-- A step of a process that is still alive. -/
def stepAlive? (pair : Pair) : Label → Option Pair
  | .send x bytes =>
      let direction := pair.direction x
      if pair.closed x then
        none
      else
        some (pair.setDirection x
          { direction with source := direction.source ++ bytes })
  | .receive x count =>
      let direction := pair.direction x.other
      if ¬ pair.closed x ∧ 0 < count ∧
          count ≤ direction.arrived.length then
        some (pair.setDirection x.other
          { direction with
            arrived := direction.arrived.drop count
            received :=
              direction.received ++ direction.arrived.take count })
      else
        none
  | .closeUser x =>
      some { pair with closed := Function.update pair.closed x true }
  | .setKnobs k =>
      some { pair with knobs := k }
  | .read x count =>
      let direction := pair.direction x
      if direction.forward = .reading ∧ 0 < count ∧
          count ≤ bufSize ∧ count ≤ direction.source.length then
        some (pair.setDirection x
          { direction with
            forward := .filled (direction.source.take count)
            source := direction.source.drop count })
      else
        none
  | .readEof x =>
      let direction := pair.direction x
      if direction.forward = .reading ∧ direction.source = [] ∧
          pair.closed x then
        some (pair.setDirection x direction.finish)
      else
        none
  | .readFails x =>
      let direction := pair.direction x
      if direction.forward = .reading then
        some (pair.setDirection x direction.finish)
      else
        none
  | .snapshot x =>
      let direction := pair.direction x
      match direction.forward with
      | .filled buf =>
          some (pair.setDirection x
            { direction with
              forward := enterLoop pair.knobs buf 0 })
      | _ => none
  | .decide x =>
      let direction := pair.direction x
      match direction.forward with
      | .atLoss k buf off =>
          some (pair.setDirection x (direction.decideChunk k buf off))
      | _ => none
  | .write x count =>
      let direction := pair.direction x
      match direction.forward with
      | .atWrite k buf off size =>
          if ¬ pair.closed x.other ∧ 0 < count ∧ count ≤ size then
            some (pair.setDirection x
              (direction.wroteChunk k buf off count))
          else
            none
      | _ => none
  | .writeFails x =>
      -- Also of a write that waits for room when the far end is closed.
      let direction := pair.direction x
      match direction.forward with
      | .atWrite _ _ _ _ => some (pair.setDirection x direction.finish)
      | _ => none
  | .writeBroken x =>
      match (pair.direction x).forward with
      | .atWrite _ _ _ _ =>
          if pair.closed x.other then
            some { pair with killed := true }
          else
            none
      | _ => none

/-- Execute one enabled label; `SIGPIPE` kills the process. -/
def step? (pair : Pair) (label : Label) : Option Pair :=
  if pair.killed then none else pair.stepAlive? label

/-- Execute a finite interleaving. -/
abbrev run? : Pair → List Label → Option Pair :=
  Transition.run? step?

/-- The generator of one direction. -/
def rngOf (seed : UInt64) (x : End) : PgXosh :=
  pgXoshSeed (seed ^^^ x.seedMask)

/-- The pair `chaos_net_pair` returns. -/
def start (k : Knobs) (seed : UInt64) : Pair where
  knobs := k
  direction := fun x => {
    forward := .reading
    rng := rngOf seed x
    source := []
    arrived := []
    received := []
    ended := false
  }
  closed := fun _ => false
  killed := false

end Pair

/-- The direction a label acts on, apart from closing and knobs. -/
def Label.direction? : Label → Option End
  | .send x _ | .read x _ | .readEof x | .readFails x | .snapshot x
  | .decide x | .write x _ | .writeFails x | .writeBroken x => some x
  | .receive x _ => some x.other
  | .closeUser _ | .setKnobs _ => none

namespace Pair

section Inversion

variable {pair next : Pair} {x : End} {count : Nat}

/-- Only a live process takes steps. -/
theorem step?_alive
    {label : Label}
    (stepped : pair.step? label = some next) :
    pair.killed = false ∧ pair.stepAlive? label = some next := by
  simp only [step?, Option.ite_none_left_eq_some] at stepped
  exact ⟨Bool.eq_false_of_not_eq_true stepped.1, stepped.2⟩

/-- A user's write waits to be read by the forwarder. -/
theorem step?_send
    {bytes : List UInt8}
    (stepped : pair.step? (.send x bytes) = some next) :
    pair.closed x = false ∧
      next =
        pair.setDirection x
          { pair.direction x with
            source := (pair.direction x).source ++ bytes } := by
  have taken := (step?_alive stepped).2
  simp only [stepAlive?, Option.ite_none_left_eq_some,
    Option.some.injEq] at taken
  exact ⟨Bool.eq_false_of_not_eq_true taken.1, taken.2.symm⟩

/-- A user's read takes bytes that have arrived. -/
theorem step?_receive
    (stepped : pair.step? (.receive x count) = some next) :
    pair.closed x = false ∧ 0 < count ∧
      count ≤ (pair.direction x.other).arrived.length ∧
      next =
        pair.setDirection x.other
          { pair.direction x.other with
            arrived := (pair.direction x.other).arrived.drop count
            received :=
              (pair.direction x.other).received ++
                (pair.direction x.other).arrived.take count } := by
  have taken := (step?_alive stepped).2
  simp only [stepAlive?, Option.ite_none_right_eq_some,
    Option.some.injEq] at taken
  exact ⟨Bool.eq_false_of_not_eq_true taken.1.1, taken.1.2.1,
    taken.1.2.2, taken.2.symm⟩

/-- A user's close touches no direction. -/
theorem step?_closeUser
    (stepped : pair.step? (.closeUser x) = some next) :
    next = { pair with closed := Function.update pair.closed x true } := by
  have taken := (step?_alive stepped).2
  simp only [stepAlive?, Option.some.injEq] at taken
  exact taken.symm

/-- Setting the knobs touches no direction. -/
theorem step?_setKnobs
    {k : Knobs}
    (stepped : pair.step? (.setKnobs k) = some next) :
    next = { pair with knobs := k } := by
  have taken := (step?_alive stepped).2
  simp only [stepAlive?, Option.some.injEq] at taken
  exact taken.symm

/-- A forwarder's read fills its buffer. -/
theorem step?_read
    (stepped : pair.step? (.read x count) = some next) :
    (pair.direction x).forward = .reading ∧ 0 < count ∧
      count ≤ bufSize ∧ count ≤ (pair.direction x).source.length ∧
      next =
        pair.setDirection x
          { pair.direction x with
            forward := .filled ((pair.direction x).source.take count)
            source := (pair.direction x).source.drop count } := by
  have taken := (step?_alive stepped).2
  simp only [stepAlive?, Option.ite_none_right_eq_some,
    Option.some.injEq] at taken
  exact ⟨taken.1.1, taken.1.2.1, taken.1.2.2.1, taken.1.2.2.2,
    taken.2.symm⟩

/-- A forwarder reads EOF once its user end is closed and drained. -/
theorem step?_readEof
    (stepped : pair.step? (.readEof x) = some next) :
    (pair.direction x).forward = .reading ∧
      (pair.direction x).source = [] ∧ pair.closed x = true ∧
      next = pair.setDirection x (pair.direction x).finish := by
  have taken := (step?_alive stepped).2
  simp only [stepAlive?, Option.ite_none_right_eq_some,
    Option.some.injEq] at taken
  exact ⟨taken.1.1, taken.1.2.1, taken.1.2.2, taken.2.symm⟩

/-- A failed read ends the forwarder. -/
theorem step?_readFails
    (stepped : pair.step? (.readFails x) = some next) :
    (pair.direction x).forward = .reading ∧
      next = pair.setDirection x (pair.direction x).finish := by
  have taken := (step?_alive stepped).2
  simp only [stepAlive?, Option.ite_none_right_eq_some,
    Option.some.injEq] at taken
  exact ⟨taken.1, taken.2.symm⟩

/-- A snapshot takes the knobs in force and enters the inner loop. -/
theorem step?_snapshot
    (stepped : pair.step? (.snapshot x) = some next) :
    ∃ buf,
      (pair.direction x).forward = .filled buf ∧
        next =
          pair.setDirection x
            { pair.direction x with
              forward := enterLoop pair.knobs buf 0 } := by
  have taken := (step?_alive stepped).2
  simp only [stepAlive?] at taken
  split at taken
  · rename_i buf filled
    exact ⟨buf, filled, (Option.some.inj taken).symm⟩
  · exact absurd taken (by simp)

/-- A decision is about the chunk at the current offset. -/
theorem step?_decide
    (stepped : pair.step? (.decide x) = some next) :
    ∃ k buf off,
      (pair.direction x).forward = .atLoss k buf off ∧
        next =
          pair.setDirection x
            ((pair.direction x).decideChunk k buf off) := by
  have taken := (step?_alive stepped).2
  simp only [stepAlive?] at taken
  split at taken
  · rename_i k buf off here
    exact ⟨k, buf, off, here, (Option.some.inj taken).symm⟩
  · exact absurd taken (by simp)

/-- A write puts part of the kept chunk into an open far end. -/
theorem step?_write
    (stepped : pair.step? (.write x count) = some next) :
    ∃ k buf off size,
      (pair.direction x).forward = .atWrite k buf off size ∧
        pair.closed x.other = false ∧ 0 < count ∧ count ≤ size ∧
        next =
          pair.setDirection x
            ((pair.direction x).wroteChunk k buf off count) := by
  have taken := (step?_alive stepped).2
  simp only [stepAlive?] at taken
  split at taken
  · rename_i k buf off size here
    simp only [Option.ite_none_right_eq_some,
      Option.some.injEq] at taken
    exact ⟨k, buf, off, size, here,
      Bool.eq_false_of_not_eq_true taken.1.1, taken.1.2.1,
      taken.1.2.2, taken.2.symm⟩
  · exact absurd taken (by simp)

/-- A failed write ends the forwarder. -/
theorem step?_writeFails
    (stepped : pair.step? (.writeFails x) = some next) :
    ∃ k buf off size,
      (pair.direction x).forward = .atWrite k buf off size ∧
        next = pair.setDirection x (pair.direction x).finish := by
  have taken := (step?_alive stepped).2
  simp only [stepAlive?] at taken
  split at taken
  · rename_i k buf off size here
    simp only [Option.some.injEq] at taken
    exact ⟨k, buf, off, size, here, taken.symm⟩
  · exact absurd taken (by simp)

/-- A write to a closed far end kills the process. -/
theorem step?_writeBroken
    (stepped : pair.step? (.writeBroken x) = some next) :
    ∃ k buf off size,
      (pair.direction x).forward = .atWrite k buf off size ∧
        pair.closed x.other = true ∧
        next = { pair with killed := true } := by
  have taken := (step?_alive stepped).2
  simp only [stepAlive?] at taken
  split at taken
  · rename_i k buf off size here
    simp only [Option.ite_none_right_eq_some,
      Option.some.injEq] at taken
    exact ⟨k, buf, off, size, here, taken.1, taken.2.symm⟩
  · exact absurd taken (by simp)

/-- What a step can change: one direction, or one fact about the pair. -/
inductive Change (pair : Pair) : Label → Pair → Prop where
  | moves
      {label : Label}
      (y : End)
      (direction : Direction)
      (acts : label.direction? = some y)
      (whole : ∀ z, label ≠ .writeBroken z) :
      Change pair label (pair.setDirection y direction)
  | closes (y : End) :
      Change pair (.closeUser y)
        { pair with closed := Function.update pair.closed y true }
  | sets (k : Knobs) :
      Change pair (.setKnobs k) { pair with knobs := k }
  | breaks (y : End) :
      Change pair (.writeBroken y) { pair with killed := true }

/-- Every step is one of these changes. -/
theorem change_of_step?
    {label : Label}
    (stepped : pair.step? label = some next) :
    Change pair label next := by
  cases label with
  | send y bytes =>
      obtain ⟨_, rfl⟩ := step?_send stepped
      exact .moves y _ rfl (by simp)
  | receive y count =>
      obtain ⟨_, _, _, rfl⟩ := step?_receive stepped
      exact .moves y.other _ rfl (by simp)
  | closeUser y =>
      rw [step?_closeUser stepped]
      exact .closes y
  | setKnobs k =>
      rw [step?_setKnobs stepped]
      exact .sets k
  | read y count =>
      obtain ⟨_, _, _, _, rfl⟩ := step?_read stepped
      exact .moves y _ rfl (by simp)
  | readEof y =>
      obtain ⟨_, _, _, rfl⟩ := step?_readEof stepped
      exact .moves y _ rfl (by simp)
  | readFails y =>
      obtain ⟨_, rfl⟩ := step?_readFails stepped
      exact .moves y _ rfl (by simp)
  | snapshot y =>
      obtain ⟨_, _, rfl⟩ := step?_snapshot stepped
      exact .moves y _ rfl (by simp)
  | decide y =>
      obtain ⟨_, _, _, _, rfl⟩ := step?_decide stepped
      exact .moves y _ rfl (by simp)
  | write y count =>
      obtain ⟨_, _, _, _, _, _, _, _, rfl⟩ := step?_write stepped
      exact .moves y _ rfl (by simp)
  | writeFails y =>
      obtain ⟨_, _, _, _, _, rfl⟩ := step?_writeFails stepped
      exact .moves y _ rfl (by simp)
  | writeBroken y =>
      obtain ⟨_, _, _, _, _, _, rfl⟩ := step?_writeBroken stepped
      exact .breaks y

/-- A step leaves the direction it does not act on alone. -/
theorem direction_of_elsewhere
    {label : Label}
    (stepped : pair.step? label = some next)
    (elsewhere : label.direction? ≠ some x) :
    next.direction x = pair.direction x := by
  cases change_of_step? stepped with
  | moves y direction acts whole =>
      have different : x ≠ y :=
        fun same => elsewhere (same ▸ acts)
      exact direction_setDirection_other _ different direction
  | closes y | sets k | breaks y =>
      rfl

/-- Only `chaos_net_set_knobs` changes the knobs. -/
theorem knobs_of_not_setKnobs
    {label : Label}
    (stepped : pair.step? label = some next)
    (other : ∀ k, label ≠ .setKnobs k) :
    next.knobs = pair.knobs := by
  cases change_of_step? stepped with
  | moves y direction acts whole | closes y | breaks y =>
      rfl
  | sets k =>
      exact absurd rfl (other k)

/-- Only a broken write kills the process. -/
theorem killed_of_not_writeBroken
    {label : Label}
    (stepped : pair.step? label = some next)
    (other : ∀ y, label ≠ .writeBroken y) :
    next.killed = false := by
  have alive := (step?_alive stepped).1
  cases change_of_step? stepped with
  | moves y direction acts whole | closes y | sets k =>
      exact alive
  | breaks y =>
      exact absurd rfl (other y)

end Inversion

end Pair

section UnderWay

/-- The bytes a forwarder has read and not yet disposed of. -/
def Forward.unread : Forward → List UInt8
  | .filled buf => buf
  | .atLoss _ buf off | .atWrite _ buf off _ => buf.drop off
  | .reading | .returned => []

/-- Entering the inner loop leaves the bytes from the offset on. -/
@[simp] theorem unread_enterLoop
    (k : Knobs)
    (buf : List UInt8)
    (off : Nat) :
    (enterLoop k buf off).unread = buf.drop off := by
  by_cases inside : off < buf.length
  · simp only [enterLoop, inside, ↓reduceIte, Forward.unread]
  · simp only [enterLoop, inside, ↓reduceIte, Forward.unread]
    exact (List.drop_eq_nil_of_le (Nat.le_of_not_lt inside)).symm

/-- The bytes a forwarder offers to its next write. -/
def Forward.offered : Forward → Nat
  | .atWrite _ _ _ size => size
  | .reading | .filled _ | .atLoss _ _ _ | .returned => 0

/-- Nothing lies between the user's last write and the far end. -/
def Direction.caughtUp (direction : Direction) : Prop :=
  direction.forward.unread = [] ∧ direction.source = []

instance (direction : Direction) : Decidable direction.caughtUp :=
  inferInstanceAs (Decidable (_ ∧ _))

/-- A user's read moves bytes along without changing what was delivered. -/
theorem delivered_receive
    (direction : Direction)
    (count : Nat) :
    ({ direction with
        arrived := direction.arrived.drop count
        received :=
          direction.received ++ direction.arrived.take count } :
      Direction).delivered = direction.delivered := by
  simp only [Direction.delivered, List.append_assoc,
    List.take_append_drop]

/-- A write delivers the bytes it took. -/
theorem delivered_wroteChunk
    (direction : Direction)
    (k : Knobs)
    (buf : List UInt8)
    (off count : Nat) :
    (direction.wroteChunk k buf off count).delivered =
      direction.delivered ++ (buf.drop off).take count := by
  simp only [Direction.delivered, Direction.wroteChunk,
    List.append_assoc]

/-- The messages the user at `x` has written, in order. -/
def sentFrom (x : End) (labels : List Label) : List (List UInt8) :=
  labels.filterMap fun
    | .send y bytes => if y = x then some bytes else none
    | _ => none

/-- A write by the user adds one message. -/
theorem sentFrom_send
    (x : End)
    (earlier : List Label)
    (bytes : List UInt8) :
    sentFrom x (earlier ++ [.send x bytes]) =
      sentFrom x earlier ++ [bytes] := by
  simp [sentFrom]

/-- Any other step adds none. -/
theorem sentFrom_of_not_send
    {x : End}
    {label : Label}
    (silent : ∀ bytes, label ≠ .send x bytes)
    (earlier : List Label) :
    sentFrom x (earlier ++ [label]) = sentFrom x earlier := by
  cases label with
  | send y bytes =>
      have different : y ≠ x := fun same => silent bytes (by rw [same])
      simp [sentFrom, different]
  | _ =>
      simp [sentFrom]

end UnderWay

end FailurePlayground.ChaosNet
