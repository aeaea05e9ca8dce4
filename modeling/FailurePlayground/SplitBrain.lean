import FailurePlayground.RecordStream

namespace FailurePlayground.SplitBrain

/-!
# The split-brain scenario

Two replicas, the two forwarders of their pair and the main thread that heals
the partition.  A step is one statement of `replica_fn` that another thread can
see, one step of a forwarder, or the healing.
-/

open ChaosNet

/-- `ITERS`. -/
def iters : Nat := 30

/-- The two replicas. -/
inductive ReplicaId where
  | r1
  | r2
  deriving Repr, DecidableEq

namespace ReplicaId

/-- The other replica. -/
def peer : ReplicaId → ReplicaId
  | .r1 => .r2
  | .r2 => .r1

/-- The write end `run` gives a replica. -/
def sendFd : ReplicaId → End
  | .r1 => .a
  | .r2 => .b

/-- The read end `run` gives a replica. -/
def recvFd : ReplicaId → End
  | .r1 => .b
  | .r2 => .a

/-- What a replica reads is what it wrote itself. -/
@[simp] theorem recvFd_other (r : ReplicaId) :
    r.recvFd.other = r.sendFd := by
  cases r <;> rfl

/-- The replicas write to different ends. -/
theorem sendFd_injective : Function.Injective sendFd := by
  intro r other same
  cases r <;> cases other <;> first | rfl | cases same

end ReplicaId

/-- Where a replica stands in an iteration of `replica_fn`. -/
inductive Phase where
  | ready
  | publishing
  | draining
  deriving Repr, DecidableEq

/-- What `replica_fn` keeps of `replica_t`, and its loop counter. -/
structure Replica where
  phase : Phase
  ticks : Nat
  localCount : Nat
  lastPeerCount : Nat
  deriving Repr, DecidableEq

/--
The replicas and their pair, with the counts each has published and the counts
each has stored so far.
-/
structure State where
  pair : Pair
  replica : ReplicaId → Replica
  published : ReplicaId → List Nat
  heard : ReplicaId → List Nat

/-- One step of a replica, of the main thread, or of a forwarder. -/
inductive Label where
  | increment (r : ReplicaId)
  | publish (r : ReplicaId)
  | hear (r : ReplicaId)
  | stopDraining (r : ReplicaId)
  | heal
  | forward (label : ChaosNet.Label)
  deriving DecidableEq

/-- The bytes of an `int64_t` count. -/
def countBytes (count : Nat) : List UInt8 :=
  Bytes.toLE 8 count

/-- The knobs of the partition: every chunk is lost. -/
def partitioned : Knobs where
  lossProb := .finite 1
  delayMinNs := 0
  delayMaxNs := 0
  maxChunkBytes := 8

/-- The knobs after the partition has healed. -/
def healed : Knobs where
  lossProb := .finite 0
  delayMinNs := 0
  delayMaxNs := 0
  maxChunkBytes := 8

/--
The steps of the forwarders.  A count is written in one call and the sockets
never fill, so a read takes whole counts and a write takes its whole chunk.
-/
def forwarderStep (pair : Pair) (label : ChaosNet.Label) : Bool :=
  (label.forwards .a || label.forwards .b) && label.movesWhole 8 pair

namespace State

/-- The bytes a replica finds at its read end. -/
def inbox (state : State) (r : ReplicaId) : List UInt8 :=
  (state.pair.direction r.recvFd.other).arrived

/-- Execute one enabled label. -/
def step? (state : State) : Label → Option State
  | .increment r =>
      let replica := state.replica r
      if replica.phase = .ready ∧ replica.ticks < iters then
        some
          { state with
            replica :=
              Function.update state.replica r
                { replica with
                  phase := .publishing
                  localCount := replica.localCount + 1 } }
      else
        none
  | .publish r =>
      let replica := state.replica r
      if replica.phase = .publishing then
        (state.pair.step?
            (.send r.sendFd (countBytes replica.localCount))).map
          fun pair =>
            { state with
              pair := pair
              replica :=
                Function.update state.replica r
                  { replica with phase := .draining }
              published :=
                Function.update state.published r
                  (state.published r ++ [replica.localCount]) }
      else
        none
  | .hear r =>
      let replica := state.replica r
      let count := Bytes.ofLE ((state.inbox r).take 8)
      if replica.phase = .draining then
        (state.pair.step? (.receive r.recvFd 8)).map fun pair =>
          { state with
            pair := pair
            replica :=
              Function.update state.replica r
                { replica with lastPeerCount := count }
            heard :=
              Function.update state.heard r
                (state.heard r ++ [count]) }
      else
        none
  | .stopDraining r =>
      let replica := state.replica r
      let idle : State :=
        { state with
          replica :=
            Function.update state.replica r
              { replica with
                phase := .ready
                ticks := replica.ticks + 1 } }
      if replica.phase = .draining ∧ (state.inbox r).length < 8 then
        if state.inbox r = [] then
          some idle
        else
          (state.pair.step?
              (.receive r.recvFd (state.inbox r).length)).map
            fun pair => { idle with pair := pair }
      else
        none
  | .heal =>
      (state.pair.step? (.setKnobs healed)).map fun pair =>
        { state with pair := pair }
  | .forward label =>
      if forwarderStep state.pair label then
        (state.pair.step? label).map fun pair =>
          { state with pair := pair }
      else
        none

/-- Execute a finite interleaving. -/
abbrev run? : State → List Label → Option State :=
  Transition.run? step?

/-- The scenario after both threads have been created. -/
def start (seed : UInt64) : State where
  pair := Pair.start partitioned seed
  replica := fun _ => {
    phase := .ready
    ticks := 0
    localCount := 0
    lastPeerCount := 0
  }
  published := fun _ => []
  heard := fun _ => []

section Inversion

variable {state next : State} {r : ReplicaId}

/-- An iteration starts by counting. -/
theorem step?_increment
    (stepped : state.step? (.increment r) = some next) :
    (state.replica r).phase = .ready ∧
      (state.replica r).ticks < iters ∧
      next =
        { state with
          replica :=
            Function.update state.replica r
              { state.replica r with
                phase := .publishing
                localCount := (state.replica r).localCount + 1 } } := by
  simp only [step?, Option.ite_none_right_eq_some,
    Option.some.injEq] at stepped
  exact ⟨stepped.1.1, stepped.1.2, stepped.2.symm⟩

/-- A count is published by writing it to the replica's own end. -/
theorem step?_publish
    (stepped : state.step? (.publish r) = some next) :
    (state.replica r).phase = .publishing ∧
      ∃ pair,
        state.pair.step?
            (.send r.sendFd
              (countBytes (state.replica r).localCount)) = some pair ∧
          next =
            { state with
              pair := pair
              replica :=
                Function.update state.replica r
                  { state.replica r with phase := .draining }
              published :=
                Function.update state.published r
                  (state.published r ++
                    [(state.replica r).localCount]) } := by
  simp only [step?, Option.ite_none_right_eq_some,
    Option.map_eq_some_iff] at stepped
  obtain ⟨phase, pair, sent, same⟩ := stepped
  exact ⟨phase, pair, sent, same.symm⟩

/-- A count is heard by reading eight bytes. -/
theorem step?_hear
    (stepped : state.step? (.hear r) = some next) :
    (state.replica r).phase = .draining ∧
      ∃ pair,
        state.pair.step? (.receive r.recvFd 8) = some pair ∧
          next =
            { state with
              pair := pair
              replica :=
                Function.update state.replica r
                  { state.replica r with
                    lastPeerCount :=
                      Bytes.ofLE ((state.inbox r).take 8) }
              heard :=
                Function.update state.heard r
                  (state.heard r ++
                    [Bytes.ofLE ((state.inbox r).take 8)]) } := by
  simp only [step?, Option.ite_none_right_eq_some,
    Option.map_eq_some_iff] at stepped
  obtain ⟨phase, pair, received, same⟩ := stepped
  exact ⟨phase, pair, received, same.symm⟩

/-- An iteration ends at the first read that is not a whole count. -/
theorem step?_stopDraining
    (stepped : state.step? (.stopDraining r) = some next) :
    (state.replica r).phase = .draining ∧
      (state.inbox r).length < 8 ∧
      ∃ pair,
        (state.inbox r = [] → pair = state.pair) ∧
          next =
            { state with
              pair := pair
              replica :=
                Function.update state.replica r
                  { state.replica r with
                    phase := .ready
                    ticks := (state.replica r).ticks + 1 } } := by
  simp only [step?, Option.ite_none_right_eq_some] at stepped
  obtain ⟨⟨phase, short⟩, taken⟩ := stepped
  refine ⟨phase, short, ?_⟩
  by_cases empty : state.inbox r = []
  · rw [if_pos empty] at taken
    exact ⟨state.pair, fun _ => rfl, (Option.some.inj taken).symm⟩
  · rw [if_neg empty] at taken
    obtain ⟨pair, _, same⟩ := Option.map_eq_some_iff.mp taken
    exact ⟨pair, fun nothing => absurd nothing empty, same.symm⟩

/-- Healing changes the knobs. -/
theorem step?_heal
    (stepped : state.step? .heal = some next) :
    next =
      { state with pair := { state.pair with knobs := healed } } := by
  simp only [step?, Option.map_eq_some_iff] at stepped
  obtain ⟨pair, set, same⟩ := stepped
  rw [← same, Pair.step?_setKnobs set]

/-- A forwarder's step changes the pair alone. -/
theorem step?_forward
    {label : ChaosNet.Label}
    (stepped : state.step? (.forward label) = some next) :
    forwarderStep state.pair label = true ∧
      ∃ pair,
        state.pair.step? label = some pair ∧
          next = { state with pair := pair } := by
  simp only [step?, Option.ite_none_right_eq_some,
    Option.map_eq_some_iff] at stepped
  obtain ⟨allowed, pair, forwarded, same⟩ := stepped
  exact ⟨allowed, pair, forwarded, same.symm⟩

end Inversion

end State

end FailurePlayground.SplitBrain
