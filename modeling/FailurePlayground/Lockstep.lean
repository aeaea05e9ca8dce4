import FailurePlayground.SplitBrain

namespace FailurePlayground.SplitBrain

/-!
# Whom a replica hears

`run` hands each replica the two ends of one direction, so what a replica
reads from `recv_fd` is what it wrote to `send_fd`.  Its `last_peer_count` is
a count of the peer exactly as long as the peer keeps up.
-/

open ChaosNet

section Wiring

/-- Words of eight bytes. -/
theorem length_countBytes (count : Nat) : (countBytes count).length = 8 :=
  Bytes.length_toLE 8 count

/-- The iterations a replica has begun. -/
def Replica.begun (replica : Replica) : Nat :=
  match replica.phase with
  | .ready => replica.ticks
  | .publishing | .draining => replica.ticks + 1

/-- The counts a replica has written. -/
def Replica.written (replica : Replica) : Nat :=
  match replica.phase with
  | .ready | .publishing => replica.ticks
  | .draining => replica.ticks + 1

/-- A replica's variables against what it has published and heard. -/
structure Counting
    (replica : Replica)
    (published heard : List Nat) : Prop where
  localCount : replica.localCount = replica.begun
  within : replica.begun ≤ iters
  published : published = List.range' 1 replica.written
  stored : replica.lastPeerCount = heard.getLastD 0

/-- What one direction still holds follows what has been heard from it. -/
def Echoes
    (direction : Direction)
    (published heard : List Nat) : Prop :=
  ∃ records,
    Carries countBytes 8 records direction ∧
      (heard ++ records.inOrder).Sublist published

/-- Each replica's own counts come back to it through its direction. -/
structure Echoing (state : State) : Prop where
  chunk : state.pair.knobs.maxChunkBytes = (8 : Nat)
  counting :
    ∀ r,
      Counting (state.replica r) (state.published r) (state.heard r)
  echoes :
    ∀ r,
      Echoes (state.pair.direction r.sendFd) (state.published r)
        (state.heard r)

section Counts

variable
  {replica : Replica}
  {published heard : List Nat}

/-- A replica never writes ahead of its count. -/
theorem Counting.written_le
    (counting : Counting replica published heard) :
    replica.written ≤ replica.localCount := by
  rw [counting.localCount, Replica.written, Replica.begun]
  split
  · exact Nat.le_refl _
  · exact Nat.le_succ _
  · exact Nat.le_refl _

/-- A replica has published the counts from one on. -/
theorem Counting.mem_published
    (counting : Counting replica published heard)
    {count : Nat} :
    count ∈ published ↔ 1 ≤ count ∧ count ≤ published.length := by
  rw [counting.published, List.length_range', List.mem_range'_1]
  omega

/-- A replica has published at most its own count. -/
theorem Counting.length_published_le
    (counting : Counting replica published heard) :
    published.length ≤ replica.localCount := by
  rw [counting.published, List.length_range']
  exact counting.written_le

/-- A published count fits its eight bytes. -/
theorem Counting.ofLE_countBytes
    (counting : Counting replica published heard)
    {count : Nat}
    (member : count ∈ published) :
    Bytes.ofLE (countBytes count) = count := by
  apply Bytes.ofLE_toLE
  have within := counting.within
  have bound := (counting.mem_published.mp member).2
  have behind := counting.length_published_le
  rw [counting.localCount] at behind
  simp only [iters] at within
  omega

/-- Counts that follow one another in a published list rise. -/
theorem Counting.lt_of_sublist
    (counting : Counting replica published heard)
    {earlier : List Nat}
    {count : Nat}
    (within : (earlier ++ [count]).Sublist published) :
    ∀ other ∈ earlier, other < count := by
  have rising : published.Pairwise (· < ·) := by
    rw [counting.published]
    exact List.pairwise_lt_range'
  have ordered := rising.sublist within
  rw [List.pairwise_append] at ordered
  exact fun other member =>
    ordered.2.2 other member count List.mem_cons_self

end Counts

section Steps

variable
  {state next : State}
  {r : ReplicaId}

/-- The first whole count at a replica's read end is one of its own. -/
theorem Echoing.hears
    (echoing : Echoing state)
    {pair : Pair}
    (received : state.pair.step? (.receive r.recvFd 8) = some pair) :
    (state.heard r ++ [Bytes.ofLE ((state.inbox r).take 8)]).Sublist
        (state.published r) ∧
      Echoes (pair.direction r.sendFd) (state.published r)
        (state.heard r ++ [Bytes.ofLE ((state.inbox r).take 8)]) := by
  obtain ⟨records, carries, within⟩ := echoing.echoes r
  obtain ⟨_, _, available, rfl⟩ := Pair.step?_receive received
  simp only [ReplicaId.recvFd_other] at available ⊢
  obtain ⟨count, rest, shape, first, carried⟩ :=
    carries.receive length_countBytes (by decide) available
  have inOrder :
      state.heard r ++ records.inOrder =
        (state.heard r ++ [count]) ++
          ({ records with arrived := rest } : Records Nat).inOrder := by
    simp only [Records.inOrder, shape, List.append_assoc,
      List.cons_append, List.nil_append]
  rw [inOrder] at within
  have prefixWithin :=
    (List.sublist_append_left (state.heard r ++ [count]) _).trans within
  have member : count ∈ state.published r :=
    prefixWithin.subset (by simp)
  have read : Bytes.ofLE ((state.inbox r).take 8) = count := by
    rw [State.inbox, ReplicaId.recvFd_other, first]
    exact (echoing.counting r).ofLE_countBytes member
  rw [read, Pair.direction_setDirection_same]
  exact ⟨prefixWithin, { records with arrived := rest }, carried, within⟩

/-- Counting leaves the pair and what was published alone. -/
theorem Echoing.increment
    (echoing : Echoing state)
    (stepped : state.step? (.increment r) = some next) :
    Echoing next := by
  obtain ⟨phase, more, rfl⟩ := State.step?_increment stepped
  refine ⟨echoing.chunk, fun other => ?_, echoing.echoes⟩
  have counting := echoing.counting other
  by_cases same : other = r
  · subst same
    simp only [Function.update_self]
    have localCount := counting.localCount
    have published := counting.published
    simp only [Replica.begun, Replica.written,
      phase] at localCount published
    exact {
      localCount := congrArg (· + 1) localCount
      within := more
      published := published
      stored := counting.stored
    }
  · simp only [Function.update_of_ne same]
    exact counting

/-- Publishing puts the count behind those still on their way. -/
theorem Echoing.publish
    (echoing : Echoing state)
    (stepped : state.step? (.publish r) = some next) :
    Echoing next := by
  obtain ⟨phase, pair, sent, rfl⟩ := State.step?_publish stepped
  obtain ⟨_, rfl⟩ := Pair.step?_send sent
  refine ⟨echoing.chunk, fun other => ?_, fun other => ?_⟩
  · have counting := echoing.counting other
    by_cases same : other = r
    · subst same
      simp only [Function.update_self]
      have localCount := counting.localCount
      have within := counting.within
      have published := counting.published
      simp only [Replica.begun, Replica.written,
        phase] at localCount within published
      exact {
        localCount := localCount
        within := within
        published := by
          rw [published, localCount, Replica.written,
            List.range'_concat, Nat.one_mul, Nat.add_comm 1]
        stored := counting.stored
      }
    · simp only [Function.update_of_ne same]
      exact counting
  · obtain ⟨records, carries, within⟩ := echoing.echoes other
    by_cases same : other = r
    · subst same
      simp only [Function.update_self,
        Pair.direction_setDirection_same]
      refine ⟨_, carries.send (state.replica other).localCount, ?_⟩
      have longer :=
        within.append
          (List.Sublist.refl [(state.replica other).localCount])
      simpa only [Records.inOrder, List.append_assoc] using longer
    · have elsewhere : other.sendFd ≠ r.sendFd :=
        fun shared => same (ReplicaId.sendFd_injective shared)
      simp only [Function.update_of_ne same,
        Pair.direction_setDirection_other _ elsewhere]
      exact ⟨records, carries, within⟩

/-- Hearing takes the first of the replica's own counts. -/
theorem Echoing.hear
    (echoing : Echoing state)
    (stepped : state.step? (.hear r) = some next) :
    Echoing next := by
  obtain ⟨phase, pair, received, rfl⟩ := State.step?_hear stepped
  obtain ⟨_, echoes⟩ := echoing.hears received
  have elsewhere
      {other : ReplicaId}
      (different : other ≠ r) :
      pair.direction other.sendFd =
        state.pair.direction other.sendFd := by
    refine Pair.direction_of_elsewhere received fun acts => ?_
    rw [ChaosNet.Label.direction?, ReplicaId.recvFd_other] at acts
    exact different
      (ReplicaId.sendFd_injective (Option.some.inj acts)).symm
  have knobs :=
    Pair.knobs_of_not_setKnobs received (by simp)
  refine ⟨knobs ▸ echoing.chunk, fun other => ?_, fun other => ?_⟩
  · have counting := echoing.counting other
    by_cases same : other = r
    · subst same
      simp only [Function.update_self]
      exact {
        localCount := counting.localCount
        within := counting.within
        published := counting.published
        stored := by rw [List.getLastD_concat]
      }
    · simp only [Function.update_of_ne same]
      exact counting
  · by_cases same : other = r
    · subst same
      simp only [Function.update_self]
      exact echoes
    · simp only [Function.update_of_ne same, elsewhere same]
      exact echoing.echoes other

/-- An iteration ends with nothing at the read end. -/
theorem Echoing.stopDraining
    (echoing : Echoing state)
    (stepped : state.step? (.stopDraining r) = some next) :
    Echoing next := by
  obtain ⟨phase, short, pair, same, rfl⟩ :=
    State.step?_stopDraining stepped
  obtain ⟨records, carries, _⟩ := echoing.echoes r
  have empty : state.inbox r = [] := by
    rw [State.inbox, ReplicaId.recvFd_other] at short ⊢
    exact carries.arrived_eq_nil length_countBytes short
  rw [same empty]
  refine ⟨echoing.chunk, fun other => ?_, echoing.echoes⟩
  have counting := echoing.counting other
  by_cases same : other = r
  · subst same
    simp only [Function.update_self]
    have localCount := counting.localCount
    have within := counting.within
    have published := counting.published
    simp only [Replica.begun, Replica.written,
      phase] at localCount within published
    exact ⟨localCount, within, published, counting.stored⟩
  · simp only [Function.update_of_ne same]
    exact counting

/-- A forwarder only loses counts. -/
theorem Echoing.forward
    (echoing : Echoing state)
    {label : ChaosNet.Label}
    (stepped : state.step? (.forward label) = some next) :
    Echoing next := by
  obtain ⟨allowed, pair, forwarded, rfl⟩ :=
    State.step?_forward stepped
  simp only [forwarderStep, Bool.and_eq_true,
    Bool.or_eq_true] at allowed
  obtain ⟨forwards, whole⟩ := allowed
  have knobs : pair.knobs = state.pair.knobs := by
    refine Pair.knobs_of_not_setKnobs forwarded fun k isSet => ?_
    simp [isSet, ChaosNet.Label.forwards] at forwards
  refine ⟨knobs ▸ echoing.chunk, echoing.counting, fun r => ?_⟩
  obtain ⟨records, carries, within⟩ := echoing.echoes r
  cases own : label.forwards r.sendFd with
  | true =>
      obtain ⟨later, fewer, carried⟩ :=
        carries.forwards length_countBytes (by decide) echoing.chunk
          forwarded own whole
      exact ⟨later, carried,
        (List.Sublist.append_left fewer _).trans within⟩
  | false =>
      have elsewhere : label.direction? ≠ some r.sendFd := by
        intro acts
        rcases forwards with mine | mine
        all_goals
          have same := (direction?_of_forwards mine).symm.trans acts
          rw [Option.some.inj same, own] at mine
          exact Bool.false_ne_true mine
      rw [Pair.direction_of_elsewhere forwarded elsewhere]
      exact ⟨records, carries, within⟩

/-- Every step keeps the replicas hearing themselves. -/
theorem Echoing.step
    {label : Label}
    (echoing : Echoing state)
    (stepped : state.step? label = some next) :
    Echoing next := by
  cases label with
  | increment r =>
      exact echoing.increment stepped
  | publish r =>
      exact echoing.publish stepped
  | hear r =>
      exact echoing.hear stepped
  | stopDraining r =>
      exact echoing.stopDraining stepped
  | heal =>
      rw [State.step?_heal stepped]
      exact ⟨rfl, echoing.counting, echoing.echoes⟩
  | forward label =>
      exact echoing.forward stepped

/-- Nothing has been published or heard at the start. -/
theorem echoing_start (seed : UInt64) : Echoing (State.start seed) where
  chunk := rfl
  counting := fun _ => ⟨rfl, Nat.zero_le _, rfl, rfl⟩
  echoes := fun r =>
    ⟨⟨[], [], []⟩, ⟨rfl, rfl, rfl, ⟨trivial, by simp [State.start,
      Pair.start]⟩, trivial⟩, List.Sublist.refl _⟩

end Steps

end Wiring

section Peer

/-- A step keeps the last peer counts to what the peer has counted. -/
structure HearsPeer (state next : State) : Prop where
  /-- A value is stored only after the peer has published it. -/
  stored :
    ∀ r count,
      next.heard r = state.heard r ++ [count] →
      count ∈ state.published r.peer
  nonDecreasing :
    ∀ r,
      (state.replica r).lastPeerCount ≤ (next.replica r).lastPeerCount
  bounded :
    ∀ r,
      (next.replica r).lastPeerCount ≤
        (next.replica r.peer).localCount

namespace State

/-- The step this label makes stores counts of the peer only. -/
def hearsPeer (state : State) (label : Label) : Prop :=
  ∀ next, state.step? label = some next → HearsPeer state next

/--
A replica reads a count only when the peer has published that many counts.
-/
def inLockstep (state : State) : Label → Prop
  | .hear r =>
      Bytes.ofLE ((state.inbox r).take 8) ≤
        (state.published r.peer).length
  | _ => True

instance (state : State) (label : Label) :
    Decidable (state.inLockstep label) :=
  match label with
  | .hear _ => inferInstanceAs (Decidable (_ ≤ _))
  | .increment _ | .publish _ | .stopDraining _ | .heal | .forward _ =>
      inferInstanceAs (Decidable True)

end State

/-- Every count heard is within the counts the peer has published. -/
def WithinPeer (state : State) : Prop :=
  ∀ r, ∀ count ∈ state.heard r, count ≤ (state.published r.peer).length

/-- What a step that hears nothing does to the counts. -/
structure Silent (state next : State) : Prop where
  heard : next.heard = state.heard
  stored :
    ∀ r,
      (next.replica r).lastPeerCount = (state.replica r).lastPeerCount
  published :
    ∀ r,
      (state.published r).length ≤ (next.published r).length

variable
  {state next : State}
  {r : ReplicaId}

/-- Only `read` of a whole count stores anything. -/
theorem silent_of_not_hear
    {label : Label}
    (stepped : state.step? label = some next)
    (other : ∀ r, label ≠ .hear r) :
    Silent state next := by
  have unchanged
      (replica : Replica)
      (r : ReplicaId)
      (same :
        replica.lastPeerCount = (state.replica r).lastPeerCount)
      (other : ReplicaId) :
      (Function.update state.replica r replica other).lastPeerCount =
        (state.replica other).lastPeerCount := by
    by_cases here : other = r
    · subst here
      rw [Function.update_self, same]
    · rw [Function.update_of_ne here]
  cases label with
  | increment r =>
      obtain ⟨_, _, rfl⟩ := State.step?_increment stepped
      exact ⟨rfl, unchanged _ r rfl, fun _ => Nat.le_refl _⟩
  | publish r =>
      obtain ⟨_, pair, _, rfl⟩ := State.step?_publish stepped
      refine ⟨rfl, unchanged _ r rfl, fun other => ?_⟩
      by_cases here : other = r
      · subst here
        simp
      · simp only [Function.update_of_ne here, Nat.le_refl]
  | hear r =>
      exact absurd rfl (other r)
  | stopDraining r =>
      obtain ⟨_, _, pair, _, rfl⟩ := State.step?_stopDraining stepped
      exact ⟨rfl, unchanged _ r rfl, fun _ => Nat.le_refl _⟩
  | heal =>
      rw [State.step?_heal stepped]
      exact ⟨rfl, fun _ => rfl, fun _ => Nat.le_refl _⟩
  | forward label =>
      obtain ⟨_, pair, _, rfl⟩ := State.step?_forward stepped
      exact ⟨rfl, fun _ => rfl, fun _ => Nat.le_refl _⟩

/-- What is heard within the peer's counts is within its own count. -/
theorem WithinPeer.bounded
    (echoing : Echoing state)
    (within : WithinPeer state)
    (r : ReplicaId) :
    (state.replica r).lastPeerCount ≤
      (state.replica r.peer).localCount := by
  rw [(echoing.counting r).stored]
  cases heard : state.heard r using List.reverseRecOn with
  | nil =>
      exact Nat.zero_le _
  | append_singleton earlier count =>
      rw [List.getLastD_concat]
      have published := within r count (by rw [heard]; simp)
      exact published.trans
        (echoing.counting r.peer).length_published_le

/-- In lockstep every count heard has been published by the peer. -/
theorem WithinPeer.step
    {label : Label}
    (within : WithinPeer state)
    (guarded : state.inLockstep label)
    (stepped : state.step? label = some next) :
    WithinPeer next := by
  cases label with
  | hear r =>
      obtain ⟨_, pair, _, rfl⟩ := State.step?_hear stepped
      intro other count member
      by_cases here : other = r
      · subst here
        simp only [Function.update_self, List.mem_append,
          List.mem_singleton] at member
        rcases member with earlier | rfl
        · exact within other count earlier
        · exact guarded
      · simp only [Function.update_of_ne here] at member
        exact within other count member
  | _ =>
      have silent := silent_of_not_hear stepped (by simp)
      intro other count member
      rw [silent.heard] at member
      exact (within other count member).trans
        (silent.published other.peer)

/-- A count heard is past those heard before. -/
theorem Echoing.last_le
    (echoing : Echoing state)
    {pair : Pair}
    (received : state.pair.step? (.receive r.recvFd 8) = some pair) :
    (state.replica r).lastPeerCount ≤
      Bytes.ofLE ((state.inbox r).take 8) := by
  have rises :=
    (echoing.counting r).lt_of_sublist (echoing.hears received).1
  rw [(echoing.counting r).stored]
  cases heard : state.heard r using List.reverseRecOn with
  | nil =>
      exact Nat.zero_le _
  | append_singleton earlier count =>
      rw [List.getLastD_concat]
      exact Nat.le_of_lt (rises count (by rw [heard]; simp))

/-- A step in lockstep stores counts of the peer only. -/
theorem Echoing.hearsPeer
    {label : Label}
    (echoing : Echoing state)
    (within : WithinPeer state)
    (guarded : state.inLockstep label) :
    state.hearsPeer label := by
  intro next stepped
  have echoingNext := echoing.step stepped
  have withinNext := within.step guarded stepped
  cases label with
  | hear r =>
      obtain ⟨_, pair, received, rfl⟩ := State.step?_hear stepped
      have own := (echoing.hears received).1.subset
        (List.mem_append_right _ List.mem_cons_self)
      have positive := ((echoing.counting r).mem_published.mp own).1
      refine {
        stored := fun other count heard => ?_
        nonDecreasing := fun other => ?_
        bounded := withinNext.bounded echoingNext
      }
      · by_cases here : other = r
        · subst here
          simp only [Function.update_self, List.append_cancel_left_eq,
            List.cons.injEq, and_true] at heard
          rw [← heard]
          exact (echoing.counting other.peer).mem_published.mpr
            ⟨positive, guarded⟩
        · simp [Function.update_of_ne here] at heard
      · by_cases here : other = r
        · subst here
          simp only [Function.update_self]
          exact echoing.last_le received
        · simp only [Function.update_of_ne here, Nat.le_refl]
  | _ =>
      have silent := silent_of_not_hear stepped (by simp)
      exact {
        stored := fun r count heard => by simp [silent.heard] at heard
        nonDecreasing := fun r => Nat.le_of_eq (silent.stored r).symm
        bounded := withinNext.bounded echoingNext
      }

/-- A step that stores counts of the peer only is in lockstep. -/
theorem Echoing.inLockstep
    {label : Label}
    (echoing : Echoing state)
    (hearsPeer : state.hearsPeer label)
    (stepped : state.step? label = some next) :
    state.inLockstep label := by
  cases label with
  | hear r =>
      have stored := (hearsPeer next stepped).stored r
      obtain ⟨_, pair, _, rfl⟩ := State.step?_hear stepped
      have published := stored _ (Function.update_self r _ _)
      exact ((echoing.counting r.peer).mem_published.mp published).2
  | _ =>
      trivial

variable
  {seed : UInt64}
  {labels : List Label}

/-- Every run keeps the replicas hearing themselves. -/
theorem Echoing.run
    (ran : (State.start seed).run? labels = some state) :
    Echoing state :=
  Transition.run?_invariant (fun holds stepped => holds.step stepped)
    ran (echoing_start seed)

/-- A run that stores counts of the peer only is in lockstep. -/
theorem inLockstep_of_hearsPeer
    (ran : (State.start seed).run? labels = some state)
    (hears :
      Transition.EachStep State.step? State.hearsPeer
        (State.start seed) labels) :
    Transition.EachStep State.step? State.inLockstep
      (State.start seed) labels :=
  Transition.eachStep_mono
    (fun holds _ stepped => Echoing.step holds stepped)
    (fun holds hearsPeer stepped =>
      Echoing.inLockstep holds hearsPeer stepped)
    ran hears (echoing_start seed)

/-- A run in lockstep stores counts of the peer only. -/
theorem hearsPeer_of_inLockstep
    (ran : (State.start seed).run? labels = some state)
    (lockstep :
      Transition.EachStep State.step? State.inLockstep
        (State.start seed) labels) :
    Transition.EachStep State.step? State.hearsPeer
      (State.start seed) labels := by
  have initially :
      Echoing (State.start seed) ∧ WithinPeer (State.start seed) :=
    ⟨echoing_start seed,
      fun r count member => absurd member List.not_mem_nil⟩
  have preserved :
      ∀ {state : State} {label : Label} {next : State},
        Echoing state ∧ WithinPeer state →
        state.inLockstep label →
        state.step? label = some next →
        Echoing next ∧ WithinPeer next :=
    fun holds guarded stepped =>
      ⟨holds.1.step stepped, holds.2.step guarded stepped⟩
  exact Transition.eachStep_mono preserved
    (fun holds guarded _ => holds.1.hearsPeer holds.2 guarded)
    ran lockstep initially

/--
Each replica hears its own counts, so the last peer counts are counts of the
peer in exactly the runs in which no replica reads a count that its peer has
yet to publish.
-/
theorem hearsPeer_exact
    (seed : UInt64)
    (labels : List Label)
    (state : State)
    (ran : (State.start seed).run? labels = some state) :
    (∀ r, (state.heard r).Sublist (state.published r)) ∧
      (Transition.EachStep State.step? State.hearsPeer
          (State.start seed) labels ↔
        Transition.EachStep State.step? State.inLockstep
          (State.start seed) labels) := by
  refine ⟨fun r => ?_, inLockstep_of_hearsPeer ran,
    hearsPeer_of_inLockstep ran⟩
  obtain ⟨records, _, within⟩ := (Echoing.run ran).echoes r
  exact (List.sublist_append_left _ _).trans within

/-- The steps of one count through the forwarder of direction `x`. -/
def forwardCount (x : End) (kept : Bool) : List Label :=
  [.forward (.read x 8), .forward (.snapshot x), .forward (.decide x)] ++
    if kept then [.forward (.write x 8)] else []

/-- One iteration, up to the reads, of a replica whose count gets through. -/
def beginTick (r : ReplicaId) (kept : Bool) : List Label :=
  [.increment r, .publish r] ++ forwardCount r.sendFd kept

/-- Both replicas tick once before the healing and once after it. -/
def lockstepRun : List Label :=
  beginTick .r1 false ++ [.stopDraining .r1] ++
    beginTick .r2 false ++ [.stopDraining .r2, .heal] ++
    beginTick .r1 true ++ beginTick .r2 true ++
    [.hear .r1, .hear .r2, .stopDraining .r1, .stopDraining .r2]

theorem hearsPeer_exact_lockstep :
    ∃ state,
      (State.start 7).run? lockstepRun = some state ∧
        (state.replica .r1).lastPeerCount = 2 ∧
        Transition.EachStep State.step? State.hearsPeer
          (State.start 7) lockstepRun := by
  have ends :
      ((State.start 7).run? lockstepRun).any
        (fun state => (state.replica .r1).lastPeerCount = 2) =
          true := by
    decide +kernel
  obtain ⟨state, ran, heard⟩ := (Option.any_eq_true _ _).mp ends
  have lockstep :
      Transition.EachStep State.step? State.inLockstep
        (State.start 7) lockstepRun := by
    decide +kernel
  exact ⟨state, ran, of_decide_eq_true heard,
    (hearsPeer_exact 7 lockstepRun state ran).2.mpr lockstep⟩

/-- After the healing replica 1 ticks while replica 2 is not scheduled. -/
def aheadRun : List Label :=
  beginTick .r1 false ++ [.stopDraining .r1] ++
    beginTick .r2 false ++ [.stopDraining .r2, .heal] ++
    beginTick .r1 true ++ [.hear .r1]

/-- Replica 1 stores a count that replica 2 has never published. -/
theorem hearsPeer_fails_ahead :
    ∃ state,
      (State.start 7).run? aheadRun = some state ∧
        (state.replica .r1).lastPeerCount = 2 ∧
        state.published .r2 = [1] ∧
        (state.replica .r2).localCount = 1 ∧
        ¬ Transition.EachStep State.step? State.hearsPeer
          (State.start 7) aheadRun := by
  have ends :
      ((State.start 7).run? aheadRun).any (fun state =>
        (state.replica .r1).lastPeerCount = 2 ∧
          state.published .r2 = [1] ∧
          (state.replica .r2).localCount = 1) = true := by
    decide +kernel
  obtain ⟨state, ran, facts⟩ := (Option.any_eq_true _ _).mp ends
  obtain ⟨stored, published, counted⟩ := of_decide_eq_true facts
  have ahead :
      ¬ Transition.EachStep State.step? State.inLockstep
        (State.start 7) aheadRun := by
    decide +kernel
  exact ⟨state, ran, stored, published, counted,
    fun hears => ahead (inLockstep_of_hearsPeer ran hears)⟩

end Peer

end FailurePlayground.SplitBrain
