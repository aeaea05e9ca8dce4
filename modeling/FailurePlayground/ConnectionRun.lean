import FailurePlayground.ConnectionReset

namespace FailurePlayground.ConnectionReset

/-!
# What a reset connection reports

Until the peer is gone every write takes its whole chunk, unless a signal
interrupts it.  After that the call in progress may return short, and every
later one fails.
-/

section Threads

/-- The pair of sockets exists. -/
def MainStage.paired : MainStage → Bool
  | .pairing => false
  | .returned rc => rc == 0
  | _ => true

/-- `SIGPIPE` is ignored. -/
def MainStage.guarded : MainStage → Bool
  | .pairing | .ignoring => false
  | .returned rc => rc == 0
  | _ => true

/-- The peer has been created. -/
def MainStage.spawned : MainStage → Bool
  | .pairing | .ignoring | .announcing | .creating => false
  | .returned rc => rc == 0
  | _ => true

/-- The peer has been joined. -/
def MainStage.joined : MainStage → Bool
  | .closing | .reporting => true
  | .returned rc => rc == 0
  | _ => false

/-- The main thread has closed its end. -/
def MainStage.closed : MainStage → Bool
  | .reporting => true
  | .returned rc => rc == 0
  | _ => false

/-- The bytes that the call in progress has handed over. -/
def MainStage.inCall : MainStage → Nat
  | .writing _ done => done
  | _ => 0

/-- The peer's read has returned. -/
def PeerStage.hasRead : PeerStage → Bool
  | .absent | .reading => false
  | _ => true

/-- The peer has closed its end. -/
def PeerStage.gone : PeerStage → Bool
  | .closed | .returned => true
  | _ => false

variable
  {setup : Setup}
  {capacity : Nat}
  {state next : State}
  {label : Label}

/-- How the threads, the ends of the socket and the bytes belong together. -/
structure Threads (setup : Setup) (capacity : Nat) (state : State) : Prop where
  alive : state.killed = false
  ignored : state.main.guarded = true → state.sigpipeIgnored = true
  absent : state.main.spawned = false → state.peer = .absent
  joined : state.main.joined = true → state.peer = .returned
  myOpen : state.myOpen = (state.main.paired && !state.main.closed)
  peerOpen : state.peerOpen = (state.main.paired && !state.peer.gone)
  hasRead : state.peer.hasRead = true →
    state.peerResult = state.peerRead ∧ 0 < state.peerRead ∨
      state.peerResult = -1 ∧ state.peerRead = 0
  unread : state.peer.hasRead = false → state.peerRead = 0
  small : state.peerRead ≤ setup.rbufBytes
  flow : state.total + state.main.inCall = state.peerRead + state.queued
  room : state.queued ≤ capacity

/-- The loop starts a call, or is over. -/
theorem loopHead_cases (iterations i : Nat) :
    MainStage.loopHead iterations i = .writing i 0 ∨
      MainStage.loopHead iterations i = .joining := by
  unfold MainStage.loopHead
  split
  · exact Or.inl rfl
  · exact Or.inr rfl

/-- After an error the loop goes on, or is over. -/
theorem afterError_cases (setup : Setup) (errors i : Nat) :
    MainStage.afterError setup errors i = .writing i 0 ∨
      MainStage.afterError setup errors i = .joining := by
  unfold MainStage.afterError
  split
  · exact Or.inr rfl
  · exact loopHead_cases setup.iterations i

/-- Before its first step nothing is open and nothing has been moved. -/
theorem Threads.start (now : Nat) :
    Threads setup capacity (State.start now) where
  alive := rfl
  ignored := fun guarded => absurd guarded Bool.false_ne_true
  absent := fun _ => rfl
  joined := fun joined => absurd joined Bool.false_ne_true
  myOpen := rfl
  peerOpen := rfl
  hasRead := fun hasRead => absurd hasRead Bool.false_ne_true
  unread := fun _ => rfl
  small := Nat.zero_le _
  flow := rfl
  room := Nat.zero_le _

/-- The main thread is between the creation of the peer and the join. -/
def MainStage.loops : MainStage → Bool
  | .announcingWrites | .writing _ _ | .failed _ _ | .joining => true
  | _ => false

/-- In the loop everything is set up and nothing is taken down. -/
theorem stages_of_loops
    {stage : MainStage}
    (loops : stage.loops = true) :
    stage.guarded = true ∧ stage.spawned = true ∧
      stage.joined = false ∧ stage.paired = true ∧
      stage.closed = false := by
  cases stage with
  | announcingWrites | writing i done | failed i errno | joining =>
      exact ⟨rfl, rfl, rfl, rfl, rfl⟩
  | pairing | ignoring | announcing | creating | closing | reporting
  | returned rc =>
      exact absurd loops Bool.false_ne_true

/-- The loop starts inside itself. -/
theorem loops_loopHead (iterations i : Nat) :
    (MainStage.loopHead iterations i).loops = true ∧
      (MainStage.loopHead iterations i).inCall = 0 := by
  rcases loopHead_cases iterations i with head | head <;>
    rw [head] <;> exact ⟨rfl, rfl⟩

/-- After an error the main thread is still between creation and join. -/
theorem loops_afterError (setup : Setup) (errors i : Nat) :
    (MainStage.afterError setup errors i).loops = true ∧
      (MainStage.afterError setup errors i).inCall = 0 := by
  rcases afterError_cases setup errors i with head | head <;>
    rw [head] <;> exact ⟨rfl, rfl⟩

/-- A step of the loop touches only its variables and the bytes that wait. -/
theorem Threads.inLoop
    {main : MainStage}
    {queued total errors : Nat}
    {firstErrIter : Int}
    {firstErrno : Option Errno}
    {reports : List (Thread × Emit)}
    (threads : Threads setup capacity state)
    (before : state.main.loops = true)
    (after : main.loops = true)
    (flow : total + main.inCall = state.peerRead + queued)
    (room : queued ≤ capacity) :
    Threads setup capacity
      { state with
        main := main
        queued := queued
        total := total
        errors := errors
        firstErrIter := firstErrIter
        firstErrno := firstErrno
        reports := reports } := by
  obtain ⟨guarded, spawned, joined, paired, closed⟩ :=
    stages_of_loops before
  obtain ⟨guarded', spawned', joined', paired', closed'⟩ :=
    stages_of_loops after
  exact {
    alive := threads.alive
    ignored := fun _ => threads.ignored guarded
    absent := fun unspawned =>
      absurd (unspawned.symm.trans spawned') Bool.false_ne_true
    joined := fun done =>
      absurd (joined'.symm.trans done) Bool.false_ne_true
    myOpen := by
      rw [paired', closed', threads.myOpen, paired, closed]
    peerOpen := by
      rw [paired', threads.peerOpen, paired]
    hasRead := threads.hasRead
    unread := threads.unread
    small := threads.small
    flow := flow
    room := room }

/-- A step of the peer after its read changes nothing but where it stands. -/
theorem Threads.ofPeer
    {peer : PeerStage}
    {peerOpen : Bool}
    {reports : List (Thread × Emit)}
    (threads : Threads setup capacity state)
    (before : state.peer.hasRead = true)
    (running : state.peer ≠ .returned)
    (after : peer.hasRead = true)
    (isOpen : peerOpen = (state.main.paired && !peer.gone)) :
    Threads setup capacity
      { state with
        peer := peer
        peerOpen := peerOpen
        reports := reports } where
  alive := threads.alive
  ignored := threads.ignored
  absent := fun unspawned =>
    absurd (threads.absent unspawned) fun absent => by
      rw [absent] at before
      exact Bool.false_ne_true before
  joined := fun done => absurd (threads.joined done) running
  myOpen := threads.myOpen
  peerOpen := isOpen
  hasRead := fun _ => threads.hasRead before
  unread := fun unread =>
    absurd (unread.symm.trans after) Bool.false_ne_true
  small := threads.small
  flow := threads.flow
  room := threads.room

/-- Every step keeps them together. -/
theorem Threads.step
    (threads : Threads setup capacity state)
    (taken : state.step? setup capacity label = some next) :
    Threads setup capacity next := by
  rcases move_of_step? taken with moved | ⟨ns, rfl, rfl⟩
  swap
  · exact ⟨threads.alive, threads.ignored, threads.absent,
      threads.joined, threads.myOpen, threads.peerOpen,
      threads.hasRead, threads.unread, threads.small, threads.flow,
      threads.room⟩
  have flow := threads.flow
  have room := threads.room
  have peerOpen := threads.peerOpen
  have spawned : state.peer = .reading → state.main.spawned = true := by
    intro reading
    by_contra unspawned
    have absent := threads.absent (Bool.eq_false_iff.mpr unspawned)
    exact PeerStage.noConfusion (reading.symm.trans absent)
  generalize state.written label = ended at moved
  cases moved with
  | kills i stage heeded =>
      have ignored := threads.ignored (by rw [stage]; rfl)
      exact absurd (heeded.symm.trans ignored) Bool.false_ne_true
  | announcesWrites stage =>
      obtain ⟨loops, idle⟩ := loops_loopHead setup.iterations 0
      rw [stage] at flow
      refine threads.inLoop (by rw [stage]; rfl) loops ?_ room
      rw [idle]
      exact flow
  | returns i done stage finished | cuts i done stage positive =>
      obtain ⟨loops, idle⟩ := loops_loopHead setup.iterations (i + 1)
      rw [stage] at flow
      refine threads.inLoop (by rw [stage]; rfl) loops ?_ room
      rw [idle]
      exact flow
  | notes i errno stage =>
      obtain ⟨loops, idle⟩ :=
        loops_afterError setup (state.errors + 1) (i + 1)
      rw [stage] at flow
      unfold State.note
      split
      all_goals
        refine threads.inLoop (by rw [stage]; rfl) loops ?_ room
        rw [idle]
        exact flow
  | accepts i done count stage isOpen positive small fits =>
      rw [stage] at flow
      refine threads.inLoop (by rw [stage]; rfl) rfl ?_ fits
      simp only [MainStage.inCall] at flow ⊢
      omega
  | fails i errno stage gone =>
      rw [stage] at flow
      exact threads.inLoop (by rw [stage]; rfl) rfl flow room
  | receivesNothing stage =>
      have unread := threads.unread (by rw [stage]; rfl)
      rw [stage] at peerOpen
      exact {
        threads with
        absent := fun unspawned =>
          absurd (unspawned.symm.trans (spawned stage)) Bool.false_ne_true
        joined := fun done =>
          PeerStage.noConfusion (stage.symm.trans (threads.joined done))
        peerOpen := peerOpen
        hasRead := fun _ => Or.inr ⟨rfl, unread⟩
        unread := fun _ => unread }
  | receives count stage positive bounded there =>
      have unread := threads.unread (by rw [stage]; rfl)
      rw [stage] at peerOpen
      exact {
        threads with
        absent := fun unspawned =>
          absurd (unspawned.symm.trans (spawned stage)) Bool.false_ne_true
        joined := fun done =>
          PeerStage.noConfusion (stage.symm.trans (threads.joined done))
        peerOpen := peerOpen
        hasRead := fun _ => Or.inl ⟨rfl, positive⟩
        unread := fun unread => absurd unread.symm Bool.false_ne_true
        small := bounded
        flow := by
          simp only
          omega
        room := (Nat.sub_le _ _).trans room }
  | peerAnnounces stage | peerSleeps stage | peerWakes wakeAt stage =>
      rw [stage] at peerOpen
      exact threads.ofPeer (by rw [stage]; rfl) (by simp [stage]) rfl
        peerOpen
  | peerCloses stage =>
      exact threads.ofPeer (by rw [stage]; rfl) (by simp [stage]) rfl
        (Bool.and_false _).symm
  | peerReturns stage =>
      rw [stage] at peerOpen
      exact threads.ofPeer (by rw [stage]; rfl) (by simp [stage]) rfl
        peerOpen
  | pairingFails stage | pairs stage | ignores stage | announces stage
  | creates stage | createFails stage | joins stage done | closes stage
  | reports stage =>
      obtain ⟨alive, ignored, absent, joined, myOpen, _, hasRead,
        unread, small, _, _⟩ := threads
      constructor <;>
        simp_all [State.report, MainStage.guarded, MainStage.spawned,
          MainStage.joined, MainStage.paired, MainStage.closed,
          MainStage.inCall, PeerStage.hasRead, PeerStage.gone]

end Threads

section Counts

namespace Written

/-- The bytes that a write handed over. -/
def bytes : Written → Nat
  | .took count | .cut count => count
  | .failed _ => 0

/-- The error of a write. -/
def errno? : Written → Option Errno
  | .took _ | .cut _ => none
  | .failed errno => some errno

/-- A signal interrupted it. -/
def Interrupted : Written → Prop
  | .took _ => False
  | .cut _ => True
  | .failed errno => errno = .eintr

/-- It took its chunk, or a signal interrupted it. -/
def Whole (setup : Setup) : Written → Prop
  | .took count => count = setup.chunkBytes
  | .cut count => 0 < count ∧ count ≤ setup.chunkBytes
  | .failed errno => errno = .eintr

end Written

/-- The iteration and the error of the first write that failed. -/
def firstFailure : List Written → Option (Nat × Errno)
  | [] => none
  | written :: rest =>
      match written.errno? with
      | some errno => some (0, errno)
      | none =>
          (firstFailure rest).map fun first => (first.1 + 1, first.2)

/-- The variables of `cr_run` say how its writes ended. -/
structure Tallied (seen : List Written) (state : State) : Prop where
  total : state.total = (seen.map Written.bytes).sum
  errors : state.errors = seen.countP fun written => written.errno?.isSome
  firstErrIter :
    state.firstErrIter =
      (firstFailure seen).elim (-1) fun first => (first.1 : Int)
  firstErrno : state.firstErrno = (firstFailure seen).map Prod.snd

/--
Whole writes, then one that was short because the peer had gone, then writes
that failed.
-/
def Shaped (setup : Setup) (seen : List Written) : Prop :=
  ∃ (whole : List Written) (short : Option Nat) (refused : List Errno),
    seen = whole ++ (short.map Written.took).toList ++
      refused.map Written.failed ∧
    (∀ written ∈ whole, written.Whole setup) ∧
    ∀ count ∈ short, 0 < count ∧ count < setup.chunkBytes

/-- The loop has made its iterations, or given up. -/
def Over (setup : Setup) (seen : List Written) (errors : Nat) : Prop :=
  seen.length ≤ setup.iterations ∧ errors ≤ setup.maxErrors ∧
    (errors = setup.maxErrors ∨ seen.length = setup.iterations)

/-- How many writes there were, wherever the main thread stands. -/
def Placed
    (setup : Setup)
    (seen : List Written)
    (state : State) : Prop :=
  match state.main with
  | .pairing | .ignoring | .announcing | .creating | .announcingWrites =>
      seen = []
  | .writing i done =>
      seen.length = i ∧ i < setup.iterations ∧
        state.errors < setup.maxErrors ∧ done ≤ setup.chunkBytes
  | .failed i errno =>
      seen.length = i ∧ i < setup.iterations ∧
        state.errors < setup.maxErrors ∧
        (errno = .eintr ∨ state.peerOpen = false)
  | .joining | .closing | .reporting =>
      Over setup seen state.errors
  | .returned rc =>
      rc = 0 → Over setup seen state.errors

/-- What the writes so far and the variables have to do with each other. -/
structure Counted
    (setup : Setup)
    (seen : List Written)
    (state : State) : Prop where
  tallied : Tallied seen state
  placed : Placed setup seen state
  shaped : Shaped setup seen
  whole : state.peerOpen = true ∨ 0 < state.main.inCall →
    ∀ written ∈ seen, written.Whole setup

variable
  {setup : Setup}
  {capacity : Nat}
  {state next : State}
  {label : Label}
  {seen : List Written}
  {written : Written}

/-- A write that fails is the first one exactly when none failed before. -/
theorem firstFailure_append (seen : List Written) (written : Written) :
    firstFailure (seen ++ [written]) =
      match firstFailure seen with
      | some first => some first
      | none => written.errno?.map fun errno => (seen.length, errno) := by
  induction seen with
  | nil =>
      cases error : written.errno? <;>
        simp [firstFailure, error]
  | cons head rest inductionHypothesis =>
      simp only [List.cons_append, firstFailure]
      cases head.errno? with
      | some errno =>
          rfl
      | none =>
          rw [inductionHypothesis]
          cases firstFailure rest <;>
            cases written.errno? <;> simp

/-- A write without an error leaves the first failure what it is. -/
theorem firstFailure_append_of_none
    (fine : written.errno? = none) :
    firstFailure (seen ++ [written]) = firstFailure seen := by
  rw [firstFailure_append, fine]
  cases firstFailure seen <;> rfl

/-- Nothing has failed as long as there is no first failing iteration. -/
theorem firstErrIter_neg_iff
    (tallied : Tallied seen state) :
    state.firstErrIter < 0 ↔ firstFailure seen = none := by
  rw [tallied.firstErrIter]
  cases firstFailure seen with
  | none =>
      simp
  | some first =>
      simp

/-- Whole writes are the first of the three kinds. -/
theorem shaped_of_whole
    (whole : ∀ written ∈ seen, written.Whole setup) :
    Shaped setup seen :=
  ⟨seen, none, [], by simp, whole, fun count none => by cases none⟩

/-- A failing write comes after all that were there. -/
theorem Shaped.failed
    (shaped : Shaped setup seen)
    (errno : Errno) :
    Shaped setup (seen ++ [.failed errno]) := by
  obtain ⟨whole, short, refused, rfl, wholes, shorts⟩ := shaped
  exact ⟨whole, short, refused ++ [errno], by simp, wholes, shorts⟩

/-- Whole writes, and one more. -/
theorem forall_whole_append
    (whole : ∀ written ∈ seen, written.Whole setup)
    (last : written.Whole setup) :
    ∀ other ∈ seen ++ [written], other.Whole setup := by
  intro other member
  rcases List.mem_append.mp member with before | here
  · exact whole other before
  · rw [List.mem_singleton.mp here]
    exact last

/-- A write that takes bytes is whole, or the short one. -/
theorem Shaped.took
    {count : Nat}
    (whole : ∀ written ∈ seen, written.Whole setup)
    (positive : 0 < count)
    (small : count ≤ setup.chunkBytes) :
    Shaped setup (seen ++ [.took count]) := by
  rcases Nat.lt_or_eq_of_le small with short | all
  · refine ⟨seen, some count, [], by simp, whole, fun other here => ?_⟩
    cases here
    exact ⟨positive, short⟩
  · exact shaped_of_whole (forall_whole_append whole all)

/-- A write that hands over bytes adds them. -/
theorem Tallied.transfer
    {main : MainStage}
    (tallied : Tallied seen state)
    (fine : written.errno? = none) :
    Tallied (seen ++ [written])
      { state with
        main := main
        total := state.total + written.bytes } where
  total := by
    simp [tallied.total]
  errors := by
    simp [tallied.errors, fine]
  firstErrIter := by
    rw [firstFailure_append_of_none fine]
    exact tallied.firstErrIter
  firstErrno := by
    rw [firstFailure_append_of_none fine]
    exact tallied.firstErrno

/-- A write that fails is noted if it is the first. -/
theorem Tallied.note
    {main : MainStage}
    {errno : Errno}
    (tallied : Tallied seen state) :
    Tallied (seen ++ [.failed errno])
      { state.note seen.length errno with
        errors := state.errors + 1
        main := main } := by
  have error : (Written.failed errno).errno? = some errno := rfl
  have errors :
      state.errors + 1 =
        (seen ++ [Written.failed errno]).countP
          fun written => written.errno?.isSome := by
    rw [List.countP_append, tallied.errors]
    rfl
  have sum :
      ((seen ++ [Written.failed errno]).map Written.bytes).sum =
        state.total := by
    rw [tallied.total]
    simp [Written.bytes]
  unfold State.note
  split
  · rename_i first
    have none := (firstErrIter_neg_iff tallied).mp first
    exact {
      total := sum.symm
      errors := errors
      firstErrIter := by
        rw [firstFailure_append, none, error]
        rfl
      firstErrno := by
        rw [firstFailure_append, none, error]
        rfl }
  · rename_i noted
    obtain ⟨first, some⟩ :=
      Option.ne_none_iff_exists'.mp
        (mt (firstErrIter_neg_iff tallied).mpr noted)
    exact {
      total := sum.symm
      errors := errors
      firstErrIter := by
        rw [firstFailure_append, some]
        exact tallied.firstErrIter.trans (by rw [some])
      firstErrno := by
        rw [firstFailure_append, some]
        exact tallied.firstErrno.trans (by rw [some]) }

/-- The loop goes on with the next write, or is over. -/
theorem placed_loopHead
    {i : Nat}
    (head : state.main = MainStage.loopHead setup.iterations i)
    (length : seen.length = i)
    (inside : i ≤ setup.iterations)
    (few : state.errors < setup.maxErrors) :
    Placed setup seen state := by
  unfold MainStage.loopHead at head
  unfold Placed
  split at head
  · rename_i more
    rw [head]
    exact ⟨length, more, few, Nat.zero_le _⟩
  · rw [head]
    refine ⟨by omega, few.le, Or.inr ?_⟩
    omega

/-- After an error it goes on, gives up, or is over. -/
theorem placed_afterError
    {i : Nat}
    (head : state.main = MainStage.afterError setup state.errors i)
    (length : seen.length = i)
    (inside : i ≤ setup.iterations)
    (bounded : state.errors ≤ setup.maxErrors) :
    Placed setup seen state := by
  unfold MainStage.afterError at head
  split at head
  · rename_i enough
    rw [Placed, head]
    exact ⟨by omega, bounded, Or.inl (by omega)⟩
  · exact placed_loopHead head length inside (by omega)

/-- Outside a write no bytes are in progress. -/
theorem inCall_heads (setup : Setup) (errors i : Nat) :
    (MainStage.loopHead setup.iterations i).inCall = 0 ∧
      (MainStage.afterError setup errors i).inCall = 0 :=
  ⟨(loops_loopHead setup.iterations i).2,
    (loops_afterError setup errors i).2⟩

/-- A write ends with bytes. -/
theorem Counted.transfer
    {i done : Nat}
    (counted : Counted setup seen state)
    (stage : state.main = .writing i done)
    (fine : written.errno? = none)
    (bytes : written.bytes = done)
    (shaped : Shaped setup (seen ++ [written]))
    (whole : state.peerOpen = true →
      ∀ other ∈ seen ++ [written], other.Whole setup) :
    Counted setup (seen ++ [written])
      { state with
        main := MainStage.loopHead setup.iterations (i + 1)
        total := state.total + done } := by
  have placed := counted.placed
  rw [Placed, stage] at placed
  obtain ⟨length, inside, few, _⟩ := placed
  refine ⟨bytes ▸ counted.tallied.transfer fine, ?_, shaped, ?_⟩
  · exact placed_loopHead rfl (by simp [length]) inside few
  · rintro (isOpen | some)
    · exact whole isOpen
    · rw [(inCall_heads setup 0 (i + 1)).1] at some
      exact absurd some (Nat.lt_irrefl 0)

/-- A step that ends no write and moves no byte but one in progress. -/
theorem Counted.quiet
    (counted : Counted setup seen state)
    (total : next.total = state.total)
    (errors : next.errors = state.errors)
    (firstErrIter : next.firstErrIter = state.firstErrIter)
    (firstErrno : next.firstErrno = state.firstErrno)
    (placed : Placed setup seen next)
    (whole : next.peerOpen = true ∨ 0 < next.main.inCall →
      ∀ written ∈ seen, written.Whole setup) :
    Counted setup seen next where
  tallied := {
    total := total.trans counted.tallied.total
    errors := errors.trans counted.tallied.errors
    firstErrIter := firstErrIter.trans counted.tallied.firstErrIter
    firstErrno := firstErrno.trans counted.tallied.firstErrno }
  placed := placed
  shaped := counted.shaped
  whole := whole

/-- Every step keeps them together. -/
theorem Counted.step
    (threads : Threads setup capacity state)
    (counted : Counted setup seen state)
    (taken : state.step? setup capacity label = some next) :
    Counted setup (seen ++ state.written label) next := by
  have placed := counted.placed
  have whole := counted.whole
  rcases move_of_step? taken with moved | ⟨ns, rfl, rfl⟩
  swap
  · change Counted setup (seen ++ []) _
    rw [List.append_nil]
    exact counted.quiet rfl rfl rfl rfl placed whole
  generalize state.written label = ended at moved ⊢
  cases moved with
  | kills i stage heeded =>
      have ignored := threads.ignored (by rw [stage]; rfl)
      exact absurd (heeded.symm.trans ignored) Bool.false_ne_true
  | returns i done stage finished =>
      rw [Placed, stage] at placed
      have positive : 0 < done := by
        rcases finished with all | ⟨_, some⟩
        · exact all ▸ setup.chunkPositive
        · exact some
      have wholes : ∀ written ∈ seen, written.Whole setup :=
        whole (Or.inr (by rw [stage]; exact positive))
      refine counted.transfer stage rfl rfl
        (.took wholes positive placed.2.2.2) fun isOpen => ?_
      refine forall_whole_append wholes (finished.resolve_right ?_)
      rintro ⟨closed, _⟩
      exact Bool.false_ne_true (closed.symm.trans isOpen)
  | cuts i done stage positive =>
      rw [Placed, stage] at placed
      have wholes : ∀ written ∈ seen ++ [Written.cut done],
          written.Whole setup :=
        forall_whole_append
          (whole (Or.inr (by rw [stage]; exact positive)))
          ⟨positive, placed.2.2.2⟩
      exact counted.transfer stage rfl rfl (shaped_of_whole wholes)
        fun _ => wholes
  | notes i errno stage =>
      rw [Placed, stage] at placed
      obtain ⟨length, inside, few, reason⟩ := placed
      have same : (state.note i errno).peerOpen = state.peerOpen := by
        unfold State.note
        split <;> rfl
      subst length
      refine ⟨counted.tallied.note, ?_, counted.shaped.failed errno, ?_⟩
      · exact placed_afterError rfl (by simp) inside few
      · rintro (isOpen | some)
        · have stillOpen := same.symm.trans isOpen
          refine forall_whole_append (whole (Or.inl stillOpen))
            (reason.resolve_right fun closed => ?_)
          exact Bool.false_ne_true (closed.symm.trans stillOpen)
        · rw [(inCall_heads setup _ _).2] at some
          exact absurd some (Nat.lt_irrefl 0)
  | pairs stage =>
      rw [List.append_nil]
      rw [Placed, stage] at placed
      refine counted.quiet rfl rfl rfl rfl placed fun _ => ?_
      simp [show seen = [] from placed]
  | pairingFails stage =>
      rw [List.append_nil]
      exact counted.quiet rfl rfl rfl rfl
        (fun zero => absurd zero (by decide))
        (fun here => whole (here.imp_right fun some =>
          absurd some (Nat.lt_irrefl 0)))
  | announcesWrites stage =>
      rw [List.append_nil]
      rw [Placed, stage] at placed
      have noError : state.errors = 0 := by
        rw [counted.tallied.errors, show seen = [] from placed]
        rfl
      refine counted.quiet rfl rfl rfl rfl ?_ ?_
      · exact placed_loopHead rfl (by rw [placed]; rfl) (Nat.zero_le _)
          (noError ▸ setup.errorsPositive)
      · rintro (isOpen | some)
        · exact whole (Or.inl isOpen)
        · rw [(inCall_heads setup 0 0).1] at some
          exact absurd some (Nat.lt_irrefl 0)
  | accepts i done count stage isOpen positive small room =>
      rw [List.append_nil]
      rw [Placed, stage] at placed
      exact counted.quiet rfl rfl rfl rfl
        ⟨placed.1, placed.2.1, placed.2.2.1, small⟩
        fun _ => whole (Or.inl isOpen)
  | fails i errno stage gone =>
      rw [List.append_nil]
      rw [Placed, stage] at placed
      exact counted.quiet rfl rfl rfl rfl
        ⟨placed.1, placed.2.1, placed.2.2.1, gone⟩
        (fun here => whole (here.imp_right fun some =>
          absurd some (Nat.lt_irrefl 0)))
  | ignores stage | announces stage | creates stage | createFails stage
  | joins stage done | closes stage =>
      rw [List.append_nil]
      rw [Placed, stage] at placed
      exact counted.quiet rfl rfl rfl rfl placed
        (fun here => whole (here.imp_right fun some =>
          absurd some (Nat.lt_irrefl 0)))
  | reports stage =>
      rw [List.append_nil]
      rw [Placed, stage] at placed
      exact counted.quiet rfl rfl rfl rfl (fun _ => placed)
        (fun here => whole (here.imp_right fun some =>
          absurd some (Nat.lt_irrefl 0)))
  | peerCloses stage =>
      rw [List.append_nil]
      refine counted.quiet rfl rfl rfl rfl ?_ fun here =>
        whole (here.imp_left fun isOpen => absurd isOpen Bool.false_ne_true)
      unfold Placed at placed ⊢
      cases here : state.main with
      | failed i errno =>
          simp only [here] at placed ⊢
          exact ⟨placed.1, placed.2.1, placed.2.2.1, Or.inr trivial⟩
      | pairing | ignoring | announcing | creating | announcingWrites
      | writing i done | joining | closing | reporting | returned rc =>
          simp only [here] at placed ⊢
          exact placed
  | receives count stage positive small there | receivesNothing stage
  | peerAnnounces stage | peerSleeps stage | peerWakes wakeAt stage
  | peerReturns stage =>
      rw [List.append_nil]
      exact counted.quiet rfl rfl rfl rfl placed whole

/-- There are no writes before the first step. -/
theorem Counted.start (now : Nat) :
    Counted setup [] (State.start now) where
  tallied := ⟨rfl, rfl, rfl, rfl⟩
  placed := rfl
  shaped := shaped_of_whole fun written member => by cases member
  whole := fun _ written member => by cases member

end Counts

section Printed

variable
  {setup : Setup}
  {capacity : Nat}
  {state next : State}
  {label : Label}
  {seen : List Written}

/-- The line about the first error, once there was one. -/
def State.errorLine (state : State) : List Emit :=
  match state.firstErrno with
  | none => []
  | some errno => [firstError state.firstErrIter.toNat errno]

/-- What the main thread has reported where it stands. -/
def State.mainReports (state : State) : List Emit :=
  match state.main with
  | .pairing | .ignoring | .announcing =>
      []
  | .creating | .announcingWrites =>
      [spawning]
  | .writing _ _ | .failed _ _ | .joining | .closing | .reporting =>
      [spawning, untilBreaks] ++ state.errorLine
  | .returned rc =>
      if rc = 0 then
        [spawning, untilBreaks] ++ state.errorLine ++
          resetReport state.total state.firstErrIter state.errors
            state.firstErrno
      else
        [.sutFault (some (Bytes.ascii "socketpair failed"))]

/-- What the peer has reported where it stands. -/
def State.peerReports (setup : Setup) (state : State) : List Emit :=
  match state.peer with
  | .absent | .reading | .announcing =>
      []
  | .falling | .sleeping _ | .closing | .closed =>
      [peerReceived setup state.peerResult]
  | .returned =>
      [peerReceived setup state.peerResult, peerClosed]

/-- The reports are those of the two threads, each in its order. -/
structure Printed (setup : Setup) (state : State) : Prop where
  main : state.reportsOf .main = state.mainReports
  peer : state.reportsOf .peer = state.peerReports setup

/-- What a thread reports comes after what it reported before. -/
theorem reportsOf_report_same
    (state : State)
    (thread : Thread)
    (emits : List Emit) :
    (state.report thread emits).reportsOf thread =
      state.reportsOf thread ++ emits := by
  unfold State.reportsOf State.report
  rw [List.filter_append, List.map_append]
  simp [List.filter_map, Function.comp_def]

/-- What a thread reports is nothing that the other one reported. -/
theorem reportsOf_report_other
    (state : State)
    {thread other : Thread}
    (differs : thread ≠ other)
    (emits : List Emit) :
    (state.report thread emits).reportsOf other =
      state.reportsOf other := by
  unfold State.reportsOf State.report
  rw [List.filter_append, List.map_append]
  simp [differs, List.filter_map, Function.comp_def]

/-- In its loop the main thread has reported its phases and an error. -/
theorem mainReports_of_head
    {i : Nat}
    (head : state.main = .writing i 0 ∨ state.main = .joining) :
    state.mainReports = [spawning, untilBreaks] ++ state.errorLine := by
  rcases head with head | head <;> rw [State.mainReports, head]

/-- The line about the first error is reported when it is found. -/
theorem reportsOf_note
    {i : Nat}
    {errno : Errno}
    (counted : Counted setup seen state)
    (stage : state.main = .failed i errno)
    (printed : Printed setup state) :
    (state.note i errno).reportsOf .main =
        [spawning, untilBreaks] ++ (state.note i errno).errorLine ∧
      (state.note i errno).reportsOf .peer =
        state.peerReports setup := by
  have main := printed.main
  rw [State.mainReports, stage] at main
  by_cases first : state.firstErrIter < 0
  · have none : state.firstErrno = none := by
      rw [counted.tallied.firstErrno,
        (firstErrIter_neg_iff counted.tallied).mp first]
      rfl
    have before : state.errorLine = [] := by
      rw [State.errorLine, none]
    rw [State.note, if_pos first]
    constructor
    · refine (reportsOf_report_same state .main _).trans ?_
      rw [main, before]
      rfl
    · exact (reportsOf_report_other state (by decide) _).trans printed.peer
  · rw [State.note, if_neg first]
    exact ⟨main, printed.peer⟩

/-- Every step reports what its thread reports there. -/
theorem Printed.step
    (threads : Threads setup capacity state)
    (counted : Counted setup seen state)
    (printed : Printed setup state)
    (taken : state.step? setup capacity label = some next) :
    Printed setup next := by
  rcases move_of_step? taken with moved | ⟨ns, rfl, rfl⟩
  swap
  · exact ⟨printed.main, printed.peer⟩
  have main := printed.main
  have peer := printed.peer
  generalize state.written label = ended at moved
  cases moved with
  | pairs stage | ignores stage
  | accepts i done count stage isOpen positive small room
  | fails i errno stage gone | createFails stage | joins stage done
  | closes stage =>
      rw [State.mainReports, stage] at main
      exact ⟨main, peer⟩
  | creates stage =>
      rw [State.mainReports, stage] at main
      rw [State.peerReports,
        threads.absent (by rw [stage]; rfl)] at peer
      exact ⟨main, peer⟩
  | kills i stage heeded =>
      exact ⟨main, peer⟩
  | pairingFails stage =>
      rw [State.mainReports, stage] at main
      refine ⟨?_, ?_⟩
      · refine (reportsOf_report_same state .main _).trans ?_
        rw [main]
        rfl
      · exact (reportsOf_report_other state (by decide) _).trans peer
  | announces stage =>
      rw [State.mainReports, stage] at main
      refine ⟨?_, ?_⟩
      · refine (reportsOf_report_same state .main _).trans ?_
        rw [main]
        rfl
      · exact (reportsOf_report_other state (by decide) _).trans peer
  | announcesWrites stage =>
      rw [State.mainReports, stage] at main
      have placed := counted.placed
      rw [Placed, stage] at placed
      have noError : state.firstErrno = none := by
        rw [counted.tallied.firstErrno, show seen = [] from placed]
        rfl
      refine ⟨?_, ?_⟩
      · rw [mainReports_of_head (loopHead_cases setup.iterations 0)]
        refine (reportsOf_report_same state .main _).trans ?_
        change _ = _ ++ state.errorLine
        rw [main, State.errorLine, noError]
        rfl
      · exact (reportsOf_report_other state (by decide) _).trans peer
  | returns i done stage finished | cuts i done stage positive =>
      rw [State.mainReports, stage] at main
      refine ⟨?_, peer⟩
      rw [mainReports_of_head
        (loopHead_cases setup.iterations (i + 1))]
      exact main
  | notes i errno stage =>
      obtain ⟨noted, others⟩ := reportsOf_note counted stage printed
      have samePeer : (state.note i errno).peer = state.peer := by
        unfold State.note
        split <;> rfl
      have sameResult :
          (state.note i errno).peerResult = state.peerResult := by
        unfold State.note
        split <;> rfl
      refine ⟨?_, ?_⟩
      · rw [mainReports_of_head
          (afterError_cases setup (state.errors + 1) (i + 1))]
        exact noted
      · change (state.note i errno).reportsOf .peer =
          (state.note i errno).peerReports setup
        rw [others, State.peerReports, State.peerReports, samePeer,
          sameResult]
  | reports stage =>
      rw [State.mainReports, stage] at main
      refine ⟨?_, ?_⟩
      · refine (reportsOf_report_same state .main _).trans ?_
        rw [main]
        rfl
      · exact (reportsOf_report_other state (by decide) _).trans peer
  | receives count stage positive small there | receivesNothing stage
  | peerSleeps stage | peerWakes wakeAt stage | peerCloses stage =>
      rw [State.peerReports, stage] at peer
      exact ⟨main, peer⟩
  | peerAnnounces stage | peerReturns stage =>
      rw [State.peerReports, stage] at peer
      refine ⟨?_, ?_⟩
      · exact (reportsOf_report_other state (by decide) _).trans main
      · refine (reportsOf_report_same state .peer _).trans ?_
        rw [peer]
        rfl

end Printed

section Report

variable
  {setup : Setup}
  {capacity now : Nat}
  {state next final : State}
  {label : Label}
  {labels : List Label}
  {seen : List Written}

/-- What a run has kept, wherever its threads stand. -/
structure Sound
    (setup : Setup)
    (capacity : Nat)
    (seen : List Written)
    (state : State) : Prop where
  threads : Threads setup capacity state
  counted : Counted setup seen state
  printed : Printed setup state

/-- Every step keeps all of it. -/
theorem Sound.step
    (sound : Sound setup capacity seen state)
    (taken : state.step? setup capacity label = some next) :
    Sound setup capacity (seen ++ state.written label) next where
  threads := sound.threads.step taken
  counted := sound.counted.step sound.threads taken
  printed := sound.printed.step sound.threads sound.counted taken

/-- A run keeps all of it. -/
theorem sound_of_run
    (ran :
      State.run? setup capacity (State.start now) labels = some final) :
    Sound setup capacity (writes setup capacity now labels) final :=
  Transition.run?_observed (Sound setup capacity)
    ⟨Threads.start now, Counted.start now, ⟨rfl, rfl⟩⟩
    (fun sound taken => sound.step taken) ran

/-- The write in progress fails because of a signal. -/
def MainStage.interrupted : MainStage → Bool
  | .failed _ errno => errno == .eintr
  | _ => false

/-- The loop does not start or go on inside a write that was interrupted. -/
theorem interrupted_heads (setup : Setup) (errors i : Nat) :
    (MainStage.loopHead setup.iterations i).interrupted = false ∧
      (MainStage.afterError setup errors i).interrupted = false := by
  constructor
  · rcases loopHead_cases setup.iterations i with head | head <;>
      rw [head] <;> rfl
  · rcases afterError_cases setup errors i with head | head <;>
      rw [head] <;> rfl

/-- Nor does any step of the main thread itself lead to one. -/
theorem interrupted_mainStep?
    (taken : state.mainStep? setup = some next) :
    next.main.interrupted = false := by
  have heads := interrupted_heads setup
  unfold State.mainStep? at taken
  cases stage : state.main with
  | pairing | ignoring | announcing | creating | closing | reporting =>
      simp only [stage, Option.some.injEq] at taken
      rw [← taken]
      rfl
  | announcingWrites =>
      simp only [stage, Option.some.injEq] at taken
      rw [← taken]
      exact (heads 0 0).1
  | writing i done =>
      simp only [stage, Option.ite_none_right_eq_some,
        Option.some.injEq] at taken
      rw [← taken.2]
      exact (heads 0 (i + 1)).1
  | failed i errno =>
      simp only [stage, Option.some.injEq] at taken
      rw [← taken]
      exact (heads (state.errors + 1) (i + 1)).2
  | joining =>
      simp only [stage, Option.ite_none_right_eq_some,
        Option.some.injEq] at taken
      rw [← taken.2]
      rfl
  | returned rc =>
      simp [stage] at taken

/-- The peer's steps leave the main thread where it is. -/
theorem main_peerStep?
    (taken : state.peerStep? setup = some next) :
    next.main = state.main := by
  unfold State.peerStep? at taken
  split at taken
  case h_6 =>
    simp only [Option.ite_none_right_eq_some, Option.some.injEq] at taken
    rw [← taken.2]
  all_goals
    cases taken
    try rfl

/-- Without signals to the main thread no write is interrupted. -/
theorem interrupted_step
    (calm : state.main.interrupted = false)
    (kind : label ≠ .interrupt .main)
    (taken : state.step? setup capacity label = some next) :
    next.main.interrupted = false := by
  unfold State.step? at taken
  split at taken
  · cases taken
  cases label with
  | main =>
      exact interrupted_mainStep? taken
  | peer =>
      rw [main_peerStep? taken]
      exact calm
  | socketpairFails | createFails =>
      simp only [Option.ite_none_right_eq_some, Option.some.injEq] at taken
      rw [← taken.2]
      rfl
  | receive count =>
      simp only [Option.ite_none_right_eq_some, Option.some.injEq] at taken
      rw [← taken.2]
      exact calm
  | tick ns =>
      rw [← Option.some.inj taken]
      exact calm
  | accept count =>
      simp only at taken
      split at taken
      · simp only [Option.ite_none_right_eq_some,
          Option.some.injEq] at taken
        rw [← taken.2]
        rfl
      · cases taken
  | broken errno =>
      simp only at taken
      split at taken
      · split at taken
        · cases taken
        · rename_i other
          split at taken
          · rw [← Option.some.inj taken]
            exact calm
          · rw [← Option.some.inj taken]
            exact beq_eq_false_iff_ne.mpr fun same => other (Or.inr same)
      · cases taken
  | interrupt thread =>
      cases thread with
      | main =>
          exact absurd rfl kind
      | peer =>
          simp only [State.interrupted?] at taken
          split at taken
          · rw [← Option.some.inj taken]
            exact calm
          · rw [← Option.some.inj taken]
            exact calm
          · cases taken

/-- So it is of a whole run. -/
theorem not_interrupted_of_run
    (kind : ∀ label ∈ labels, label ≠ .interrupt .main)
    (ran :
      State.run? setup capacity (State.start now) labels = some final) :
    ∀ written ∈ writes setup capacity now labels, ¬ written.Interrupted := by
  refine Transition.forall_observed
    (fun calm kind taken => interrupted_step calm kind taken) ?_ ran
    (Transition.eachStep_of_forall kind _) rfl
  intro before label calm kind written member
  unfold State.written at member
  split at member
  · split at member
    · rw [List.mem_singleton.mp member]
      exact id
    · rename_i i errno stage
      rw [List.mem_singleton.mp member]
      rintro rfl
      rw [stage] at calm
      cases calm
    · cases member
  · exact absurd rfl kind
  all_goals cases member

/--
What the variables say once the main thread has returned, its writes having
ended as they did.
-/
structure ResetAccounts
    (setup : Setup)
    (capacity : Nat)
    (seen : List Written)
    (state : State) : Prop where
  ended : state.peer = .returned
  closed : state.myOpen = false ∧ state.peerOpen = false
  read :
    state.peerResult = state.peerRead ∧ 0 < state.peerRead ∧
        state.peerRead ≤ setup.rbufBytes ∨
      state.peerResult = -1 ∧ state.peerRead = 0
  moved : state.total = state.peerRead + state.queued
  room : state.queued ≤ capacity
  tallied : Tallied seen state
  ends : Over setup seen state.errors
  shaped : Shaped setup seen
  main :
    state.reportsOf .main =
      [spawning, untilBreaks] ++ state.errorLine ++
        resetReport state.total state.firstErrIter state.errors
          state.firstErrno
  peer :
    state.reportsOf .peer =
      [peerReceived setup state.peerResult, peerClosed]

/--
A signal cuts the third write short; the peer closes its end while the fourth
one waits for room.
-/
def interruptedRun : List Label :=
  [.main, .main, .main, .main, .main, .accept 4096, .receive 4096, .main,
    .accept 4096, .main, .accept 1, .interrupt .main, .accept 4095, .peer,
    .peer, .tick 30000000, .peer, .peer, .main, .broken .econnreset, .main,
    .broken .epipe, .main, .peer, .broken .epipe, .main, .main, .main,
    .main]

end Report

end FailurePlayground.ConnectionReset
