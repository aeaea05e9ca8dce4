import FailurePlayground.ThunderingHerd

namespace FailurePlayground.ThunderingHerd

/-!
# How long the herd takes

The critical sections of a run follow each other, so the time spent in them
all fits between the starting gun and any later moment; every one of them
contains a sync of its full delay; and what a worker waits and works fits into
its own time.  The shared totals are the sums over the critical sections, up to
what the workers have yet to add.
-/

/-- How long a worker waited for the mutex in one iteration. -/
def Times.wait (times : Times) : Nat :=
  times.tAcquired - times.tBefore

/-- How long it then stayed in the critical section. -/
def Times.work (times : Times) : Nat :=
  times.tDone - times.tAcquired

/-- What a worker read between the gun and now, with a whole sync in it. -/
structure Times.InOrder (D t0 now : Nat) (times : Times) : Prop where
  gun : t0 ≤ times.tBefore
  waited : times.tBefore ≤ times.tAcquired
  synced : times.tAcquired + D ≤ times.tDone
  past : times.tDone ≤ now

/-- One passage of a worker through the critical section. -/
structure Section (W : Nat) where
  worker : Fin W
  times : Times
  deriving Repr, DecidableEq

namespace WorkerStage

/-- The mutex a worker holds. -/
def holds : WorkerStage → Option Mutex
  | .checking | .unlockStart => some .startMu
  | .acquired _ _ | .writing _ _ _ | .syncing _ _ _ _ | .synced _ _ _
  | .unlockMu _ _ => some .mu
  | .loadWait _ _ | .storeWait _ _ _ | .loadWork _ _ | .storeWork _ _ _
  | .unlockTot _ => some .totMu
  | .absent | .lockStart | .waiting | .waking | .looping _ | .lockMu _ _
  | .lockTot _ _ | .returned => none

/-- The worker has not yet seen the starting gun. -/
def early : WorkerStage → Bool
  | .absent | .lockStart | .checking | .waiting | .waking => true
  | _ => false

/-- When the worker in the critical section acquired its mutex. -/
def inside : WorkerStage → Option Nat
  | .writing _ _ tAcquired | .syncing _ _ tAcquired _
  | .synced _ _ tAcquired => some tAcquired
  | _ => none

/-- How many critical sections the worker has left. -/
def syncs (K : Nat) : WorkerStage → Nat
  | .looping i | .lockMu i _ | .acquired i _ | .writing i _ _
  | .syncing i _ _ _ | .synced i _ _ => i
  | .unlockMu i _ | .lockTot i _ | .loadWait i _ | .storeWait i _ _
  | .loadWork i _ | .storeWork i _ _ | .unlockTot i => i + 1
  | .returned => K
  | .absent | .lockStart | .checking | .waiting | .waking
  | .unlockStart => 0

/-- The waiting time that the worker has yet to add. -/
def pendingWait : WorkerStage → Nat
  | .unlockMu _ times | .lockTot _ times | .loadWait _ times
  | .storeWait _ times _ => times.wait
  | _ => 0

/-- The working time that the worker has yet to add. -/
def pendingWork : WorkerStage → Nat
  | .unlockMu _ times | .lockTot _ times | .loadWait _ times
  | .storeWait _ times _ | .loadWork _ times
  | .storeWork _ times _ => times.work
  | _ => 0

/-- The critical section that a worker's next step completes. -/
def closes (now : Nat) : WorkerStage → List Times
  | .synced _ tBefore tAcquired => [⟨tBefore, tAcquired, now⟩]
  | _ => []

/-- A bound on the time since the gun that the worker has accounted for. -/
def accounted (now t0 : Nat) : WorkerStage → Nat
  | .looping _ | .unlockTot _ | .returned => now - t0
  | .lockMu _ tBefore | .acquired _ tBefore | .writing _ tBefore _
  | .syncing _ tBefore _ _ | .synced _ tBefore _ => tBefore - t0
  | .unlockMu _ times | .lockTot _ times | .loadWait _ times
  | .storeWait _ times _ | .loadWork _ times
  | .storeWork _ times _ => times.tDone - t0
  | .absent | .lockStart | .checking | .waiting | .waking
  | .unlockStart => 0

/-- What a worker read from the clock is in order. -/
def InTime (K D now t0 : Nat) : WorkerStage → Prop
  | .looping i => i < K ∧ t0 ≤ now
  | .lockMu i tBefore | .acquired i tBefore =>
      i < K ∧ t0 ≤ tBefore ∧ tBefore ≤ now
  | .writing i tBefore tAcquired =>
      i < K ∧ t0 ≤ tBefore ∧ tBefore ≤ tAcquired ∧ tAcquired ≤ now
  | .syncing i tBefore tAcquired wakeAt =>
      i < K ∧ t0 ≤ tBefore ∧ tBefore ≤ tAcquired ∧
        tAcquired + D ≤ wakeAt
  | .synced i tBefore tAcquired =>
      i < K ∧ t0 ≤ tBefore ∧ tBefore ≤ tAcquired ∧ tAcquired + D ≤ now
  | .unlockMu i times | .lockTot i times | .loadWait i times
  | .storeWait i times _ | .loadWork i times | .storeWork i times _ =>
      i < K ∧ t0 ≤ times.tBefore ∧ times.tBefore ≤ times.tAcquired ∧
        times.tAcquired + D ≤ times.tDone ∧ times.tDone ≤ now
  | .unlockTot i => i < K ∧ t0 ≤ now
  | .returned => t0 ≤ now
  | .absent | .lockStart | .checking | .waiting | .waking
  | .unlockStart => True

end WorkerStage

section Moves

variable {K D now t0 : Nat} {started : Bool} {totalWait totalWork : Int}
variable {stage later : WorkerStage} {effect : Effect}

/-- The mutex a worker holds follows from its effects. -/
def Effect.Holds (before after : Option Mutex) : Effect → Prop
  | .lock mutex => before = none ∧ after = some mutex
  | .unlock mutex => before = some mutex ∧ after = none
  | .setWait _ | .setWork _ => before = some .totMu ∧ after = some .totMu
  | .silent => after = before

/-- A worker that has done its iterations holds nothing. -/
@[simp] theorem holds_loopHead (K i : Nat) :
    (WorkerStage.loopHead K i).holds = none := by
  unfold WorkerStage.loopHead
  split <;> rfl

/-- Locks are taken one at a time, and the totals changed in theirs. -/
theorem Move.holds
    (move : Move K D now started totalWait totalWork stage effect later) :
    effect.Holds stage.holds later.holds := by
  cases move with
  | enter =>
      exact ⟨rfl, holds_loopHead K 0⟩
  | unlockTot i =>
      exact ⟨rfl, holds_loopHead K (i + 1)⟩
  | lockStart | relock | wait | lockMu | unlockMu | lockTot | storeWait
  | storeWork =>
      exact ⟨rfl, rfl⟩
  | pass | readBefore | readAcquired | write | sync | readDone | loadWait
  | loadWork =>
      rfl

/-- A worker's readings stay in order. -/
theorem Move.inTime
    (move : Move K D now started totalWait totalWork stage effect later)
    (inTime : stage.InTime K D now t0)
    (gun : t0 ≤ now) :
    later.InTime K D now t0 := by
  cases move with
  | enter =>
      unfold WorkerStage.loopHead
      split
      · rename_i more
        exact ⟨more, gun⟩
      · exact gun
  | unlockTot i =>
      unfold WorkerStage.loopHead
      split
      · rename_i more
        exact ⟨more, gun⟩
      · exact gun
  | lockStart | relock | pass | wait =>
      trivial
  | readBefore | lockMu | readAcquired | write | sync | readDone
  | unlockMu | lockTot | loadWait | storeWait | loadWork | storeWork =>
      simp only [WorkerStage.InTime] at inTime ⊢
      omega

/-- The working time a worker owes, counting what it adds now. -/
def Effect.addsWork (totalWork : Int) : Effect → Int
  | .setWork sum => sum - totalWork
  | .silent | .lock _ | .unlock _ | .setWait _ => 0

/-- The waiting time a worker adds now. -/
def Effect.addsWait (totalWait : Int) : Effect → Int
  | .setWait sum => sum - totalWait
  | .silent | .lock _ | .unlock _ | .setWork _ => 0

/-- A worker that stores a sum loaded it when it had its present value. -/
def WorkerStage.Loaded (totalWait totalWork : Int) : WorkerStage → Prop
  | .storeWait _ _ loaded => loaded = totalWait
  | .storeWork _ _ loaded => loaded = totalWork
  | _ => True

/-- The loop head, by what it counts and owes. -/
theorem loopHead_facts
    (K i now t0 : Nat)
    (bound : i ≤ K) :
    (WorkerStage.loopHead K i).syncs K = i ∧
      (WorkerStage.loopHead K i).pendingWait = 0 ∧
      (WorkerStage.loopHead K i).pendingWork = 0 ∧
      (WorkerStage.loopHead K i).inside = none ∧
      (WorkerStage.loopHead K i).accounted now t0 = now - t0 := by
  unfold WorkerStage.loopHead
  split
  · exact ⟨rfl, rfl, rfl, rfl, rfl⟩
  · rename_i done
    exact ⟨Nat.le_antisymm (Nat.le_of_not_lt done) bound, rfl, rfl, rfl,
      rfl⟩

/-- What a step of a worker does to its own account. -/
structure Accounts
    (K D now t0 : Nat)
    (totalWait totalWork : Int)
    (stage : WorkerStage)
    (effect : Effect)
    (later : WorkerStage) : Prop where
  waits :
    effect.addsWait totalWait + later.pendingWait =
      stage.pendingWait + ((stage.closes now).map Times.wait).sum
  works :
    effect.addsWork totalWork + later.pendingWork =
      stage.pendingWork + ((stage.closes now).map Times.work).sum
  counted : later.syncs K = stage.syncs K + (stage.closes now).length
  spent :
    stage.accounted now t0 +
        ((stage.closes now).map fun times => times.wait + times.work).sum ≤
      later.accounted now t0
  entered : ∀ tAcquired, later.inside = some tAcquired →
    stage.inside = some tAcquired ∨ tAcquired = now
  closed : ∀ times ∈ stage.closes now,
    times.InOrder D t0 now ∧ stage.inside = some times.tAcquired ∧
      later.inside = none

/-- A step that completes no critical section, and enters none. -/
theorem Accounts.of_open
    (waits :
      effect.addsWait totalWait + later.pendingWait = stage.pendingWait)
    (works :
      effect.addsWork totalWork + later.pendingWork = stage.pendingWork)
    (counted : later.syncs K = stage.syncs K)
    (spent : stage.accounted now t0 ≤ later.accounted now t0)
    (entered : ∀ tAcquired, later.inside = some tAcquired →
      stage.inside = some tAcquired ∨ tAcquired = now)
    (opens : stage.closes now = []) :
    Accounts K D now t0 totalWait totalWork stage effect later := by
  constructor
  · simpa [opens] using waits
  · simpa [opens] using works
  · simpa [opens] using counted
  · simpa [opens] using spent
  · exact entered
  · simp [opens]

/-- Time is accounted for at the end of a critical section, and then added. -/
theorem Move.accounts
    (move : Move K D now started totalWait totalWork stage effect later)
    (inTime : stage.InTime K D now t0)
    (loaded : stage.Loaded totalWait totalWork) :
    Accounts K D now t0 totalWait totalWork stage effect later := by
  cases move with
  | readDone i tBefore tAcquired =>
      obtain ⟨_, gun, waited, synced⟩ := inTime
      have inOrder :
          Times.InOrder D t0 now ⟨tBefore, tAcquired, now⟩ :=
        ⟨gun, waited, synced, Nat.le_refl now⟩
      refine ⟨?_, ?_, rfl, ?_, fun _ entered => ?_, ?_⟩
      · simp [Effect.addsWait, WorkerStage.pendingWait,
          WorkerStage.closes]
      · simp [Effect.addsWork, WorkerStage.pendingWork,
          WorkerStage.closes]
      · simp only [WorkerStage.accounted, WorkerStage.closes,
          List.map_cons, List.map_nil, List.sum_cons, List.sum_nil,
          Times.wait, Times.work]
        omega
      · exact absurd entered (by simp [WorkerStage.inside])
      · simp only [WorkerStage.closes, List.mem_singleton,
          forall_eq]
        exact ⟨inOrder, rfl, rfl⟩
  | enter =>
      obtain ⟨syncs, waits, works, inside, accounted⟩ :=
        loopHead_facts K 0 now t0 (Nat.zero_le K)
      refine .of_open ?_ ?_ syncs ?_ (fun _ entered => ?_) rfl
      · rw [waits]
        rfl
      · rw [works]
        rfl
      · exact Nat.zero_le _
      · rw [inside] at entered
        exact absurd entered (by simp)
  | unlockTot i =>
      obtain ⟨syncs, waits, works, inside, accounted⟩ :=
        loopHead_facts K (i + 1) now t0 inTime.1
      refine .of_open ?_ ?_ syncs ?_ (fun _ entered => ?_) rfl
      · rw [waits]
        rfl
      · rw [works]
        rfl
      · rw [accounted]
        exact Nat.le_refl _
      · rw [inside] at entered
        exact absurd entered (by simp)
  | readAcquired i tBefore =>
      refine .of_open rfl rfl rfl (Nat.le_refl _) (fun _ entered => ?_) rfl
      exact Or.inr (Option.some.inj entered).symm
  | storeWait i times sum =>
      have current : sum = totalWait := loaded
      simp only [WorkerStage.InTime] at inTime
      refine .of_open ?_ (Int.zero_add _) rfl (Nat.le_refl _)
        (fun _ => Or.inl) rfl
      simp only [Effect.addsWait, WorkerStage.pendingWait, Times.wait,
        current]
      omega
  | storeWork i times sum =>
      have current : sum = totalWork := loaded
      simp only [WorkerStage.InTime] at inTime
      refine .of_open rfl ?_ rfl ?_ (fun _ => Or.inl) rfl
      · simp only [Effect.addsWork, WorkerStage.pendingWork, Times.work,
          current]
        omega
      · simp only [WorkerStage.accounted]
        omega
  | lockStart | relock | pass | wait | readBefore | lockMu | write
  | sync | unlockMu | lockTot | loadWait | loadWork =>
      simp only [WorkerStage.InTime] at inTime
      refine .of_open ?_ ?_ rfl ?_ (fun _ => Or.inl) rfl
      · simp [Effect.addsWait, WorkerStage.pendingWait]
      · simp [Effect.addsWork, WorkerStage.pendingWork]
      · simp only [WorkerStage.accounted]
        omega

end Moves

section Apply

variable {W : Nat} (state : State W) (w : Fin W) (effect : Effect)

@[simp] theorem apply_now : (state.apply w effect).now = state.now := by
  cases effect <;> rfl

@[simp] theorem apply_t0 : (state.apply w effect).t0 = state.t0 := by
  cases effect <;> rfl

@[simp] theorem apply_started :
    (state.apply w effect).started = state.started := by
  cases effect <;> rfl

@[simp] theorem apply_main : (state.apply w effect).main = state.main := by
  cases effect <;> rfl

@[simp] theorem apply_reports :
    (state.apply w effect).reports = state.reports := by
  cases effect <;> rfl

@[simp] theorem apply_workers :
    (state.apply w effect).workers = state.workers := by
  cases effect <;> rfl

/-- What an effect adds to the total of the work. -/
theorem apply_totalWork :
    (state.apply w effect).totalWork =
      state.totalWork + effect.addsWork state.totalWork := by
  cases effect with
  | setWork sum =>
      simp only [State.apply, Effect.addsWork]
      omega
  | silent | lock mutex | unlock mutex | setWait sum =>
      exact (Int.add_zero _).symm

/-- What an effect adds to the total of the waiting. -/
theorem apply_totalWait :
    (state.apply w effect).totalWait =
      state.totalWait + effect.addsWait state.totalWait := by
  cases effect with
  | setWait sum =>
      simp only [State.apply, Effect.addsWait]
      omega
  | silent | lock mutex | unlock mutex | setWork sum =>
      exact (Int.add_zero _).symm

end Apply

section Locks

variable {W K D : Nat} {state next : State W} {w : Fin W}

/-- The mutex the main thread holds. -/
def MainStage.holds : MainStage → Option Mutex
  | .starting | .broadcasting | .unlockStart => some .startMu
  | .opening | .announcing | .spawning _ | .pausing | .sleeping _
  | .reading | .lockStart | .joining _ | .reporting
  | .returned _ => none

/-- The mutex a thread holds. -/
def holdsOf (state : State W) : Thread W → Option Mutex
  | .main => state.main.holds
  | .worker w => (state.workers w).holds

/-- The owner of every mutex is the thread that holds it. -/
abbrev Owned (state : State W) : Prop :=
  Locks.Agree state.owner (holdsOf state)

/-- Two workers do not hold one mutex. -/
theorem Owned.workers_eq
    {other : Fin W}
    {mutex : Mutex}
    (owned : Owned state)
    (held : (state.workers w).holds = some mutex)
    (heldToo : (state.workers other).holds = some mutex) :
    w = other :=
  Thread.worker.inj
    (Locks.Agree.exclusive owned held heldToo)

/-- A worker at another stage holds another mutex. -/
theorem holdsOf_apply_setWorker
    (state : State W)
    (w : Fin W)
    (stage : WorkerStage)
    (effect : Effect) :
    holdsOf ((state.setWorker w stage).apply w effect) =
      Function.update (holdsOf state) (.worker w) stage.holds := by
  funext thread
  cases thread with
  | main =>
      simp [holdsOf, State.setWorker]
  | worker other =>
      by_cases self : other = w
      · subst self
        simp [holdsOf, State.setWorker]
      · have different : Thread.worker other ≠ .worker w :=
          fun same => self (Thread.worker.inj same)
        simp [holdsOf, State.setWorker, Function.update_of_ne self,
          Function.update_of_ne different]

/-- A worker's step keeps the owners. -/
theorem Owned.worker
    {effect : Effect}
    {stage : WorkerStage}
    (owned : Owned state)
    (admits : state.Admits effect)
    (holds : effect.Holds (state.workers w).holds stage.holds) :
    Owned ((state.setWorker w stage).apply w effect) := by
  have unchanged : stage.holds = (state.workers w).holds →
      Locks.Agree state.owner
        (Function.update (holdsOf state) (.worker w) stage.holds) := by
    intro same
    rw [same, show (state.workers w).holds = holdsOf state (.worker w)
      from rfl, Function.update_eq_self]
    exact owned
  unfold Owned
  rw [holdsOf_apply_setWorker]
  cases effect with
  | silent =>
      exact unchanged holds
  | setWait sum =>
      exact unchanged (holds.2.trans holds.1.symm)
  | setWork sum =>
      exact unchanged (holds.2.trans holds.1.symm)
  | lock mutex =>
      rw [holds.2]
      exact Locks.Agree.take owned admits holds.1
  | unlock mutex =>
      rw [holds.2]
      exact Locks.Agree.give owned holds.1

end Locks

section Sums

variable {W K D : Nat} {state next : State W} {w : Fin W}

/-- A quantity of the workers, summed over them. -/
def State.sum (weight : WorkerStage → Nat) (state : State W) : Nat :=
  ∑ w, weight (state.workers w)

/-- A worker that moves changes a sum by its own part. -/
theorem sum_setWorker
    (weight : WorkerStage → Nat)
    (state : State W)
    (w : Fin W)
    (stage : WorkerStage)
    (effect : Effect) :
    ((state.setWorker w stage).apply w effect).sum weight +
        weight (state.workers w) =
      state.sum weight + weight stage := by
  unfold State.sum
  rw [apply_workers]
  exact Parties.sum_update state.workers w stage weight

/-- A sum over no time. -/
theorem sum_eq_zero
    {weight : WorkerStage → Nat}
    (zero : ∀ w, weight (state.workers w) = 0) :
    state.sum weight = 0 :=
  Finset.sum_eq_zero fun w _ => zero w

/-- The critical sections that a step completes. -/
def State.closes (state : State W) : Label W → List (Section W)
  | .worker w => ((state.workers w).closes state.now).map (Section.mk w)
  | .main _ | .wake _ | .tick _ => []

/-- The critical sections of a run, in the order of their ends. -/
def sections (K D : Nat) : State W → List (Label W) → List (Section W) :=
  Transition.observed (State.step? K D) State.closes

/-- The critical sections of one worker. -/
def sectionsOf (w : Fin W) (seen : List (Section W)) : List Times :=
  (seen.filter fun entry => entry.worker = w).map Section.times

/-- A quantity of critical sections, summed over them. -/
def total (weight : Times → Nat) (seen : List (Section W)) : Nat :=
  (seen.map fun entry => weight entry.times).sum

/-- What the critical sections, the workers' readings and the totals obey. -/
structure Timed
    (K D : Nat)
    (seen : List (Section W))
    (state : State W) : Prop where
  /-- The gun is not in the future. -/
  gun : state.t0 ≤ state.now
  /-- Every worker's readings are in order. -/
  inTime : ∀ w, (state.workers w).InTime K D state.now state.t0
  /-- Every sum about to be stored was loaded from the present one. -/
  loaded : ∀ w,
    (state.workers w).Loaded state.totalWait state.totalWork
  /-- Every critical section lies between the gun and now. -/
  inOrder : ∀ entry ∈ seen, entry.times.InOrder D state.t0 state.now
  /-- They took turns. -/
  turns : seen.Pairwise fun first second =>
    first.times.tDone ≤ second.times.tAcquired
  /-- They were over when the present one began. -/
  inside : ∀ w tAcquired, (state.workers w).inside = some tAcquired →
    ∀ entry ∈ seen, entry.times.tDone ≤ tAcquired
  /-- The waiting is in the total, or a worker is about to add it. -/
  waits :
    state.totalWait + state.sum WorkerStage.pendingWait =
      (total Times.wait seen : Int)
  /-- So is the work. -/
  works :
    state.totalWork + state.sum WorkerStage.pendingWork =
      (total Times.work seen : Int)
  /-- A worker knows how many critical sections it has been through. -/
  counted : ∀ w,
    (sectionsOf w seen).length = (state.workers w).syncs K
  /-- They fit into its time since the gun. -/
  spent : ∀ w,
    ((sectionsOf w seen).map fun times => times.wait + times.work).sum ≤
      (state.workers w).accounted state.now state.t0

section Seen

variable {seen more : List (Section W)} {other : Fin W} {new : List Times}

@[simp] theorem total_append (weight : Times → Nat) :
    total weight (seen ++ more) = total weight seen + total weight more := by
  simp [total]

/-- What one worker adds to a total. -/
@[simp] theorem total_map_mk (weight : Times → Nat) :
    total weight (new.map (Section.mk w)) = (new.map weight).sum := by
  simp [total, Function.comp_def]

/-- A worker's new critical sections are its own. -/
theorem sectionsOf_append_self :
    sectionsOf w (seen ++ new.map (Section.mk w)) =
      sectionsOf w seen ++ new := by
  simp [sectionsOf, List.filter_append, List.filter_map,
    Function.comp_def]

/-- And nobody else's. -/
theorem sectionsOf_append_of_ne
    (different : other ≠ w) :
    sectionsOf other (seen ++ new.map (Section.mk w)) =
      sectionsOf other seen := by
  have apart : ¬ w = other := fun same => different same.symm
  simp [sectionsOf, List.filter_append, List.filter_map,
    Function.comp_def, apart]

/-- Nobody has been through a critical section when each has been in none. -/
theorem eq_nil_of_sectionsOf
    (none : ∀ w, (sectionsOf w seen).length = 0) :
    seen = [] := by
  refine List.eq_nil_iff_forall_not_mem.mpr fun entry member => ?_
  have own := none entry.worker
  rw [sectionsOf, List.length_map, List.length_eq_zero_iff,
    List.filter_eq_nil_iff] at own
  exact own entry member (by simp)

end Seen

/-- The worker in the critical section holds `mu`. -/
theorem holds_of_inside
    {stage : WorkerStage}
    {tAcquired : Nat}
    (inside : stage.inside = some tAcquired) :
    stage.holds = some .mu := by
  cases stage <;> first | rfl | exact absurd inside (by simp [WorkerStage.inside])

/-- Only the holder of `totMu` is about to store a sum. -/
theorem Loaded.of_holds_ne
    {stage : WorkerStage}
    {totalWait totalWork totalWait' totalWork' : Int}
    (loaded : stage.Loaded totalWait totalWork)
    (elsewhere : stage.holds ≠ some .totMu) :
    stage.Loaded totalWait' totalWork' := by
  cases stage with
  | storeWait i times sum =>
      exact absurd rfl elsewhere
  | storeWork i times sum =>
      exact absurd rfl elsewhere
  | _ =>
      trivial

/-- An effect on the totals is made with `totMu` held. -/
theorem Effect.Holds.totals
    {effect : Effect}
    {before after : Option Mutex}
    (holds : effect.Holds before after) :
    before = some .totMu ∨
      ∀ totalWait totalWork, effect.addsWait totalWait = 0 ∧
        effect.addsWork totalWork = 0 := by
  cases effect with
  | setWait sum =>
      exact Or.inl holds.1
  | setWork sum =>
      exact Or.inl holds.1
  | silent | lock mutex | unlock mutex =>
      exact Or.inr fun _ _ => ⟨rfl, rfl⟩

/-- What a worker loads or leaves agrees with the totals after its step. -/
theorem Move.loaded
    {now : Nat}
    {started : Bool}
    {totalWait totalWork : Int}
    {stage later : WorkerStage}
    {effect : Effect}
    (move : Move K D now started totalWait totalWork stage effect later) :
    later.Loaded (totalWait + effect.addsWait totalWait)
      (totalWork + effect.addsWork totalWork) := by
  have loop : ∀ i waits works,
      (WorkerStage.loopHead K i).Loaded waits works := by
    intro i waits works
    unfold WorkerStage.loopHead
    split <;> trivial
  cases move with
  | enter =>
      exact loop _ _ _
  | unlockTot i =>
      exact loop _ _ _
  | loadWait i times =>
      exact (Int.add_zero _).symm
  | loadWork i times =>
      exact (Int.add_zero _).symm
  | lockStart | relock | pass | wait | readBefore | lockMu | readAcquired
  | write | sync | readDone | unlockMu | lockTot | storeWait
  | storeWork =>
      trivial

/-- At most one critical section is completed by a step. -/
theorem pairwise_closes
    (now : Nat)
    (stage : WorkerStage)
    (w : Fin W) :
    ((stage.closes now).map (Section.mk w)).Pairwise fun first second =>
      first.times.tDone ≤ second.times.tAcquired := by
  cases stage <;> simp [WorkerStage.closes]

/-- A worker's step keeps the times. -/
theorem Timed.worker
    {seen : List (Section W)}
    {effect : Effect}
    {stage : WorkerStage}
    (timed : Timed K D seen state)
    (owned : Owned state)
    (move : state.MovesTo K D w effect stage) :
    Timed K D (seen ++ state.closes (.worker w))
      ((state.setWorker w stage).apply w effect) := by
  have inTime := timed.inTime w
  have loaded := timed.loaded w
  have accounts := move.accounts inTime loaded
  have workers : ∀ other, other ≠ w →
      ((state.setWorker w stage).apply w effect).workers other =
        state.workers other := by
    intro other different
    rw [apply_workers]
    exact Function.update_of_ne different _ _
  have self :
      ((state.setWorker w stage).apply w effect).workers w = stage := by
    rw [apply_workers]
    exact Function.update_self _ _ _
  have totalWork :
      ((state.setWorker w stage).apply w effect).totalWork =
        state.totalWork + effect.addsWork state.totalWork :=
    apply_totalWork _ _ _
  have totalWait :
      ((state.setWorker w stage).apply w effect).totalWait =
        state.totalWait + effect.addsWait state.totalWait :=
    apply_totalWait _ _ _
  have now : ((state.setWorker w stage).apply w effect).now = state.now :=
    apply_now _ _ _
  have t0 : ((state.setWorker w stage).apply w effect).t0 = state.t0 :=
    apply_t0 _ _ _
  have fresh : ∀ entry ∈ state.closes (.worker w),
      entry.times ∈ (state.workers w).closes state.now := by
    intro entry among
    obtain ⟨times, member, rfl⟩ := List.mem_map.mp among
    exact member
  constructor
  · rw [now, t0]
    exact timed.gun
  · intro other
    rw [now, t0]
    by_cases same : other = w
    · subst same
      rw [self]
      exact move.inTime inTime timed.gun
    · rw [workers other same]
      exact timed.inTime other
  · intro other
    rw [totalWork, totalWait]
    by_cases same : other = w
    · subst same
      rw [self]
      exact move.loaded
    · rw [workers other same]
      rcases move.holds.totals with held | nothing
      · refine Loaded.of_holds_ne (timed.loaded other) fun heldToo => ?_
        exact same (owned.workers_eq heldToo held)
      · obtain ⟨noWait, noWork⟩ :=
          nothing state.totalWait state.totalWork
        rw [noWait, noWork, Int.add_zero, Int.add_zero]
        exact timed.loaded other
  · intro entry among
    rw [now, t0]
    rcases List.mem_append.mp among with before | new
    · exact timed.inOrder entry before
    · exact (accounts.closed _ (fresh entry new)).1
  · refine List.pairwise_append.mpr
      ⟨timed.turns, pairwise_closes _ _ _, fun entry before last new => ?_⟩
    exact timed.inside w _ (accounts.closed _ (fresh last new)).2.1
      entry before
  · intro other tAcquired within entry among
    by_cases same : other = w
    · subst same
      rw [self] at within
      rcases List.mem_append.mp among with before | new
      · rcases accounts.entered tAcquired within with earlier | present
        · exact timed.inside other tAcquired earlier entry before
        · rw [present]
          exact (timed.inOrder entry before).past
      · rw [(accounts.closed _ (fresh entry new)).2.2] at within
        exact absurd within (by simp)
    · rw [workers other same] at within
      rcases List.mem_append.mp among with before | new
      · exact timed.inside other tAcquired within entry before
      · have left := (accounts.closed _ (fresh entry new)).2.1
        exact absurd
          (owned.workers_eq (holds_of_inside within) (holds_of_inside left))
          same
  · have pending :=
      sum_setWorker WorkerStage.pendingWait state w stage effect
    have before := timed.waits
    have own := accounts.waits
    rw [totalWait, State.closes, total_append, total_map_mk]
    omega
  · have pending :=
      sum_setWorker WorkerStage.pendingWork state w stage effect
    have before := timed.works
    have own := accounts.works
    rw [totalWork, State.closes, total_append, total_map_mk]
    omega
  · intro other
    by_cases same : other = w
    · subst same
      rw [self, State.closes, sectionsOf_append_self, List.length_append,
        timed.counted other, accounts.counted]
    · rw [workers other same, State.closes, sectionsOf_append_of_ne same]
      exact timed.counted other
  · intro other
    rw [now, t0]
    by_cases same : other = w
    · subst same
      have before := timed.spent other
      have own := accounts.spent
      rw [self, State.closes, sectionsOf_append_self, List.map_append,
        List.sum_append]
      omega
    · rw [workers other same, State.closes, sectionsOf_append_of_ne same]
      exact timed.spent other

end Sums

end FailurePlayground.ThunderingHerd
