import Mathlib.Algebra.Order.BigOperators.Group.Finset
import Mathlib.Tactic.Ring
import FailurePlayground.HerdTimes

namespace FailurePlayground.ThunderingHerd

/-!
# Whole runs of the herd

No worker passes the starting gun before it, nobody sleeps through it, and the
main thread reports when all its workers are done.  The report then shows the
serialisation: the wall clock covers the critical sections of all workers, one
after the other and each with a whole sync, and no worker has waited and worked
for longer than the wall clock.
-/

namespace MainStage

/-- `started` has been set. -/
def fired : MainStage → Bool
  | .broadcasting | .unlockStart | .joining _ | .reporting => true
  | .returned rc => rc == 0
  | .opening | .announcing | .spawning _ | .pausing | .sleeping _
  | .reading | .lockStart | .starting => false

/-- `pthread_cond_broadcast` has been called. -/
def awake : MainStage → Bool
  | .unlockStart | .joining _ | .reporting => true
  | .returned rc => rc == 0
  | .opening | .announcing | .spawning _ | .pausing | .sleeping _
  | .reading | .lockStart | .starting | .broadcasting => false

/-- How many workers the main thread has tried to create. -/
def attempted (W : Nat) : MainStage → Nat
  | .opening | .announcing => 0
  | .spawning i => i
  | .returned rc => if rc = 0 then W else 0
  | .pausing | .sleeping _ | .reading | .lockStart | .starting
  | .broadcasting | .unlockStart | .joining _ | .reporting => W

/-- How many workers the main thread has joined. -/
def joined (W : Nat) : MainStage → Nat
  | .joining i => i
  | .reporting => W
  | .returned rc => if rc = 0 then W else 0
  | .opening | .announcing | .spawning _ | .pausing | .sleeping _
  | .reading | .lockStart | .starting | .broadcasting
  | .unlockStart => 0

/-- What has been reported while the main thread runs. -/
def reportsThen (W K D : Nat) : MainStage → Option (List Emit)
  | .opening | .announcing => some []
  | .spawning _ | .pausing | .sleeping _ | .reading | .lockStart
  | .starting | .broadcasting | .unlockStart | .joining _
  | .reporting => some (herdPreamble W K D)
  | .returned _ => none

end MainStage

/-- A worker that was never created or has returned. -/
def WorkerStage.ended : WorkerStage → Bool
  | .absent | .returned => true
  | _ => false

section Phases

variable {W K D : Nat} {state next : State W} {w : Fin W}
variable {seen : List (Section W)}

/-- What the progress of the main thread says about the workers. -/
structure Phased (K D : Nat) (state : State W) : Prop where
  /-- `started` is set by the main thread. -/
  started : state.started = state.main.fired
  /-- Before the gun no worker has done anything. -/
  early : state.started = false →
    (∀ w, (state.workers w).early = true) ∧
      state.totalWait = 0 ∧ state.totalWork = 0
  /-- After the broadcast no worker waits for it. -/
  awake : state.main.awake = true → ∀ w, state.workers w ≠ .waiting
  /-- Workers are created in order. -/
  uncreated : ∀ w, state.main.attempted W ≤ w.val →
    state.workers w = .absent
  /-- Workers are joined in order. -/
  joined : ∀ w, w.val < state.main.joined W →
    (state.workers w).ended = true
  /-- The preamble is reported first. -/
  announced : ∀ reports,
    state.main.reportsThen W K D = some reports →
    state.reports = reports

/-- Nothing has been measured before the gun. -/
structure Untimed (stage : WorkerStage) : Prop where
  inTime : ∀ K D now t0, stage.InTime K D now t0
  loaded : ∀ totalWait totalWork, stage.Loaded totalWait totalWork
  inside : stage.inside = none
  pendingWait : stage.pendingWait = 0
  pendingWork : stage.pendingWork = 0
  syncs : ∀ K, stage.syncs K = 0
  accounted : ∀ now t0, stage.accounted now t0 = 0

/-- A worker before the gun has measured nothing. -/
theorem untimed_of_early
    {stage : WorkerStage}
    (early : stage.early = true) :
    Untimed stage := by
  cases stage with
  | absent | lockStart | checking | waiting | waking =>
      exact ⟨fun _ _ _ _ => trivial, fun _ _ => trivial, rfl, rfl, rfl,
        fun _ => rfl, fun _ _ => rfl⟩
  | _ =>
      exact absurd early (by simp [WorkerStage.early])

/-- Some workers went from one stage before the gun to another one. -/
def EarlyMoves (state next : State W) : Prop :=
  ∀ w, next.workers w = state.workers w ∨
    (state.workers w).early = true ∧ (next.workers w).early = true

/-- Such moves leave a sum of what untimed workers have nothing of. -/
theorem EarlyMoves.sum
    {weight : WorkerStage → Nat}
    (moves : EarlyMoves state next)
    (zero : ∀ stage, Untimed stage → weight stage = 0) :
    next.sum weight = state.sum weight := by
  refine Finset.sum_congr rfl fun w _ => ?_
  rcases moves w with same | ⟨before, after⟩
  · rw [same]
  · rw [zero _ (untimed_of_early before), zero _ (untimed_of_early after)]

/-- The times are kept by a step that moves no worker past the gun. -/
theorem Timed.of_earlyMoves
    (timed : Timed K D seen state)
    (moves : EarlyMoves state next)
    (now : next.now = state.now)
    (t0 : next.t0 = state.t0)
    (totalWait : next.totalWait = state.totalWait)
    (totalWork : next.totalWork = state.totalWork) :
    Timed K D seen next := by
  have works : next.sum WorkerStage.pendingWork =
      state.sum WorkerStage.pendingWork :=
    moves.sum fun _ untimed => untimed.pendingWork
  have waits : next.sum WorkerStage.pendingWait =
      state.sum WorkerStage.pendingWait :=
    moves.sum fun _ untimed => untimed.pendingWait
  constructor
  · rw [now, t0]
    exact timed.gun
  · intro w
    rw [now, t0]
    rcases moves w with same | ⟨_, after⟩
    · rw [same]
      exact timed.inTime w
    · exact (untimed_of_early after).inTime _ _ _ _
  · intro w
    rw [totalWait, totalWork]
    rcases moves w with same | ⟨_, after⟩
    · rw [same]
      exact timed.loaded w
    · exact (untimed_of_early after).loaded _ _
  · rw [now, t0]
    exact timed.inOrder
  · exact timed.turns
  · intro w tAcquired within
    rcases moves w with same | ⟨_, after⟩
    · rw [same] at within
      exact timed.inside w tAcquired within
    · rw [(untimed_of_early after).inside] at within
      exact absurd within (by simp)
  · rw [totalWait, waits]
    exact timed.waits
  · rw [totalWork, works]
    exact timed.works
  · intro w
    rcases moves w with same | ⟨before, after⟩
    · rw [same]
      exact timed.counted w
    · rw [timed.counted w, (untimed_of_early before).syncs,
        (untimed_of_early after).syncs]
  · intro w
    rw [now, t0]
    rcases moves w with same | ⟨before, after⟩
    · rw [same]
      exact timed.spent w
    · have none := timed.spent w
      rw [(untimed_of_early before).accounted] at none
      rw [(untimed_of_early after).accounted]
      exact none

/-- The times are kept while time passes. -/
theorem Timed.tick
    (timed : Timed K D seen state)
    (ns : Nat) :
    Timed K D seen { state with now := state.now + ns } := by
  have later : ∀ stage : WorkerStage,
      stage.InTime K D state.now state.t0 →
      stage.InTime K D (state.now + ns) state.t0 ∧
        stage.accounted state.now state.t0 ≤
          stage.accounted (state.now + ns) state.t0 := by
    intro stage inTime
    cases stage with
    | absent | lockStart | checking | waiting | waking | unlockStart =>
        exact ⟨trivial, Nat.le_refl 0⟩
    | _ =>
        simp only [WorkerStage.InTime, WorkerStage.accounted]
          at inTime ⊢
        omega
  refine
    { timed with
      gun := Nat.le_add_right_of_le timed.gun
      inTime := fun w => (later _ (timed.inTime w)).1
      inOrder := fun entry member => ?_
      spent := fun w => ?_ }
  · have inOrder := timed.inOrder entry member
    exact { inOrder with past := Nat.le_add_right_of_le inOrder.past }
  · exact Nat.le_trans (timed.spent w) (later _ (timed.inTime w)).2

/-- The times start when the gun goes off and nothing was measured. -/
theorem Timed.reading
    {main : MainStage}
    (timed : Timed K D seen state)
    (early : ∀ w, (state.workers w).early = true) :
    Timed K D seen { state with main := main, t0 := state.now } := by
  have untimed := fun w => untimed_of_early (early w)
  have nothing : seen = [] := by
    refine eq_nil_of_sectionsOf fun w => ?_
    rw [timed.counted w, (untimed w).syncs]
  subst nothing
  constructor
  · exact Nat.le_refl _
  · exact fun w => (untimed w).inTime _ _ _ _
  · exact fun w => (untimed w).loaded _ _
  · exact fun _ member => absurd member List.not_mem_nil
  · exact .nil
  · exact fun _ _ _ _ member => absurd member List.not_mem_nil
  · exact timed.waits
  · exact timed.works
  · exact timed.counted
  · exact fun w => Nat.zero_le _

/-- What the first loop of the main thread says about its progress. -/
theorem spawnHead_facts
    {W i : Nat}
    (bound : i ≤ W) :
    (MainStage.spawnHead W i).fired = false ∧
      (MainStage.spawnHead W i).awake = false ∧
      (MainStage.spawnHead W i).attempted W = i ∧
      (MainStage.spawnHead W i).joined W = 0 ∧
      (MainStage.spawnHead W i).holds = none ∧
      (∀ K D, (MainStage.spawnHead W i).reportsThen W K D =
        some (herdPreamble W K D)) ∧
      MainStage.spawnHead W i ≠ .returned 0 := by
  unfold MainStage.spawnHead
  split
  · exact ⟨rfl, rfl, rfl, rfl, rfl, fun _ _ => rfl, by simp⟩
  · rename_i done
    exact ⟨rfl, rfl, Nat.le_antisymm (Nat.le_of_not_lt done) bound, rfl,
      rfl, fun _ _ => rfl, by simp⟩

/-- What the second loop of the main thread says about its progress. -/
theorem joinHead_facts
    {W i : Nat}
    (bound : i ≤ W) :
    (MainStage.joinHead W i).fired = true ∧
      (MainStage.joinHead W i).awake = true ∧
      (MainStage.joinHead W i).attempted W = W ∧
      (MainStage.joinHead W i).joined W = i ∧
      (MainStage.joinHead W i).holds = none ∧
      (∀ K D, (MainStage.joinHead W i).reportsThen W K D =
        some (herdPreamble W K D)) ∧
      MainStage.joinHead W i ≠ .returned 0 := by
  unfold MainStage.joinHead
  split
  · exact ⟨rfl, rfl, rfl, rfl, rfl, fun _ _ => rfl, by simp⟩
  · rename_i done
    exact ⟨rfl, rfl, rfl, Nat.le_antisymm (Nat.le_of_not_lt done) bound,
      rfl, fun _ _ => rfl, by simp⟩

/-- The main thread goes on without touching its workers. -/
theorem Phased.advance
    (phased : Phased K D state)
    (workers : next.workers = state.workers)
    (started : next.started = state.started)
    (totalWait : next.totalWait = state.totalWait)
    (totalWork : next.totalWork = state.totalWork)
    (fired : next.main.fired = state.main.fired)
    (awake : next.main.awake = state.main.awake)
    (attempted : state.main.attempted W ≤ next.main.attempted W)
    (joined : ∀ w, w.val < next.main.joined W →
      w.val < state.main.joined W ∨ (state.workers w).ended = true)
    (announced : ∀ reports,
      next.main.reportsThen W K D = some reports →
      next.reports = reports) :
    Phased K D next := by
  refine ⟨?_, fun notYet => ?_, fun past w => ?_, fun w beyond => ?_,
    fun w below => ?_, announced⟩
  · rw [started, fired]
    exact phased.started
  · rw [workers, totalWait, totalWork]
    exact phased.early (started.symm.trans notYet)
  · rw [workers]
    exact phased.awake (awake.symm.trans past) w
  · rw [workers]
    exact phased.uncreated w (Nat.le_trans attempted beyond)
  · rw [workers]
    rcases joined w below with before | ended
    · exact phased.joined w before
    · exact ended

/-- A worker's step leaves the phases as they are. -/
theorem Phased.worker
    {effect : Effect}
    {stage : WorkerStage}
    (phased : Phased K D state)
    (move : state.MovesTo K D w effect stage) :
    Phased K D ((state.setWorker w stage).apply w effect) := by
  have others : ∀ other, other ≠ w →
      ((state.setWorker w stage).apply w effect).workers other =
        state.workers other := by
    intro other different
    rw [apply_workers]
    exact Function.update_of_ne different _ _
  have self :
      ((state.setWorker w stage).apply w effect).workers w = stage := by
    rw [apply_workers]
    exact Function.update_self _ _ _
  have started :
      ((state.setWorker w stage).apply w effect).started =
        state.started :=
    apply_started _ _ _
  have main : ((state.setWorker w stage).apply w effect).main =
      state.main :=
    apply_main _ _ _
  have reports : ((state.setWorker w stage).apply w effect).reports =
      state.reports :=
    apply_reports _ _ _
  have lives : state.workers w ≠ .absent ∧
      (state.workers w).ended = false := by
    unfold State.MovesTo at move
    generalize state.workers w = before at move ⊢
    cases move <;> exact ⟨by simp, rfl⟩
  refine ⟨?_, fun notYet => ?_, fun past other => ?_,
    fun other beyond => ?_, fun other below => ?_,
    fun sofar still => ?_⟩
  · rw [started, main]
    exact phased.started
  · rw [started] at notYet
    obtain ⟨early, noWait, noWork⟩ := phased.early notYet
    have earlySelf := early w
    have stays : stage.early = true ∧
        effect.addsWait state.totalWait = 0 ∧
        effect.addsWork state.totalWork = 0 := by
      unfold State.MovesTo at move
      rw [notYet] at move
      generalize state.workers w = before at move earlySelf
      cases move with
      | lockStart | relock | wait =>
          exact ⟨rfl, rfl, rfl⟩
      | pass gun =>
          exact absurd gun (by simp)
      | enter | readBefore | lockMu | readAcquired | write | sync
      | readDone | unlockMu | lockTot | loadWait | storeWait | loadWork
      | storeWork | unlockTot =>
          exact absurd earlySelf (by simp [WorkerStage.early])
    refine ⟨fun other => ?_, ?_, ?_⟩
    · by_cases same : other = w
      · subst same
        rw [self]
        exact stays.1
      · rw [others other same]
        exact early other
    · rw [apply_totalWait]
      change state.totalWait + effect.addsWait state.totalWait = 0
      rw [stays.2.1, noWait]
      rfl
    · rw [apply_totalWork]
      change state.totalWork + effect.addsWork state.totalWork = 0
      rw [stays.2.2, noWork]
      rfl
  · rw [main] at past
    by_cases same : other = w
    · subst same
      rw [self]
      rintro rfl
      have gun : state.started = true := by
        rw [phased.started]
        revert past
        cases state.main <;> simp [MainStage.awake, MainStage.fired]
      unfold State.MovesTo at move
      rw [gun] at move
      generalize state.workers other = before at move
      generalize loop : WorkerStage.waiting = after at move
      have noLoop : ∀ i, WorkerStage.waiting ≠ WorkerStage.loopHead K i := by
        intro i
        unfold WorkerStage.loopHead
        split <;> simp
      cases move with
      | wait noGun =>
          exact absurd noGun (by simp)
      | enter =>
          exact noLoop 0 loop
      | unlockTot i =>
          exact noLoop (i + 1) loop
      | lockStart | relock | pass | readBefore | lockMu | readAcquired
      | write | sync | readDone | unlockMu | lockTot | loadWait
      | storeWait | loadWork | storeWork =>
          exact absurd loop (by simp)
    · rw [others other same]
      exact phased.awake past other
  · rw [main] at beyond
    by_cases same : other = w
    · subst same
      exact absurd (phased.uncreated other beyond) lives.1
    · rw [others other same]
      exact phased.uncreated other beyond
  · rw [main] at below
    by_cases same : other = w
    · subst same
      have ended := phased.joined other below
      rw [lives.2] at ended
      exact absurd ended (by simp)
    · rw [others other same]
      exact phased.joined other below
  · rw [main] at still
    rw [reports]
    exact phased.announced sofar still

end Phases

section Runs

variable {W K D : Nat} {state next : State W} {w : Fin W}
variable {seen : List (Section W)}

/--
What the critical sections of a run and its totals show at a report made at
the time `reportedAt`.
-/
structure Serialised
    (K D reportedAt : Nat)
    (seen : List (Section W))
    (state : State W) : Prop where
  /-- Every worker that was created went through `K` critical sections. -/
  iterations : ∀ w, (sectionsOf w seen).length =
    if state.workers w = .absent then 0 else K
  /-- Each has a whole sync in it and lies between the gun and the report. -/
  inOrder : ∀ entry ∈ seen, entry.times.InOrder D state.t0 reportedAt
  /-- They took turns. -/
  turns : seen.Pairwise fun first second =>
    first.times.tDone ≤ second.times.tAcquired
  /-- The total of the waiting is that of all iterations. -/
  waits : state.totalWait = (total Times.wait seen : Int)
  /-- The total of the work is that of all iterations. -/
  works : state.totalWork = (total Times.work seen : Int)
  /-- The work fits into the wall time. -/
  serial : state.totalWork ≤ (reportedAt - state.t0 : Int)
  /-- So does what each worker has waited and worked. -/
  perWorker : ∀ w,
    ((sectionsOf w seen).map fun times => times.wait + times.work).sum +
      state.t0 ≤ reportedAt

/-- What a state that has reported has reported. -/
def Reported
    (K D : Nat)
    (seen : List (Section W))
    (state : State W) : Prop :=
  state.main = .returned 0 →
    ∃ reportedAt ≤ state.now,
      state.reports =
          herdPreamble W K D ++
            herdReport W K D (reportedAt - state.t0 : Int)
              state.totalWait state.totalWork ∧
        Serialised K D reportedAt seen state

/-- What holds in every state of the scenario. -/
structure Sound
    (K D : Nat)
    (seen : List (Section W))
    (state : State W) : Prop where
  owned : Owned state
  timed : Timed K D seen state
  phased : Phased K D state
  reported : Reported K D seen state

/-- Owners stay right when nobody takes or gives back a mutex. -/
theorem Owned.of_eq
    (owned : Owned state)
    (owner : next.owner = state.owner)
    (holds : ∀ thread, holdsOf next thread = holdsOf state thread) :
    Owned next := by
  unfold Owned
  rw [owner, funext holds]
  exact owned

/-- Only what the main thread holds has changed. -/
theorem Owned.of_main
    (state : State W)
    (workers : next.workers = state.workers)
    (agree : Locks.Agree next.owner
      (Function.update (holdsOf state) .main next.main.holds)) :
    Owned next := by
  have same : holdsOf next =
      Function.update (holdsOf state) .main next.main.holds := by
    funext thread
    cases thread with
    | main =>
        rw [Function.update_self]
        rfl
    | worker w =>
        rw [Function.update_of_ne (by simp)]
        change (next.workers w).holds = (state.workers w).holds
        rw [workers]
  unfold Owned
  rw [same]
  exact agree

/-- The main thread goes on holding what it held. -/
theorem holdsOf_eq
    (workers : next.workers = state.workers)
    (holds : next.main.holds = state.main.holds)
    (thread : Thread W) :
    holdsOf next thread = holdsOf state thread := by
  cases thread with
  | main =>
      exact holds
  | worker w =>
      change (next.workers w).holds = (state.workers w).holds
      rw [workers]

/-- A step that moves nobody past the gun and touches no mutex. -/
theorem Sound.of_earlyMoves
    (sound : Sound K D seen state)
    (moves : EarlyMoves state next)
    (now : next.now = state.now)
    (t0 : next.t0 = state.t0)
    (totalWait : next.totalWait = state.totalWait)
    (totalWork : next.totalWork = state.totalWork)
    (owner : next.owner = state.owner)
    (holds : ∀ thread, holdsOf next thread = holdsOf state thread)
    (unreported : next.main ≠ .returned 0)
    (phased : Phased K D next) :
    Sound K D seen next :=
  ⟨sound.owned.of_eq owner holds,
    sound.timed.of_earlyMoves moves now t0 totalWait totalWork, phased,
    fun returned => absurd returned unreported⟩

/-- The main thread goes on without a mutex and without a report. -/
theorem Sound.advance
    {main : MainStage}
    {reports : List Emit}
    (sound : Sound K D seen state)
    (holds : main.holds = state.main.holds)
    (unreported : main ≠ .returned 0)
    (phased : Phased K D { state with main := main, reports := reports }) :
    Sound K D seen { state with main := main, reports := reports } :=
  sound.of_earlyMoves (fun _ => Or.inl rfl) rfl rfl rfl rfl rfl
    (holdsOf_eq rfl holds) unreported phased

/-- A worker that has ended was never created or has returned. -/
theorem absent_or_returned
    (ended : ∀ w, (state.workers w).ended = true)
    (w : Fin W) :
    state.workers w = .absent ∨ state.workers w = .returned := by
  have ends := ended w
  revert ends
  cases state.workers w <;> simp [WorkerStage.ended]

/-- Critical sections that take turns fit between a beginning and an end. -/
theorem total_work_le
    {first last : Nat}
    (ordered : first ≤ last)
    (within : ∀ entry ∈ seen, first ≤ entry.times.tAcquired ∧
      entry.times.tAcquired ≤ entry.times.tDone ∧ entry.times.tDone ≤ last)
    (turns : seen.Pairwise fun first second =>
      first.times.tDone ≤ second.times.tAcquired) :
    total Times.work seen + first ≤ last := by
  induction seen generalizing first with
  | nil =>
      simpa [total] using ordered
  | cons entry rest inductionHypothesis =>
      obtain ⟨before, turnsRest⟩ := List.pairwise_cons.mp turns
      obtain ⟨starts, works, ends⟩ := within entry List.mem_cons_self
      have later := inductionHypothesis ends
        (fun other among =>
          ⟨before other among, (within other (List.mem_cons_of_mem _ among)).2⟩)
        turnsRest
      have split : total Times.work (entry :: rest) =
          entry.times.work + total Times.work rest :=
        List.sum_cons
      rw [split, Times.work]
      omega

/-- When all workers have ended, the sections and the totals agree. -/
theorem Sound.serialised
    (sound : Sound K D seen state)
    (ended : ∀ w, (state.workers w).ended = true) :
    Serialised K D state.now seen state := by
  have shape := absent_or_returned ended
  have timed := sound.timed
  have works : state.sum WorkerStage.pendingWork = 0 := by
    refine sum_eq_zero fun w => ?_
    rcases shape w with absent | returned
    · rw [absent]
      rfl
    · rw [returned]
      rfl
  have waits : state.sum WorkerStage.pendingWait = 0 := by
    refine sum_eq_zero fun w => ?_
    rcases shape w with absent | returned
    · rw [absent]
      rfl
    · rw [returned]
      rfl
  have totalWait := timed.waits
  have totalWork := timed.works
  rw [waits] at totalWait
  rw [works] at totalWork
  have fits := total_work_le timed.gun
    (fun entry member =>
      have inOrder := timed.inOrder entry member
      ⟨Nat.le_trans inOrder.gun inOrder.waited,
        Nat.le_of_add_right_le inOrder.synced, inOrder.past⟩)
    timed.turns
  have gun := timed.gun
  refine ⟨fun w => ?_, timed.inOrder, timed.turns, by omega, by omega,
    by omega, fun w => ?_⟩
  · rw [timed.counted w]
    rcases shape w with absent | returned
    · rw [absent]
      rfl
    · rw [returned]
      rfl
  · have spent := timed.spent w
    rcases shape w with absent | returned
    · rw [absent] at spent
      simp only [WorkerStage.accounted] at spent
      omega
    · rw [returned] at spent
      simp only [WorkerStage.accounted] at spent
      omega

/-- The main thread creates a worker. -/
theorem Sound.spawn
    {i : Nat}
    (sound : Sound K D seen state)
    (shape : state.main = .spawning i)
    (inside : i < W) :
    Sound K D seen
      { state.setWorker ⟨i, inside⟩ .lockStart with
        main := MainStage.spawnHead W (i + 1) } := by
  have phased := sound.phased
  have sofar := phased.announced
  have fired := phased.started
  have uncreated := phased.uncreated
  rw [shape] at sofar fired uncreated
  obtain ⟨fired', awake', attempted, joined', holds, reports,
    unreported⟩ := spawnHead_facts (Nat.succ_le_of_lt inside)
  have absent : state.workers ⟨i, inside⟩ = .absent :=
    uncreated ⟨i, inside⟩ (Nat.le_refl i)
  have self : Function.update state.workers ⟨i, inside⟩ .lockStart
      ⟨i, inside⟩ = .lockStart :=
    Function.update_self _ _ _
  have others : ∀ w, w ≠ ⟨i, inside⟩ →
      Function.update state.workers ⟨i, inside⟩ .lockStart w =
        state.workers w :=
    fun w different => Function.update_of_ne different _ _
  obtain ⟨early, noWait, noWork⟩ := phased.early fired
  have still : ∀ w,
      (Function.update state.workers ⟨i, inside⟩ .lockStart w).early =
        true := by
    intro w
    by_cases same : w = ⟨i, inside⟩
    · rw [same, self]
      rfl
    · rw [others w same]
      exact early w
  refine sound.of_earlyMoves (fun w => Or.inr ⟨early w, still w⟩)
    rfl rfl rfl rfl rfl (fun thread => ?_) unreported
    ⟨fired.trans fired'.symm, fun _ => ⟨still, noWait, noWork⟩,
      fun past => absurd past (by simp [awake']), fun w beyond => ?_,
      fun w below => absurd below (by simp [joined']),
      fun soon then_ => ?_⟩
  · cases thread with
    | main =>
        change (MainStage.spawnHead W (i + 1)).holds = state.main.holds
        rw [holds, shape]
        rfl
    | worker w =>
        change (Function.update state.workers ⟨i, inside⟩
          .lockStart w).holds = (state.workers w).holds
        by_cases same : w = ⟨i, inside⟩
        · rw [same, self, absent]
          rfl
        · rw [others w same]
  · rw [attempted] at beyond
    have different : w ≠ ⟨i, inside⟩ := by
      rintro rfl
      exact absurd beyond (Nat.not_succ_le_self i)
    change Function.update state.workers ⟨i, inside⟩ .lockStart w =
      .absent
    rw [others w different]
    exact uncreated w (Nat.le_of_succ_le beyond)
  · rw [reports K D] at then_
    exact sofar soon then_

/-- `pthread_cond_broadcast` wakes whoever waits. -/
theorem Sound.broadcast
    (sound : Sound K D seen state)
    (shape : state.main = .broadcasting) :
    Sound K D seen
      { state with
        main := .unlockStart
        workers := fun w => State.woken (state.workers w) } := by
  have phased := sound.phased
  have sofar := phased.announced
  have fired := phased.started
  rw [shape] at sofar fired
  have wakes : ∀ stage,
      (State.woken stage = stage ∧ stage ≠ .waiting) ∨
        stage = .waiting ∧ State.woken stage = .waking := by
    intro stage
    cases stage <;> simp [State.woken]
  refine sound.of_earlyMoves (fun w => ?_) rfl rfl rfl rfl rfl
    (fun thread => ?_) (by simp)
    ⟨fired, fun notYet => ?_, fun _ w => ?_, fun w beyond => ?_,
      fun w below => absurd below (Nat.not_lt_zero _), sofar⟩
  · rcases wakes (state.workers w) with ⟨same, _⟩ | ⟨before, after⟩
    · exact Or.inl same
    · refine Or.inr ⟨?_, ?_⟩
      · rw [before]
        rfl
      · change (State.woken (state.workers w)).early = true
        rw [after]
        rfl
  · cases thread with
    | main =>
        change some Mutex.startMu = state.main.holds
        rw [shape]
        rfl
    | worker w =>
        change (State.woken (state.workers w)).holds = (state.workers w).holds
        rcases wakes (state.workers w) with ⟨same, _⟩ | ⟨before, after⟩
        · rw [same]
        · rw [after, before]
          rfl
  · exact absurd (fired.symm.trans notYet) (by simp [MainStage.fired])
  · change State.woken (state.workers w) ≠ .waiting
    rcases wakes (state.workers w) with ⟨same, awake⟩ | ⟨_, after⟩
    · rw [same]
      exact awake
    · rw [after]
      simp
  · change W ≤ w.val at beyond
    exact absurd beyond (Nat.not_le_of_lt w.isLt)

/-- What a step of the main thread keeps. -/
theorem Sound.mainStep
    {succeeds : Bool}
    (sound : Sound K D seen state)
    (taken : state.mainStep? K D succeeds = some next) :
    Sound K D seen next := by
  have phased := sound.phased
  have sofar := phased.announced
  have fired := phased.started
  have joined := phased.joined
  unfold State.mainStep? at taken
  cases shape : state.main with
  | opening =>
      rw [shape] at sofar
      simp only [shape] at taken
      split at taken
      · simp only [Option.some.injEq] at taken
        subst taken
        exact sound.advance (by rw [shape]; rfl) (by simp)
          (phased.advance rfl rfl rfl rfl (by rw [shape]; rfl)
            (by rw [shape]; rfl) (by rw [shape]; exact Nat.le_refl 0)
            (fun w below => absurd below (Nat.not_lt_zero _)) sofar)
      · simp only [Option.some.injEq] at taken
        subst taken
        exact sound.advance (by rw [shape]; rfl) (by simp)
          (phased.advance rfl rfl rfl rfl (by rw [shape]; rfl)
            (by rw [shape]; rfl) (by rw [shape]; exact Nat.le_refl 0)
            (fun w below => absurd below (Nat.not_lt_zero _))
            (fun reports then_ => absurd then_
              (by simp [MainStage.reportsThen])))
  | announcing =>
      rw [shape] at sofar
      simp only [shape, Option.some.injEq] at taken
      subst taken
      obtain ⟨fired', awake', attempted, joined', holds, reports,
        unreported⟩ := spawnHead_facts (Nat.zero_le W)
      refine sound.advance (by rw [shape]; exact holds) unreported
        (phased.advance rfl rfl rfl rfl (by rw [shape]; exact fired')
          (by rw [shape]; exact awake')
          (by rw [shape]; exact Nat.zero_le _)
          (fun w below => absurd below (by simp [joined'])) ?_)
      intro soon then_
      rw [reports K D] at then_
      rw [sofar [] rfl, List.nil_append]
      exact Option.some.inj then_
  | spawning i =>
      rw [shape] at sofar fired
      simp only [shape] at taken
      split at taken
      · rename_i inside
        simp only [Option.some.injEq] at taken
        obtain ⟨fired', awake', attempted, joined', holds, reports,
          unreported⟩ := spawnHead_facts inside
        have uncreated := phased.uncreated
        rw [shape] at uncreated
        have soon : ∀ reports,
            (MainStage.spawnHead W (i + 1)).reportsThen W K D =
              some reports → state.reports = reports := by
          intro soon then_
          rw [reports K D] at then_
          exact sofar soon then_
        cases succeeds with
        | false =>
            subst taken
            exact sound.advance (by rw [shape]; exact holds) unreported
              (phased.advance rfl rfl rfl rfl (by rw [shape]; exact fired')
                (by rw [shape]; exact awake')
                (by
                  rw [shape, attempted]
                  exact Nat.le_succ i)
                (fun w below => absurd below (by simp [joined'])) soon)
        | true =>
            subst taken
            exact sound.spawn shape inside
      · exact absurd taken (by simp)
  | pausing =>
      rw [shape] at sofar
      simp only [shape, Option.some.injEq] at taken
      subst taken
      exact sound.advance (by rw [shape]; rfl) (by simp)
        (phased.advance rfl rfl rfl rfl (by rw [shape]; rfl)
          (by rw [shape]; rfl) (by rw [shape]; exact Nat.le_refl W)
          (fun w below => absurd below (Nat.not_lt_zero _)) sofar)
  | sleeping wakeAt =>
      rw [shape] at sofar
      simp only [shape] at taken
      split at taken
      · simp only [Option.some.injEq] at taken
        subst taken
        exact sound.advance (by rw [shape]; rfl) (by simp)
          (phased.advance rfl rfl rfl rfl (by rw [shape]; rfl)
            (by rw [shape]; rfl) (by rw [shape]; exact Nat.le_refl W)
            (fun w below => absurd below (Nat.not_lt_zero _)) sofar)
      · exact absurd taken (by simp)
  | reading =>
      rw [shape] at sofar fired
      simp only [shape, Option.some.injEq] at taken
      subst taken
      exact ⟨sound.owned.of_eq rfl
          (holdsOf_eq rfl (by rw [shape]; rfl)),
        sound.timed.reading (phased.early fired).1,
        phased.advance rfl rfl rfl rfl (by rw [shape]; rfl)
          (by rw [shape]; rfl) (by rw [shape]; exact Nat.le_refl W)
          (fun w below => absurd below (Nat.not_lt_zero _)) sofar,
        fun returned => absurd returned (by simp)⟩
  | lockStart =>
      rw [shape] at sofar
      simp only [shape] at taken
      split at taken
      · rename_i free
        simp only [Option.some.injEq] at taken
        subst taken
        have empty : holdsOf state .main = none := by
          rw [holdsOf, shape]
          rfl
        exact ⟨Owned.of_main state rfl (Locks.Agree.take sound.owned free empty),
          sound.timed.of_earlyMoves (fun _ => Or.inl rfl) rfl rfl rfl rfl,
          phased.advance rfl rfl rfl rfl (by rw [shape]; rfl)
            (by rw [shape]; rfl) (by rw [shape]; exact Nat.le_refl W)
            (fun w below => absurd below (Nat.not_lt_zero _)) sofar,
          fun returned => absurd returned (by simp)⟩
      · exact absurd taken (by simp)
  | starting =>
      rw [shape] at sofar
      simp only [shape, Option.some.injEq] at taken
      subst taken
      exact sound.of_earlyMoves (fun _ => Or.inl rfl) rfl rfl rfl rfl rfl
        (holdsOf_eq rfl (by rw [shape]; rfl)) (by simp)
        ⟨rfl, fun notYet => absurd notYet (by simp),
          fun past => absurd past (by simp [MainStage.awake]),
          fun w beyond => absurd beyond (Nat.not_le_of_lt w.isLt),
          fun w below => absurd below (Nat.not_lt_zero _), sofar⟩
  | broadcasting =>
      simp only [shape, Option.some.injEq] at taken
      subst taken
      exact sound.broadcast shape
  | unlockStart =>
      rw [shape] at sofar
      simp only [shape, Option.some.injEq] at taken
      subst taken
      obtain ⟨fired', awake', attempted, joined', holds, reports,
        unreported⟩ := joinHead_facts (Nat.zero_le W)
      have held : holdsOf state .main = some .startMu := by
        rw [holdsOf, shape]
        rfl
      refine ⟨Owned.of_main state rfl ?_,
        sound.timed.of_earlyMoves (fun _ => Or.inl rfl) rfl rfl rfl rfl,
        phased.advance rfl rfl rfl rfl (by rw [shape]; exact fired')
          (by rw [shape]; exact awake')
          (by rw [shape, attempted]; exact Nat.le_refl W)
          (fun w below => absurd below (by simp [joined'])) ?_,
        fun returned => absurd returned unreported⟩
      · rw [holds]
        exact Locks.Agree.give sound.owned held
      · intro soon then_
        rw [reports K D] at then_
        exact sofar soon then_
  | joining i =>
      rw [shape] at sofar
      simp only [shape] at taken
      split at taken
      · rename_i inside
        split at taken
        · rename_i ends
          simp only [Option.some.injEq] at taken
          subst taken
          obtain ⟨fired', awake', attempted, joined', holds, reports,
            unreported⟩ := joinHead_facts (Nat.succ_le_of_lt inside)
          refine sound.advance (by rw [shape]; exact holds) unreported
            (phased.advance rfl rfl rfl rfl (by rw [shape]; exact fired')
              (by rw [shape]; exact awake')
              (by rw [shape, attempted]; exact Nat.le_refl W)
              (fun w below => ?_) (fun soon then_ => ?_))
          · rw [joined'] at below
            rcases Nat.lt_succ_iff_lt_or_eq.mp below with less | equal
            · rw [shape]
              exact Or.inl less
            · right
              have self : w = ⟨i, inside⟩ := Fin.ext equal
              rw [self]
              rcases ends with absent | returned
              · rw [absent]
                rfl
              · rw [returned]
                rfl
          · rw [reports K D] at then_
            exact sofar soon then_
        · exact absurd taken (by simp)
      · exact absurd taken (by simp)
  | reporting =>
      rw [shape] at sofar joined
      simp only [shape, Option.some.injEq] at taken
      subst taken
      refine ⟨sound.owned.of_eq rfl (holdsOf_eq rfl (by rw [shape]; rfl)),
        sound.timed.of_earlyMoves (fun _ => Or.inl rfl) rfl rfl rfl rfl,
        phased.advance rfl rfl rfl rfl (by rw [shape]; rfl)
          (by rw [shape]; rfl) (by rw [shape]; exact Nat.le_refl W)
          (fun w _ => Or.inr (joined w w.isLt))
          (fun reports then_ => absurd then_
            (by simp [MainStage.reportsThen])),
        fun _ => ⟨state.now, Nat.le_refl _, ?_, ?_⟩⟩
      · change state.reports ++ _ = _
        rw [sofar _ rfl]
      · exact
          { sound.serialised fun w => joined w w.isLt with }
  | returned rc =>
      simp [shape] at taken

/-- A worker that moves has neither returned nor is it missing. -/
theorem not_ended_of_move
    {effect : Effect}
    {stage : WorkerStage}
    (move : state.MovesTo K D w effect stage) :
    (state.workers w).ended = false := by
  unfold State.MovesTo at move
  generalize state.workers w = before at move ⊢
  cases move <;> rfl

/-- What a step of a worker keeps. -/
theorem Sound.worker
    (sound : Sound K D seen state)
    (taken : state.workerStep? K D w = some next) :
    Sound K D (seen ++ state.closes (.worker w)) next := by
  obtain ⟨effect, stage, move, admits, rfl⟩ :=
    State.workerStep?_cases taken
  refine ⟨sound.owned.worker admits move.holds,
    sound.timed.worker sound.owned move, sound.phased.worker move,
    fun returned => ?_⟩
  rw [apply_main] at returned
  have below : w.val < state.main.joined W := by
    rw [show state.main = .returned 0 from returned]
    exact w.isLt
  have ended := sound.phased.joined w below
  rw [not_ended_of_move move] at ended
  exact absurd ended (by simp)

/-- What waking up for no reason keeps. -/
theorem Sound.wake
    (sound : Sound K D seen state)
    (waits : state.workers w = .waiting) :
    Sound K D seen (state.setWorker w .waking) := by
  have phased := sound.phased
  have asleep : state.main.awake = false := by
    refine Classical.byContradiction fun awake => ?_
    exact phased.awake (by simpa using awake) w waits
  have self : Function.update state.workers w .waking w = .waking :=
    Function.update_self _ _ _
  have others : ∀ other, other ≠ w →
      Function.update state.workers w .waking other =
        state.workers other :=
    fun other different => Function.update_of_ne different _ _
  refine sound.of_earlyMoves (fun other => ?_) rfl rfl rfl rfl rfl
    (fun thread => ?_) ?_
    ⟨phased.started, fun notYet => ?_, fun awake => ?_,
      fun other beyond => ?_, fun other below => ?_, phased.announced⟩
  · by_cases same : other = w
    · subst same
      refine Or.inr ⟨?_, ?_⟩
      · rw [waits]
        rfl
      · change (Function.update state.workers other .waking other).early =
          true
        rw [self]
        rfl
    · exact Or.inl (others other same)
  · cases thread with
    | main =>
        rfl
    | worker other =>
        change (Function.update state.workers w .waking other).holds =
          (state.workers other).holds
        by_cases same : other = w
        · subst same
          rw [self, waits]
          rfl
        · rw [others other same]
  · intro returned
    rw [show state.main = .returned 0 from returned] at asleep
    exact absurd asleep (by simp [MainStage.awake])
  · obtain ⟨early, noWait, noWork⟩ := phased.early notYet
    refine ⟨fun other => ?_, noWait, noWork⟩
    change (Function.update state.workers w .waking other).early = true
    by_cases same : other = w
    · subst same
      rw [self]
      rfl
    · rw [others other same]
      exact early other
  · exact absurd (asleep.symm.trans awake) (by simp)
  · change Function.update state.workers w .waking other = .absent
    have different : other ≠ w := by
      rintro rfl
      rw [phased.uncreated other beyond] at waits
      exact absurd waits (by simp)
    rw [others other different]
    exact phased.uncreated other beyond
  · change (Function.update state.workers w .waking other).ended = true
    have ended := phased.joined other below
    have different : other ≠ w := by
      rintro rfl
      rw [waits] at ended
      exact absurd ended (by simp [WorkerStage.ended])
    rw [others other different]
    exact ended

/-- What every step keeps. -/
theorem Sound.step
    {label : Label W}
    (sound : Sound K D seen state)
    (taken : state.step? K D label = some next) :
    Sound K D (seen ++ state.closes label) next := by
  cases label with
  | main succeeds =>
      rw [State.closes, List.append_nil]
      exact sound.mainStep taken
  | worker w =>
      exact sound.worker taken
  | wake w =>
      rw [State.closes, List.append_nil]
      simp only [State.step?] at taken
      split at taken
      · rename_i waits
        simp only [Option.some.injEq] at taken
        subst taken
        exact sound.wake waits
      · exact absurd taken (by simp)
  | tick ns =>
      rw [State.closes, List.append_nil]
      simp only [State.step?, Option.some.injEq] at taken
      subst taken
      refine ⟨sound.owned, sound.timed.tick ns,
        ⟨sound.phased.started, sound.phased.early, sound.phased.awake,
          sound.phased.uncreated, sound.phased.joined,
          sound.phased.announced⟩, fun returned => ?_⟩
      obtain ⟨reportedAt, past, reports, serialised⟩ :=
        sound.reported returned
      exact ⟨reportedAt, Nat.le_add_right_of_le past, reports,
        { serialised with }⟩

/-- The scenario starts so. -/
theorem sound_start (W K D now : Nat) :
    Sound K D [] (State.start W now) := by
  have untimed : ∀ w, Untimed ((State.start W now).workers w) :=
    fun w => untimed_of_early rfl
  refine ⟨fun thread mutex => ?_, ⟨Nat.zero_le now,
    fun w => (untimed w).inTime _ _ _ _, fun w => (untimed w).loaded _ _,
    fun _ member => absurd member List.not_mem_nil, .nil,
    fun _ _ _ _ member => absurd member List.not_mem_nil, ?_, ?_,
    fun w => ((untimed w).syncs K).symm, fun w => Nat.zero_le _⟩,
    ⟨rfl, fun _ => ⟨fun _ => rfl, rfl, rfl⟩,
      fun awake => absurd awake (by simp [State.start, MainStage.awake]),
      fun _ _ => rfl, fun w below => absurd below (Nat.not_lt_zero _),
      fun reports then_ => Option.some.inj then_⟩,
    fun returned => absurd returned (by simp [State.start])⟩
  · constructor
    · intro owned
      exact absurd owned (by simp [State.start])
    · intro held
      cases thread <;>
        exact absurd held (by simp [holdsOf, State.start, MainStage.holds,
          WorkerStage.holds])
  · rw [sum_eq_zero fun w => (untimed w).pendingWait]
    rfl
  · rw [sum_eq_zero fun w => (untimed w).pendingWork]
    rfl

/-- So it holds in every state that a run reaches, with what it went through. -/
theorem sound_of_run
    {now : Nat}
    {labels : List (Label W)}
    (ran : State.run? K D (State.start W now) labels = some state) :
    Sound K D (sections K D (State.start W now) labels) state :=
  Transition.run?_observed (Sound K D) (sound_start W K D now)
    (fun sound taken => sound.step taken) ran

/-- What the printed numbers obey when all workers were created. -/
structure PrintedSerialised
    (W K D : Nat)
    (dt totalWait totalWork : Int) : Prop where
  /-- The wall time is at least what was expected. -/
  wall : expectedMs W K D ≤ wallMs dt
  /-- The average work is at least the delay of a sync. -/
  work : (D : Int).tdiv 1000000 ≤ avgMs W K totalWork
  /-- As often as there were syncs, it fits into the wall time. -/
  serial : avgMs W K totalWork * ((W * K : Nat) : Int) ≤ wallMs dt
  /-- So do all iterations of one worker. -/
  perWorker :
    (avgMs W K totalWait + avgMs W K totalWork) * (K : Int) ≤ wallMs dt

/-- The workers' own critical sections are all there are. -/
theorem sum_sectionsOf
    (weight : Times → Nat)
    (seen : List (Section W)) :
    ∑ w, ((sectionsOf w seen).map weight).sum = total weight seen := by
  induction seen with
  | nil =>
      exact Finset.sum_const_zero
  | cons entry rest inductionHypothesis =>
      have own : ∀ w,
          ((sectionsOf w (entry :: rest)).map weight).sum =
            (if entry.worker = w then weight entry.times else 0) +
              ((sectionsOf w rest).map weight).sum := by
        intro w
        unfold sectionsOf
        by_cases same : entry.worker = w
        · simp [same]
        · simp [same]
      rw [Finset.sum_congr rfl fun w _ => own w, Finset.sum_add_distrib,
        inductionHypothesis, Finset.sum_ite_eq, if_pos (Finset.mem_univ _)]
      exact List.sum_cons.symm

/-- What the workers add up to when all of them were created. -/
theorem Serialised.sums
    {reportedAt : Nat}
    (serialised : Serialised K D reportedAt seen state)
    (created : ∀ w, state.workers w ≠ .absent) :
    ((D * (K * W) : Nat) : Int) ≤ state.totalWork ∧
      state.totalWait + state.totalWork ≤
        (W : Int) * (reportedAt - state.t0 : Int) := by
  have each : ∀ w, K * D ≤ ((sectionsOf w seen).map Times.work).sum := by
    intro w
    have often := serialised.iterations w
    rw [if_neg (created w)] at often
    have long : ∀ work ∈ (sectionsOf w seen).map Times.work, D ≤ work := by
      intro work among
      obtain ⟨times, own, rfl⟩ := List.mem_map.mp among
      obtain ⟨entry, member, rfl⟩ := List.mem_map.mp own
      have synced :=
        (serialised.inOrder entry (List.mem_of_mem_filter member)).synced
      rw [Times.work]
      omega
    have bound := List.card_nsmul_le_sum _ D long
    rwa [List.length_map, often, smul_eq_mul] at bound
  have all : W * (K * D) ≤ total Times.work seen := by
    rw [← sum_sectionsOf Times.work seen]
    calc
      W * (K * D) = ∑ _w : Fin W, K * D := by
        rw [Finset.sum_const, Finset.card_univ, Fintype.card_fin,
          smul_eq_mul]
      _ ≤ ∑ w, ((sectionsOf w seen).map Times.work).sum :=
        Finset.sum_le_sum fun w _ => each w
  have time : total Times.wait seen + total Times.work seen ≤
      W * (reportedAt - state.t0) := by
    calc
      total Times.wait seen + total Times.work seen
          = ∑ w, ((sectionsOf w seen).map
              fun times => times.wait + times.work).sum := by
        rw [← sum_sectionsOf Times.wait seen,
          ← sum_sectionsOf Times.work seen, ← Finset.sum_add_distrib]
        exact Finset.sum_congr rfl fun w _ => List.sum_map_add.symm
      _ ≤ ∑ _w : Fin W, (reportedAt - state.t0) :=
        Finset.sum_le_sum fun w _ =>
          Nat.le_sub_of_add_le (serialised.perWorker w)
      _ = W * (reportedAt - state.t0) := by
        rw [Finset.sum_const, Finset.card_univ, Fintype.card_fin,
          smul_eq_mul]
  have waits := serialised.waits
  have works := serialised.works
  have serial := serialised.serial
  constructor
  · rw [works, show D * (K * W) = W * (K * D) by ring]
    exact_mod_cast all
  · have gun : state.t0 ≤ reportedAt := by
      omega
    rw [waits, works, ← Int.ofNat_sub gun]
    exact_mod_cast time

/-- The divisions keep the order of what they divide. -/
theorem Serialised.printed
    {reportedAt : Nat}
    (serialised : Serialised K D reportedAt seen state)
    (created : ∀ w, state.workers w ≠ .absent)
    (some : 0 < W * K) :
    PrintedSerialised W K D (reportedAt - state.t0 : Int)
      state.totalWait state.totalWork := by
  obtain ⟨paid, spent⟩ := serialised.sums created
  have serial := serialised.serial
  have waits : 0 ≤ state.totalWait := by
    rw [serialised.waits]
    exact Int.natCast_nonneg _
  generalize (reportedAt - state.t0 : Int) = dt at serial spent ⊢
  generalize state.totalWait = totalWait at waits spent ⊢
  generalize state.totalWork = totalWork at paid serial spent ⊢
  have million : (0 : Int) < 1000000 := by
    decide
  have ops : (0 : Int) < ((W * K : Nat) : Int) := by
    exact_mod_cast some
  have work : 0 ≤ totalWork := Int.le_trans (Int.natCast_nonneg _) paid
  have wall : 0 ≤ dt := Int.le_trans work serial
  have paid' : (D : Int) * ((W * K : Nat) : Int) ≤ totalWork := by
    refine Int.le_trans (Int.le_of_eq ?_) paid
    push_cast
    ring
  have avg : ∀ total, 0 ≤ total →
      avgMs W K total = total / ((W * K : Nat) : Int) / 1000000 := by
    intro total nonneg
    unfold avgMs
    rw [Int.tdiv_eq_ediv_of_nonneg nonneg,
      Int.tdiv_eq_ediv_of_nonneg
        (Int.ediv_nonneg nonneg (Int.le_of_lt ops))]
  have avgMul : ∀ total, 0 ≤ total →
      avgMs W K total * 1000000 * ((W * K : Nat) : Int) ≤ total := by
    intro total nonneg
    rw [avg total nonneg]
    calc
      total / ((W * K : Nat) : Int) / 1000000 * 1000000 *
          ((W * K : Nat) : Int)
          ≤ total / ((W * K : Nat) : Int) * ((W * K : Nat) : Int) :=
        Int.mul_le_mul_of_nonneg_right
          (Int.ediv_mul_le _ (by decide)) (Int.le_of_lt ops)
      _ ≤ total := Int.ediv_mul_le _ (Int.ne_of_gt ops)
  have wallEq : wallMs dt = dt / 1000000 :=
    Int.tdiv_eq_ediv_of_nonneg wall
  refine ⟨?_, ?_, ?_, ?_⟩
  · rw [wallEq, expectedMs,
      Int.tdiv_eq_ediv_of_nonneg (Int.natCast_nonneg _)]
    refine Int.ediv_le_ediv million
      (Int.le_trans (Int.le_of_eq ?_) (Int.le_trans paid' serial))
    push_cast
    ring
  · rw [avg _ work, Int.tdiv_eq_ediv_of_nonneg (Int.natCast_nonneg D)]
    exact Int.ediv_le_ediv million
      ((Int.le_ediv_iff_mul_le ops).mpr paid')
  · rw [wallEq, Int.le_ediv_iff_mul_le million]
    have product := avgMul _ work
    calc
      avgMs W K totalWork * ((W * K : Nat) : Int) * 1000000
          = avgMs W K totalWork * 1000000 * ((W * K : Nat) : Int) := by
        ring
      _ ≤ dt := Int.le_trans product serial
  · rw [wallEq, Int.le_ediv_iff_mul_le million]
    have one : (0 : Int) < (W : Int) := by
      exact_mod_cast Nat.pos_of_mul_pos_right some
    refine Int.le_of_mul_le_mul_left ?_ one
    have first := avgMul _ waits
    have second := avgMul _ work
    calc
      (W : Int) * ((avgMs W K totalWait + avgMs W K totalWork) * K *
          1000000)
          = avgMs W K totalWait * 1000000 * ((W * K : Nat) : Int) +
            avgMs W K totalWork * 1000000 * ((W * K : Nat) : Int) := by
        push_cast
        ring
      _ ≤ totalWait + totalWork := Int.add_le_add first second
      _ ≤ (W : Int) * dt := spent

/--
In every run that reports, the wall time covers all critical sections one
after the other and each of them its sync, the totals are the sums over them,
and no worker waited and worked for longer; with all workers created the
printed milliseconds show it.
-/
theorem herd_report_serialised
    {now : Nat}
    {labels : List (Label W)}
    (ran : State.run? K D (State.start W now) labels = some state)
    (returned : state.main = .returned 0) :
    ∃ reportedAt ≤ state.now,
      state.reports =
          herdPreamble W K D ++
            herdReport W K D (reportedAt - state.t0 : Int)
              state.totalWait state.totalWork ∧
        Serialised K D reportedAt
          (sections K D (State.start W now) labels) state ∧
        ((∀ w, state.workers w ≠ .absent) → 0 < W * K →
          PrintedSerialised W K D (reportedAt - state.t0 : Int)
            state.totalWait state.totalWork) := by
  obtain ⟨reportedAt, past, reports, serialised⟩ :=
    (sound_of_run ran).reported returned
  exact ⟨reportedAt, past, reports, serialised,
    fun created some => serialised.printed created some⟩

/--
The scenario itself: the first worker waits for the gun, the others come after
it, and then all of them line up for every sync.
-/
def wholeHerd : List (Label workers) :=
  let main (times : Nat) : List (Label workers) :=
    List.replicate times (.main true)
  let worker (w : Fin workers) (times : Nat) : List (Label workers) :=
    List.replicate times (.worker w)
  let all : List (Fin workers) :=
    List.finRange workers
  let syncs (after : Nat) : List (Label workers) :=
    all.flatMap fun w => worker w 3 ++ .tick fsyncDelay :: worker w after
  [main 11, (all.take 1).flatMap (worker · 2), [.tick 10000000], main 6,
    (all.take 1).flatMap (worker · 4), (all.drop 1).flatMap (worker · 4),
    (List.replicate (iters - 1) (syncs 10)).flatten, syncs 9,
    main 9].flatten

/-- Its report is serialised, on average 192 ms of waiting for 30 ms of work. -/
theorem herd_report_serialised_contended :
    ∃ state : State workers,
      State.run? iters fsyncDelay (State.start workers 0) wholeHerd =
          some state ∧
        state.totalWait = 9240000000 ∧ state.totalWork = 1440000000 ∧
        ∃ reportedAt ≤ state.now,
          state.reports =
              herdPreamble workers iters fsyncDelay ++
                herdReport workers iters fsyncDelay
                  (reportedAt - state.t0 : Int) 9240000000 1440000000 ∧
            Serialised iters fsyncDelay reportedAt
              (sections iters fsyncDelay (State.start workers 0) wholeHerd)
              state ∧
            PrintedSerialised workers iters fsyncDelay
              (reportedAt - state.t0 : Int) state.totalWait
              state.totalWork := by
  have finished :
      (State.run? iters fsyncDelay (State.start workers 0) wholeHerd).map
          (fun state => (state.main, state.totalWait, state.totalWork)) =
        some (.returned 0, 9240000000, 1440000000) := by
    decide +kernel
  have created :
      ∀ w,
        (State.run? iters fsyncDelay (State.start workers 0)
            wholeHerd).map (fun state => state.workers w) =
          some .returned := by
    decide +kernel
  obtain ⟨state, ran, shape⟩ := Option.map_eq_some_iff.mp finished
  simp only [Prod.mk.injEq] at shape
  obtain ⟨returned, waited, worked⟩ := shape
  obtain ⟨reportedAt, past, reports, serialised, printed⟩ :=
    herd_report_serialised ran returned
  have present (w : Fin workers) : state.workers w ≠ .absent := by
    have ended := created w
    rw [ran, Option.map_some, Option.some.injEq] at ended
    rw [ended]
    simp
  rw [waited, worked] at reports
  exact ⟨state, ran, waited, worked, reportedAt, past, reports, serialised,
    printed present (by decide)⟩

end Runs

end FailurePlayground.ThunderingHerd
