import FailurePlayground.HerdRun

namespace FailurePlayground.ThunderingHerd

/-!
# The herd gets through

No mutex is held by a thread that cannot go on, the broadcast misses nobody,
and sleeping threads need time only.  So whatever has happened so far, the
scenario can be run to its end.
-/

section Ranks

/-- How far a worker is from its end; sleeping is a step until it is due. -/
def WorkerStage.rank (K now : Nat) : WorkerStage → Nat
  | .absent | .waiting | .returned => 0
  | .lockStart | .waking => 14 * K + 3
  | .checking => 14 * K + 2
  | .unlockStart => 14 * K + 1
  | .looping i => 14 * (K - i)
  | .lockMu i _ => 14 * (K - i) - 1
  | .acquired i _ => 14 * (K - i) - 2
  | .writing i _ _ => 14 * (K - i) - 3
  | .syncing i _ _ wakeAt =>
      14 * (K - i) - (if wakeAt ≤ now then 5 else 4)
  | .synced i _ _ => 14 * (K - i) - 6
  | .unlockMu i _ => 14 * (K - i) - 7
  | .lockTot i _ => 14 * (K - i) - 8
  | .loadWait i _ => 14 * (K - i) - 9
  | .storeWait i _ _ => 14 * (K - i) - 10
  | .loadWork i _ => 14 * (K - i) - 11
  | .storeWork i _ _ => 14 * (K - i) - 12
  | .unlockTot i => 14 * (K - i) - 13

/-- How far the main thread is from its end. -/
def MainStage.rank (W now : Nat) : MainStage → Nat
  | .opening => 2 * W + 12
  | .announcing => 2 * W + 11
  | .spawning i => W + 10 + (W - i)
  | .pausing => W + 10
  | .sleeping wakeAt => W + 8 + (if wakeAt ≤ now then 0 else 1)
  | .reading => W + 7
  | .lockStart => W + 6
  | .starting => W + 5
  | .broadcasting => W + 4
  | .unlockStart => W + 3
  | .joining i => 1 + (W - i)
  | .reporting => 1
  | .returned _ => 0

/-- The mutex a worker is about to take. -/
def WorkerStage.wants : WorkerStage → Option Mutex
  | .lockStart | .waking => some .startMu
  | .lockMu _ _ => some .mu
  | .lockTot _ _ => some .totMu
  | _ => none

variable {K D now : Nat} {started : Bool} {totalWait totalWork : Int}
variable {stage later : WorkerStage} {effect : Effect}

/-- No worker is further from its end than one that starts. -/
theorem WorkerStage.rank_le (stage : WorkerStage) :
    stage.rank K now ≤ 14 * K + 3 := by
  cases stage <;> simp only [WorkerStage.rank] <;> omega

/-- A step brings a worker nearer to its end. -/
theorem Move.rank_lt
    {t0 : Nat}
    (move : Move K D now started totalWait totalWork stage effect later)
    (inTime : stage.InTime K D now t0) :
    later.rank K now < stage.rank K now := by
  cases move with
  | enter =>
      unfold WorkerStage.loopHead
      split <;> simp only [WorkerStage.rank] <;> omega
  | unlockTot i =>
      simp only [WorkerStage.InTime] at inTime
      unfold WorkerStage.loopHead
      split <;> simp only [WorkerStage.rank] <;> omega
  | sync i tBefore tAcquired wakeAt due =>
      simp only [WorkerStage.InTime] at inTime
      simp only [WorkerStage.rank, due, if_true]
      omega
  | write i tBefore tAcquired =>
      simp only [WorkerStage.InTime] at inTime
      simp only [WorkerStage.rank]
      split <;> omega
  | lockStart | relock | pass | wait | readBefore | lockMu | readAcquired
  | readDone | unlockMu | lockTot | loadWait | storeWait | loadWork
  | storeWork =>
      simp only [WorkerStage.InTime] at inTime
      simp only [WorkerStage.rank]
      omega

/-- A worker is no further from its end when time has passed. -/
theorem WorkerStage.rank_tick
    (stage : WorkerStage)
    (ns : Nat) :
    stage.rank K (now + ns) ≤ stage.rank K now := by
  cases stage with
  | syncing i tBefore tAcquired wakeAt =>
      simp only [WorkerStage.rank]
      split <;> split <;> omega
  | _ =>
      exact Nat.le_refl _

/-- The main thread is no further from its end when time has passed. -/
theorem MainStage.rank_tick
    {W : Nat}
    (main : MainStage)
    (ns : Nat) :
    main.rank W (now + ns) ≤ main.rank W now := by
  cases main with
  | sleeping wakeAt =>
      simp only [MainStage.rank]
      split <;> split <;> omega
  | _ =>
      exact Nat.le_refl _

end Ranks

section Blocked

variable {W K D : Nat} {state next : State W} {w : Fin W}

/-- A worker that cannot step is done, waits, or sleeps. -/
theorem workerStep?_eq_none
    (blocked : state.workerStep? K D w = none) :
    (state.workers w).ended = true ∨ state.workers w = .waiting ∨
      (∃ mutex, (state.workers w).wants = some mutex ∧
        state.owner mutex ≠ none) ∨
      (∃ i tBefore tAcquired wakeAt,
        state.workers w = .syncing i tBefore tAcquired wakeAt ∧
          state.now < wakeAt) := by
  have lock : ∀ {mutex stage},
      state.lock? mutex w stage = none → state.owner mutex ≠ none := by
    intro mutex stage refused free
    simp [State.lock?, free] at refused
  unfold State.workerStep? at blocked
  cases shape : state.workers w with
  | absent =>
      exact Or.inl rfl
  | returned =>
      exact Or.inl rfl
  | waiting =>
      exact Or.inr (Or.inl rfl)
  | lockStart =>
      simp only [shape] at blocked
      exact Or.inr (Or.inr (Or.inl ⟨_, rfl, lock blocked⟩))
  | waking =>
      simp only [shape] at blocked
      exact Or.inr (Or.inr (Or.inl ⟨_, rfl, lock blocked⟩))
  | lockMu i tBefore =>
      simp only [shape] at blocked
      exact Or.inr (Or.inr (Or.inl ⟨_, rfl, lock blocked⟩))
  | lockTot i times =>
      simp only [shape] at blocked
      exact Or.inr (Or.inr (Or.inl ⟨_, rfl, lock blocked⟩))
  | checking =>
      simp only [shape] at blocked
      split at blocked <;> exact absurd blocked (by simp)
  | syncing i tBefore tAcquired wakeAt =>
      simp only [shape] at blocked
      split at blocked
      · exact absurd blocked (by simp)
      · rename_i early
        exact Or.inr (Or.inr (Or.inr ⟨i, tBefore, tAcquired, wakeAt, rfl,
          Nat.lt_of_not_le early⟩))
  | unlockStart =>
      simp [shape] at blocked
  | looping i =>
      simp [shape] at blocked
  | acquired i tBefore =>
      simp [shape] at blocked
  | writing i tBefore tAcquired =>
      simp [shape] at blocked
  | synced i tBefore tAcquired =>
      simp [shape] at blocked
  | unlockMu i times =>
      simp [shape] at blocked
  | loadWait i times =>
      simp [shape] at blocked
  | storeWait i times loaded =>
      simp [shape] at blocked
  | loadWork i times =>
      simp [shape] at blocked
  | storeWork i times loaded =>
      simp [shape] at blocked
  | unlockTot i =>
      simp [shape] at blocked

/-- The loops of the main thread stay inside the arrays. -/
def MainStage.Inside (W : Nat) : MainStage → Prop
  | .spawning i | .joining i => i < W
  | _ => True

/-- The head of a loop is inside. -/
theorem inside_heads (W i : Nat) :
    (MainStage.spawnHead W i).Inside W ∧
      (MainStage.joinHead W i).Inside W := by
  unfold MainStage.spawnHead MainStage.joinHead
  by_cases more : i < W
  · simp [more, MainStage.Inside]
  · simp [more, MainStage.Inside]

/-- A step of the main thread brings it nearer to its end. -/
theorem mainStep?_rank_lt
    {succeeds : Bool}
    (taken : state.mainStep? K D succeeds = some next) :
    next.main.rank W next.now < state.main.rank W state.now ∧
      next.main.Inside W := by
  have spawn : ∀ i, (MainStage.spawnHead W i).rank W state.now ≤
      W + 10 + (W - i) := by
    intro i
    unfold MainStage.spawnHead
    split <;> simp only [MainStage.rank] <;> omega
  have join : ∀ i, (MainStage.joinHead W i).rank W state.now ≤
      1 + (W - i) := by
    intro i
    unfold MainStage.joinHead
    split <;> simp only [MainStage.rank] <;> omega
  unfold State.mainStep? at taken
  cases shape : state.main with
  | opening =>
      simp only [shape] at taken
      split at taken
      · simp only [Option.some.injEq] at taken
        subst taken
        exact ⟨by simp only [MainStage.rank]; omega, trivial⟩
      · simp only [Option.some.injEq] at taken
        subst taken
        exact ⟨by simp only [MainStage.rank]; omega, trivial⟩
  | announcing =>
      simp only [shape, Option.some.injEq] at taken
      subst taken
      refine ⟨?_, (inside_heads W 0).1⟩
      have bound := spawn 0
      simp only [MainStage.rank] at bound ⊢
      omega
  | spawning i =>
      simp only [shape] at taken
      split at taken
      · rename_i inside
        simp only [Option.some.injEq] at taken
        have bound := spawn (i + 1)
        subst taken
        cases succeeds with
        | true =>
            refine ⟨?_, (inside_heads W (i + 1)).1⟩
            change (MainStage.spawnHead W (i + 1)).rank W state.now <
              W + 10 + (W - i)
            omega
        | false =>
            refine ⟨?_, (inside_heads W (i + 1)).1⟩
            change (MainStage.spawnHead W (i + 1)).rank W state.now <
              W + 10 + (W - i)
            omega
      · exact absurd taken (by simp)
  | pausing =>
      simp only [shape, Option.some.injEq] at taken
      subst taken
      refine ⟨?_, trivial⟩
      simp only [MainStage.rank]
      split <;> omega
  | sleeping wakeAt =>
      simp only [shape] at taken
      split at taken
      · simp only [Option.some.injEq] at taken
        subst taken
        exact ⟨by simp only [MainStage.rank]; omega, trivial⟩
      · exact absurd taken (by simp)
  | reading =>
      simp only [shape, Option.some.injEq] at taken
      subst taken
      exact ⟨by simp only [MainStage.rank]; omega, trivial⟩
  | lockStart =>
      simp only [shape] at taken
      split at taken
      · simp only [Option.some.injEq] at taken
        subst taken
        exact ⟨by simp only [MainStage.rank]; omega, trivial⟩
      · exact absurd taken (by simp)
  | starting =>
      simp only [shape, Option.some.injEq] at taken
      subst taken
      exact ⟨by simp only [MainStage.rank]; omega, trivial⟩
  | broadcasting =>
      simp only [shape, Option.some.injEq] at taken
      subst taken
      exact ⟨by simp only [MainStage.rank]; omega, trivial⟩
  | unlockStart =>
      simp only [shape, Option.some.injEq] at taken
      subst taken
      refine ⟨?_, (inside_heads W 0).2⟩
      have bound := join 0
      change (MainStage.joinHead W 0).rank W state.now < W + 3
      omega
  | joining i =>
      simp only [shape] at taken
      split at taken
      · rename_i inside
        split at taken
        · simp only [Option.some.injEq] at taken
          subst taken
          refine ⟨?_, (inside_heads W (i + 1)).2⟩
          have bound := join (i + 1)
          change (MainStage.joinHead W (i + 1)).rank W state.now <
            1 + (W - i)
          omega
        · exact absurd taken (by simp)
      · exact absurd taken (by simp)
  | reporting =>
      simp only [shape, Option.some.injEq] at taken
      subst taken
      exact ⟨by simp only [MainStage.rank]; omega, trivial⟩
  | returned rc =>
      simp [shape] at taken

/-- A main thread that cannot step is done, sleeps, or waits for a worker. -/
theorem mainStep?_eq_none
    (inside : state.main.Inside W)
    (blocked : state.mainStep? K D true = none) :
    (∃ rc, state.main = .returned rc) ∨
      (∃ wakeAt, state.main = .sleeping wakeAt ∧ state.now < wakeAt) ∨
      (state.main = .lockStart ∧ state.owner .startMu ≠ none) ∨
      (∃ w : Fin W, state.main = .joining w ∧
        (state.workers w).ended = false) := by
  unfold State.mainStep? at blocked
  cases shape : state.main with
  | returned rc =>
      exact Or.inl ⟨rc, rfl⟩
  | sleeping wakeAt =>
      simp only [shape] at blocked
      split at blocked
      · exact absurd blocked (by simp)
      · rename_i early
        exact Or.inr (Or.inl ⟨wakeAt, rfl,
          Nat.lt_of_not_le fun due => early (Or.inl due)⟩)
  | lockStart =>
      simp only [shape] at blocked
      split at blocked
      · exact absurd blocked (by simp)
      · rename_i owned
        exact Or.inr (Or.inr (Or.inl ⟨rfl, owned⟩))
  | joining i =>
      rw [shape] at inside
      have bound : i < W := inside
      simp only [shape, bound, dif_pos] at blocked
      split at blocked
      · exact absurd blocked (by simp)
      · rename_i runs
        refine Or.inr (Or.inr (Or.inr ⟨⟨i, bound⟩, rfl, ?_⟩))
        revert runs
        cases state.workers ⟨i, bound⟩ <;> simp [WorkerStage.ended]
  | spawning i =>
      rw [shape] at inside
      have bound : i < W := inside
      simp [shape, bound] at blocked
  | opening =>
      simp [shape] at blocked
  | announcing =>
      simp [shape] at blocked
  | pausing =>
      simp [shape] at blocked
  | reading =>
      simp [shape] at blocked
  | starting =>
      simp [shape] at blocked
  | broadcasting =>
      simp [shape] at blocked
  | unlockStart =>
      simp [shape] at blocked
  | reporting =>
      simp [shape] at blocked

end Blocked

section Progress

variable {W K D : Nat} {state next : State W} {w : Fin W}
variable {seen : List (Section W)}

/-- How far the scenario is from its end. -/
def State.measure (K : Nat) (state : State W) : Nat :=
  (W * (14 * K + 3) + 1) * state.main.rank W state.now +
    state.sum (WorkerStage.rank K state.now)

/-- A step that needs no stray wake-up. -/
def Wakeless (label : Label W) : Prop :=
  ∀ w, label ≠ .wake w

/-- A step that brings the scenario nearer to its end. -/
def Nears (K D : Nat) (state : State W) : Prop :=
  ∃ label next, Wakeless label ∧ state.step? K D label = some next ∧
    next.measure K < state.measure K

/-- A worker's step does. -/
theorem nears_of_worker
    (sound : Sound K D seen state)
    (taken : state.workerStep? K D w = some next) :
    Nears K D state := by
  refine ⟨.worker w, next, fun _ => by simp, taken, ?_⟩
  obtain ⟨effect, stage, move, _, rfl⟩ := State.workerStep?_cases taken
  have lower := move.rank_lt (sound.timed.inTime w)
  have sums := sum_setWorker (WorkerStage.rank K state.now) state w stage
    effect
  unfold State.measure
  rw [apply_main, apply_now]
  change _ * state.main.rank W state.now +
    State.sum (WorkerStage.rank K state.now) _ < _
  omega

/-- A step of the main thread does. -/
theorem nears_of_main
    (taken : state.mainStep? K D true = some next) :
    Nears K D state := by
  refine ⟨.main true, next, fun _ => by simp, taken, ?_⟩
  have lower := (mainStep?_rank_lt taken).1
  have bound : next.sum (WorkerStage.rank K next.now) ≤
      W * (14 * K + 3) := by
    unfold State.sum
    calc
      ∑ w, (next.workers w).rank K next.now
          ≤ ∑ _w : Fin W, (14 * K + 3) :=
        Finset.sum_le_sum fun w _ => WorkerStage.rank_le _
      _ = W * (14 * K + 3) := by
        rw [Finset.sum_const, Finset.card_univ, Fintype.card_fin,
          smul_eq_mul]
  have product : (W * (14 * K + 3) + 1) * (next.main.rank W next.now + 1) ≤
      (W * (14 * K + 3) + 1) * state.main.rank W state.now :=
    Nat.mul_le_mul_left _ lower
  rw [Nat.mul_succ] at product
  unfold State.measure
  omega

/-- So does the time that a sleeping worker waits for. -/
theorem nears_of_syncing
    {i tBefore tAcquired wakeAt : Nat}
    (sleeps : state.workers w = .syncing i tBefore tAcquired wakeAt)
    (inTime : i < K)
    (early : state.now < wakeAt) :
    Nears K D state := by
  refine ⟨.tick (wakeAt - state.now), _, fun _ => by simp, rfl,
    ?_⟩
  have lower : state.sum
        (WorkerStage.rank K (state.now + (wakeAt - state.now))) <
      state.sum (WorkerStage.rank K state.now) := by
    refine Finset.sum_lt_sum
      (fun other _ => WorkerStage.rank_tick _ _) ⟨w, Finset.mem_univ w, ?_⟩
    have due : wakeAt ≤ state.now + (wakeAt - state.now) := by
      omega
    have notDue : ¬ wakeAt ≤ state.now := by
      omega
    rw [sleeps]
    simp only [WorkerStage.rank, due, notDue, if_true, if_false]
    omega
  have main : state.main.rank W (state.now + (wakeAt - state.now)) ≤
      state.main.rank W state.now :=
    MainStage.rank_tick _ _
  have product := Nat.mul_le_mul_left (W * (14 * K + 3) + 1) main
  unfold State.measure
  change _ * state.main.rank W (state.now + (wakeAt - state.now)) +
    state.sum (WorkerStage.rank K (state.now + (wakeAt - state.now))) < _
  omega

/-- So does the time that the main thread waits for. -/
theorem nears_of_sleeping
    {wakeAt : Nat}
    (sleeps : state.main = .sleeping wakeAt)
    (early : state.now < wakeAt) :
    Nears K D state := by
  refine ⟨.tick (wakeAt - state.now), _, fun _ => by simp, rfl,
    ?_⟩
  have sums : state.sum
        (WorkerStage.rank K (state.now + (wakeAt - state.now))) ≤
      state.sum (WorkerStage.rank K state.now) :=
    Finset.sum_le_sum fun other _ => WorkerStage.rank_tick _ _
  have lower : state.main.rank W (state.now + (wakeAt - state.now)) + 1 ≤
      state.main.rank W state.now := by
    have due : wakeAt ≤ state.now + (wakeAt - state.now) := by
      omega
    have notDue : ¬ wakeAt ≤ state.now := by
      omega
    rw [sleeps]
    simp only [MainStage.rank, due, notDue, if_true, if_false]
    omega
  have product := Nat.mul_le_mul_left (W * (14 * K + 3) + 1) lower
  rw [Nat.mul_succ] at product
  unfold State.measure
  change _ * state.main.rank W (state.now + (wakeAt - state.now)) +
    state.sum (WorkerStage.rank K (state.now + (wakeAt - state.now))) < _
  omega

/-- Whoever holds a mutex goes on, at most after a sleep. -/
theorem nears_of_holder
    {mutex : Mutex}
    (sound : Sound K D seen state)
    (held : (state.workers w).holds = some mutex) :
    Nears K D state := by
  cases taken : state.workerStep? K D w with
  | some next =>
      exact nears_of_worker sound taken
  | none =>
      rcases workerStep?_eq_none taken with
        ended | waits | ⟨other, wants, _⟩ |
          ⟨i, tBefore, tAcquired, wakeAt, sleeps, early⟩
      · revert held ended
        cases state.workers w <;>
          simp [WorkerStage.holds, WorkerStage.ended]
      · rw [waits] at held
        exact absurd held (by simp [WorkerStage.holds])
      · revert held wants
        cases state.workers w <;>
          simp [WorkerStage.holds, WorkerStage.wants]
      · have inTime := sound.timed.inTime w
        rw [sleeps] at inTime
        exact nears_of_syncing sleeps inTime.1 early

/-- A worker that is neither done nor asleep on the gun is not in the way. -/
theorem nears_of_running
    (sound : Sound K D seen state)
    (main : state.main.holds = none)
    (runs : (state.workers w).ended = false)
    (awake : state.workers w ≠ .waiting) :
    Nears K D state := by
  cases taken : state.workerStep? K D w with
  | some next =>
      exact nears_of_worker sound taken
  | none =>
      rcases workerStep?_eq_none taken with
        ended | waits | ⟨mutex, _, owned⟩ |
          ⟨i, tBefore, tAcquired, wakeAt, sleeps, early⟩
      · rw [runs] at ended
        exact absurd ended (by simp)
      · exact absurd waits awake
      · obtain ⟨thread, owns⟩ := Option.ne_none_iff_exists'.mp owned
        have held := (sound.owned thread mutex).mp owns
        cases thread with
        | main =>
            rw [holdsOf, main] at held
            exact absurd held (by simp)
        | worker other =>
            exact nears_of_holder sound held
      · have inTime := sound.timed.inTime w
        rw [sleeps] at inTime
        exact nears_of_syncing sleeps inTime.1 early

/-- Short of its end the scenario can always get nearer to it. -/
theorem nears_of_not_returned
    (sound : Sound K D seen state)
    (inside : state.main.Inside W)
    (runs : ∀ rc, state.main ≠ .returned rc) :
    Nears K D state := by
  cases taken : state.mainStep? K D true with
  | some next =>
      exact nears_of_main taken
  | none =>
      rcases mainStep?_eq_none inside taken with
        ⟨rc, returned⟩ | ⟨wakeAt, sleeps, early⟩ | ⟨locks, owned⟩ |
          ⟨w, joins, unfinished⟩
      · exact absurd returned (runs rc)
      · exact nears_of_sleeping sleeps early
      · obtain ⟨thread, owns⟩ := Option.ne_none_iff_exists'.mp owned
        have held := (sound.owned thread .startMu).mp owns
        cases thread with
        | main =>
            rw [holdsOf, locks] at held
            exact absurd held (by simp [MainStage.holds])
        | worker other =>
            exact nears_of_holder sound held
      · refine nears_of_running sound ?_ unfinished ?_
        · rw [joins]
          rfl
        · refine sound.phased.awake ?_ w
          rw [joins]
          rfl

/-- The loops of the main thread stay inside along a run. -/
theorem inside_step
    {label : Label W}
    (inside : state.main.Inside W)
    (taken : state.step? K D label = some next) :
    next.main.Inside W := by
  cases label with
  | main succeeds =>
      exact (mainStep?_rank_lt taken).2
  | worker w =>
      obtain ⟨effect, stage, _, _, rfl⟩ := State.workerStep?_cases taken
      rw [apply_main]
      exact inside
  | wake w =>
      simp only [State.step?] at taken
      split at taken
      · simp only [Option.some.injEq] at taken
        subst taken
        exact inside
      · exact absurd taken (by simp)
  | tick ns =>
      simp only [State.step?, Option.some.injEq] at taken
      subst taken
      exact inside

/-- The main thread creates a worker, wakes the waiting ones, or does neither. -/
theorem mainStep?_workers
    {succeeds : Bool}
    (taken : state.mainStep? K D succeeds = some next) :
    next.workers = state.workers ∨
      (∃ other, next.workers =
        Function.update state.workers other .lockStart) ∨
      next.workers = fun other => State.woken (state.workers other) := by
  unfold State.mainStep? at taken
  cases shape : state.main with
  | opening =>
      simp only [shape] at taken
      split at taken
      · simp only [Option.some.injEq] at taken
        subst taken
        exact Or.inl rfl
      · simp only [Option.some.injEq] at taken
        subst taken
        exact Or.inl rfl
  | spawning i =>
      simp only [shape] at taken
      split at taken
      · rename_i inside
        simp only [Option.some.injEq] at taken
        subst taken
        cases succeeds with
        | true =>
            exact Or.inr (Or.inl ⟨⟨i, inside⟩, rfl⟩)
        | false =>
            exact Or.inl rfl
      · exact absurd taken (by simp)
  | sleeping wakeAt =>
      simp only [shape] at taken
      split at taken
      · simp only [Option.some.injEq] at taken
        subst taken
        exact Or.inl rfl
      · exact absurd taken (by simp)
  | lockStart =>
      simp only [shape] at taken
      split at taken
      · simp only [Option.some.injEq] at taken
        subst taken
        exact Or.inl rfl
      · exact absurd taken (by simp)
  | joining i =>
      simp only [shape] at taken
      split at taken
      · split at taken
        · simp only [Option.some.injEq] at taken
          subst taken
          exact Or.inl rfl
        · exact absurd taken (by simp)
      · exact absurd taken (by simp)
  | broadcasting =>
      simp only [shape, Option.some.injEq] at taken
      subst taken
      exact Or.inr (Or.inr rfl)
  | announcing | pausing | reading | starting | unlockStart | reporting =>
      simp only [shape, Option.some.injEq] at taken
      subst taken
      exact Or.inl rfl
  | returned rc =>
      simp [shape] at taken

/-- A worker that was created stays so. -/
theorem created_step
    {label : Label W}
    (created : state.workers w ≠ .absent)
    (taken : state.step? K D label = some next) :
    next.workers w ≠ .absent := by
  have set : ∀ {other : Fin W} {stage : WorkerStage}, stage ≠ .absent →
      Function.update state.workers other stage w ≠ .absent := by
    intro other stage there
    by_cases same : w = other
    · subst same
      rwa [Function.update_self]
    · rwa [Function.update_of_ne same]
  cases label with
  | main succeeds =>
      rcases mainStep?_workers taken with same | ⟨other, spawned⟩ | woken
      · rwa [same]
      · rw [spawned]
        exact set (by simp)
      · rw [woken]
        revert created
        simp only
        cases state.workers w <;> simp [State.woken]
  | worker other =>
      obtain ⟨effect, stage, move, _, rfl⟩ := State.workerStep?_cases taken
      rw [apply_workers]
      refine set fun gone => ?_
      subst gone
      have loop : ∀ i, WorkerStage.loopHead K i ≠ .absent := by
        intro i
        unfold WorkerStage.loopHead
        split <;> simp
      unfold State.MovesTo at move
      generalize state.workers other = before at move
      generalize reached : WorkerStage.absent = after at move
      cases move with
      | enter | unlockTot =>
          exact loop _ reached.symm
      | _ =>
          exact absurd reached (by simp)
  | wake other =>
      simp only [State.step?] at taken
      split at taken
      · simp only [Option.some.injEq] at taken
        subst taken
        exact set (by simp)
      · exact absurd taken (by simp)
  | tick ns =>
      simp only [State.step?, Option.some.injEq] at taken
      subst taken
      exact created

/-- When `run` has returned, its workers have ended and its mutexes are free. -/
theorem Sound.rest
    {rc : Int}
    (sound : Sound K D seen state)
    (returned : state.main = .returned rc) :
    (∀ w, state.workers w ≠ .absent →
        state.workers w = .returned ∧
          (sectionsOf w seen).length = K) ∧
      ∀ mutex, state.owner mutex = none := by
  have ended : ∀ w, (state.workers w).ended = true := by
    intro w
    by_cases good : rc = 0
    · apply sound.phased.joined w
      rw [returned, good]
      exact w.isLt
    · have absent : state.workers w = .absent := by
        apply sound.phased.uncreated w
        rw [returned]
        simp [MainStage.attempted, good]
      rw [absent]
      rfl
  refine ⟨fun w created => ?_, fun mutex => ?_⟩
  · have back := (absent_or_returned ended w).resolve_left created
    refine ⟨back, ?_⟩
    rw [sound.timed.counted w, back]
    rfl
  refine Option.eq_none_iff_forall_ne_some.mpr fun thread owns => ?_
  have held := (sound.owned thread mutex).mp owns
  cases thread with
  | main =>
      rw [holdsOf, returned] at held
      exact absurd held (by simp [MainStage.holds])
  | worker w =>
      change (state.workers w).holds = some mutex at held
      rcases absent_or_returned ended w with absent | back
      · rw [absent] at held
        exact absurd held (by simp [WorkerStage.holds])
      · rw [back] at held
        exact absurd held (by simp [WorkerStage.holds])

/--
No lock is lost and nobody sleeps through the gun: whatever the threads have
done so far and in whatever order, the scenario can be run to its end without a
stray wake-up.  There every worker that was created has been through all its
critical sections, and every mutex is free.
-/
theorem herd_can_return
    {now : Nat}
    {labels : List (Label W)}
    (ran : State.run? K D (State.start W now) labels = some state) :
    ∃ later final rc,
      (∀ label ∈ later, Wakeless label) ∧
        State.run? K D state later = some final ∧
        final.main = .returned rc ∧
        (∀ w, state.workers w ≠ .absent → final.workers w ≠ .absent) ∧
        (∀ w, final.workers w ≠ .absent →
          final.workers w = .returned ∧
            (sectionsOf w
              (sections K D (State.start W now) (labels ++ later))).length =
                K) ∧
        ∀ mutex, final.owner mutex = none := by
  have inside : state.main.Inside W :=
    Transition.run?_invariant (fun inside taken => inside_step inside taken)
      ran trivial
  have progress : ∀ state : State W,
      ((∃ seen, Sound K D seen state) ∧ state.main.Inside W) →
      ¬ (∃ rc, state.main = .returned rc) →
      ∃ label next, Wakeless label ∧ state.step? K D label = some next ∧
        ((∃ seen, Sound K D seen next) ∧ next.main.Inside W) ∧
        ((∃ rc, next.main = .returned rc) ∨
          next.measure K < state.measure K) := by
    rintro state ⟨⟨seen, sound⟩, inside⟩ unfinished
    obtain ⟨label, next, wakeless, taken, lower⟩ :=
      nears_of_not_returned sound inside
        (fun rc returned => unfinished ⟨rc, returned⟩)
    exact ⟨label, next, wakeless, taken,
      ⟨⟨_, sound.step taken⟩, inside_step inside taken⟩, Or.inr lower⟩
  obtain ⟨later, final, wakeless, ranOn, _, rc, returned⟩ :=
    Transition.exists_chosen_run_to_goal (State.measure K) progress
      ⟨⟨_, sound_of_run ran⟩, inside⟩
  have whole :
      State.run? K D (State.start W now) (labels ++ later) = some final :=
    Transition.run?_append ran ranOn
  obtain ⟨ends, free⟩ := (sound_of_run whole).rest returned
  exact ⟨later, final, rc, wakeless, ranOn, returned,
    fun _ created => Transition.run?_invariant
      (fun created taken => created_step created taken) ranOn created,
    ends, free⟩

/-- So it can when a worker waits for the gun. -/
theorem herd_can_return_waiting :
    ∃ state : State workers,
      State.run? iters fsyncDelay (State.start workers 0)
          (wholeHerd.take 13) = some state ∧
        state.workers ⟨0, by decide⟩ = .waiting ∧
        ∃ later final rc,
          (∀ label ∈ later, Wakeless label) ∧
            State.run? iters fsyncDelay state later = some final ∧
            final.main = .returned rc ∧
            final.workers ⟨0, by decide⟩ = .returned := by
  have enabled :
      (State.run? iters fsyncDelay (State.start workers 0)
          (wholeHerd.take 13)).map
          (fun state => state.workers ⟨0, by decide⟩) =
        some .waiting := by
    decide +kernel
  obtain ⟨state, ran, waits⟩ := Option.map_eq_some_iff.mp enabled
  obtain ⟨later, final, rc, wakeless, ranOn, returned, still, ends, _⟩ :=
    herd_can_return ran
  have there : state.workers ⟨0, by decide⟩ ≠ .absent := by
    rw [waits]
    simp
  exact ⟨state, ran, waits, later, final, rc, wakeless, ranOn, returned,
    (ends _ (still _ there)).1⟩

end Progress

end FailurePlayground.ThunderingHerd
