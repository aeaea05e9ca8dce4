import Mathlib.Algebra.Order.BigOperators.Group.Finset
import Mathlib.Logic.Function.Basic
import FailurePlayground.EmitHelpers
import FailurePlayground.Lib.Numeral
import FailurePlayground.Lib.Parties
import FailurePlayground.Lib.Transition

namespace FailurePlayground.RaceCounter

/-!
# The lost-update race

The writers of `race_counter` load and store one counter without a lock, while
the main thread creates and joins them.  A step is one load, one store, or one
call of a thread; `sched_yield` only says where the next thread may step in,
which it may anywhere.
-/

/-- `WRITERS`. -/
def writers : Nat := 8

/-- `WRITES`. -/
def writes : Nat := 1000

/-- Where a thread stands in `writer_fn`. -/
inductive WriterStage where
  | absent
  | loading (i : Nat)
  | storing (i : Nat) (v : Int)
  | logging
  | returned
  deriving Repr, DecidableEq

/-- The loop of `writer_fn` before iteration `i`. -/
def WriterStage.loopHead (K i : Nat) : WriterStage :=
  if i < K then .loading i else .logging

/-- Where the main thread stands in `rc_run`. -/
inductive RcStage where
  | spawning (i : Nat)
  | announcing (i : Nat)
  | spawned
  | joining (i : Nat)
  | reporting
  | returned (rc : Int)
  deriving Repr, DecidableEq

namespace RcStage

/-- The first loop of `rc_run` before iteration `i`. -/
def spawnHead (W i : Nat) : RcStage :=
  if i < W then .spawning i else .spawned

/-- The second loop of `rc_run` before iteration `i`. -/
def joinHead (W i : Nat) : RcStage :=
  if i < W then .joining i else .reporting

end RcStage

/-- The counter, the threads, and what they reported; a `long` is unbounded. -/
structure State (W : Nat) where
  counter : Int
  writers : Fin W → WriterStage
  main : RcStage
  reports : List Emit

/-- A step of the main thread, or of one writer. -/
inductive Label (W : Nat) where
  | spawn (created : Bool)
  | announce
  | phase
  | join
  | report
  | load (w : Fin W)
  | store (w : Fin W)
  | log (w : Fin W)
  deriving Repr, DecidableEq

/-- A store to the counter. -/
def Label.isStore {W : Nat} : Label W → Bool
  | .store _ => true
  | .spawn _ | .announce | .phase | .join | .report | .load _
  | .log _ => false

/-- `"counter"`. -/
def counterKey : Option (List UInt8) :=
  some (Bytes.ascii "counter")

/-- The line a writer logs at its end. -/
def finishedLine (tag : Nat) : List UInt8 :=
  Bytes.ascii "writer " ++ Numeral.signed tag ++ Bytes.ascii " finished"

/-- The line the main thread logs after it has created a writer. -/
def spawnedLine (tag : Nat) : List UInt8 :=
  Bytes.ascii "spawned writer " ++ Numeral.signed tag

section Run

-- What `"%.1f"` makes of the share of lost writes.
variable (percent : Int → Int → List UInt8)

/-- The line about the lost writes. -/
def lostLine (lost expected : Int) : List UInt8 :=
  Bytes.ascii "lost " ++ Numeral.signed lost ++ Bytes.ascii " of " ++
    Numeral.signed expected ++ Bytes.ascii " writes (" ++
    percent lost expected ++ Bytes.ascii "%)"

/-- What `rc_run` reports about the counter after its joins. -/
def rcReport (W K : Nat) (counter : Int) : List Emit :=
  let expected : Int := (W : Int) * K
  let lost := expected - counter
  [.actual counterKey (Int64.ofInt counter),
    .logf (lostLine percent lost expected)]

namespace State

variable {W : Nat}

/-- Replace the stage of one writer. -/
def setWriter
    (state : State W)
    (w : Fin W)
    (stage : WriterStage) : State W :=
  { state with writers := Function.update state.writers w stage }

/-- `rc_run`, which the counter belongs to, has not returned. -/
def live (state : State W) : Bool :=
  match state.main with
  | .returned _ => false
  | .spawning _ | .announcing _ | .spawned | .joining _ | .reporting =>
      true

/-- Execute one enabled label, with `K` iterations to a writer. -/
def step? (K : Nat) (state : State W) :
    Label W → Option (State W)
  | .spawn created =>
      match state.main with
      | .spawning i =>
          if inside : i < W then
            if created then
              let next :=
                state.setWriter ⟨i, inside⟩ (WriterStage.loopHead K 0)
              some { next with main := .announcing i }
            else
              some { state with
                main := .returned 1
                reports :=
                  state.reports ++
                    [.sutFault
                      (some (Bytes.ascii "pthread_create failed"))] }
          else
            none
      | _ => none
  | .announce =>
      match state.main with
      | .announcing i =>
          some { state with
            main := RcStage.spawnHead W (i + 1)
            reports := state.reports ++ [.logf (spawnedLine (i + 1))] }
      | _ => none
  | .phase =>
      match state.main with
      | .spawned =>
          some { state with
            main := RcStage.joinHead W 0
            reports :=
              state.reports ++ [.phase (some (Bytes.ascii "joining"))] }
      | _ => none
  | .join =>
      match state.main with
      | .joining i =>
          if inside : i < W then
            if state.writers ⟨i, inside⟩ = .returned then
              some { state with main := RcStage.joinHead W (i + 1) }
            else
              none
          else
            none
      | _ => none
  | .report =>
      match state.main with
      | .reporting =>
          some { state with
            main := .returned 0
            reports := state.reports ++ rcReport percent W K state.counter }
      | _ => none
  | .load w =>
      if state.live then
        match state.writers w with
        | .loading i => some (state.setWriter w (.storing i state.counter))
        | _ => none
      else
        none
  | .store w =>
      if state.live then
        match state.writers w with
        | .storing i v =>
            let next :=
              state.setWriter w (WriterStage.loopHead K (i + 1))
            some { next with counter := v + 1 }
        | _ => none
      else
        none
  | .log w =>
      if state.live then
        match state.writers w with
        | .logging =>
            let next := state.setWriter w .returned
            some { next with
              reports := state.reports ++ [.logf (finishedLine (w + 1))] }
        | _ => none
      else
        none

/-- Execute a finite interleaving. -/
abbrev run? (K : Nat) : State W → List (Label W) → Option (State W) :=
  Transition.run? (step? percent K)

/-- `rc_run` before it creates its writers. -/
def start (W K : Nat) : State W where
  counter := 0
  writers := fun _ => .absent
  main := RcStage.spawnHead W 0
  reports :=
    [.phase (some (Bytes.ascii "spawning writers")),
      .expect counterKey (Int64.ofInt ((W : Int) * K))]

/-- All writers have been joined. -/
def joined (state : State W) : Bool :=
  match state.main with
  | .reporting => true
  | .returned rc => rc == 0
  | .spawning _ | .announcing _ | .spawned | .joining _ => false

end State

/-- What holds of the counter after a run. -/
structure RaceBounds
    {W : Nat}
    (K : Nat)
    (labels : List (Label W))
    (final : State W) : Prop where
  /-- The counter is at most the number of stores. -/
  stored : final.counter ≤ labels.countP Label.isStore
  /-- All but two of the writes may be lost, and no more. -/
  joined :
    final.joined = true →
      2 ≤ final.counter ∧ final.counter ≤ (W : Int) * K
  /-- So the number of lost writes is printed in these bounds. -/
  printed :
    final.main = .returned 0 →
      ∃ lost : Int,
        0 ≤ lost ∧ lost ≤ (W : Int) * K - 2 ∧
          final.reports.getLast? =
            some (.logf (lostLine percent lost ((W : Int) * K)))

end Run

section Step

variable
  {percent : Int → Int → List UInt8}
  {W K : Nat}
  {state next : State W}
  {label : Label W}

namespace State

/-- What one step does. -/
inductive Steps
    (percent : Int → Int → List UInt8)
    (K : Nat)
    (state : State W) : Label W → State W → Prop where
  | spawns
      {i : Nat}
      (inside : i < W)
      (spawning : state.main = .spawning i) :
      Steps percent K state (.spawn true)
        { state.setWriter ⟨i, inside⟩ (WriterStage.loopHead K 0) with
          main := .announcing i }
  | fails
      {i : Nat}
      (spawning : state.main = .spawning i)
      (reports : List Emit) :
      Steps percent K state (.spawn false)
        { state with
          main := .returned 1
          reports := reports }
  | announces
      {i : Nat}
      (announcing : state.main = .announcing i)
      (reports : List Emit) :
      Steps percent K state .announce
        { state with
          main := RcStage.spawnHead W (i + 1)
          reports := reports }
  | phases
      (spawned : state.main = .spawned)
      (reports : List Emit) :
      Steps percent K state .phase
        { state with
          main := RcStage.joinHead W 0
          reports := reports }
  | joins
      {i : Nat}
      (inside : i < W)
      (joining : state.main = .joining i)
      (returned : state.writers ⟨i, inside⟩ = .returned) :
      Steps percent K state .join
        { state with main := RcStage.joinHead W (i + 1) }
  | reports
      (reporting : state.main = .reporting) :
      Steps percent K state .report
        { state with
          main := .returned 0
          reports := state.reports ++ rcReport percent W K state.counter }
  | loads
      {w : Fin W}
      {i : Nat}
      (live : state.live = true)
      (loading : state.writers w = .loading i) :
      Steps percent K state (.load w)
        (state.setWriter w (.storing i state.counter))
  | stores
      {w : Fin W}
      {i : Nat}
      {v : Int}
      (live : state.live = true)
      (storing : state.writers w = .storing i v) :
      Steps percent K state (.store w)
        { state.setWriter w (WriterStage.loopHead K (i + 1)) with
          counter := v + 1 }
  | logs
      {w : Fin W}
      (live : state.live = true)
      (logging : state.writers w = .logging)
      (reports : List Emit) :
      Steps percent K state (.log w)
        { state.setWriter w .returned with reports := reports }

/-- A step does one of these. -/
theorem steps_of_step?
    (stepped : state.step? percent K label = some next) :
    state.Steps percent K label next := by
  cases label with
  | spawn created =>
      simp only [step?] at stepped
      split at stepped
      · rename_i i spawning
        split at stepped
        · rename_i inside
          cases created with
          | true =>
              obtain rfl := Option.some.inj stepped
              exact .spawns inside spawning
          | false =>
              obtain rfl := Option.some.inj stepped
              exact .fails spawning _
        · contradiction
      · contradiction
  | announce =>
      simp only [step?] at stepped
      split at stepped
      · rename_i i announcing
        obtain rfl := Option.some.inj stepped
        exact .announces announcing _
      · contradiction
  | phase =>
      simp only [step?] at stepped
      split at stepped
      · rename_i spawned
        obtain rfl := Option.some.inj stepped
        exact .phases spawned _
      · contradiction
  | join =>
      simp only [step?] at stepped
      split at stepped
      · rename_i i joining
        split at stepped
        · rename_i inside
          split at stepped
          · rename_i returned
            obtain rfl := Option.some.inj stepped
            exact .joins inside joining returned
          · contradiction
        · contradiction
      · contradiction
  | report =>
      simp only [step?] at stepped
      split at stepped
      · rename_i reporting
        obtain rfl := Option.some.inj stepped
        exact .reports reporting
      · contradiction
  | load w =>
      simp only [step?, Option.ite_none_right_eq_some] at stepped
      obtain ⟨live, stepped⟩ := stepped
      split at stepped
      · rename_i i loading
        obtain rfl := Option.some.inj stepped
        exact .loads live loading
      · contradiction
  | store w =>
      simp only [step?, Option.ite_none_right_eq_some] at stepped
      obtain ⟨live, stepped⟩ := stepped
      split at stepped
      · rename_i i v storing
        obtain rfl := Option.some.inj stepped
        exact .stores live storing
      · contradiction
  | log w =>
      simp only [step?, Option.ite_none_right_eq_some] at stepped
      obtain ⟨live, stepped⟩ := stepped
      split at stepped
      · rename_i logging
        obtain rfl := Option.some.inj stepped
        exact .logs live logging _
      · contradiction

end State

namespace WriterStage

/-- What a writer has loaded is no more than the stores, and no less than 1 once
it has stored itself. -/
def Bounded (stores : Nat) : WriterStage → Prop
  | .loading i => i ≤ stores
  | .storing i v => i ≤ stores ∧ 0 ≤ v ∧ v ≤ stores ∧ (0 < i → 1 ≤ v)
  | .absent | .logging | .returned => True

/-- The loop counter is in its range. -/
def Inside (K : Nat) : WriterStage → Prop
  | .loading i | .storing i _ => i < K
  | .absent | .logging | .returned => True

/-- The iterations done. -/
def done (K : Nat) : WriterStage → Nat
  | .absent => 0
  | .loading i | .storing i _ => i
  | .logging | .returned => K

/-- A writer that has a store to come. -/
def storesLater : WriterStage → Bool
  | .absent | .loading _ | .storing _ _ => true
  | .logging | .returned => false

/-- More stores leave more room. -/
theorem Bounded.mono
    {stage : WriterStage}
    {stores later : Nat}
    (bounded : stage.Bounded stores)
    (more : stores ≤ later) :
    stage.Bounded later := by
  cases stage with
  | absent | logging | returned =>
      trivial
  | loading i =>
      exact Nat.le_trans bounded more
  | storing i v =>
      obtain ⟨done, nonneg, atMost, positive⟩ := bounded
      exact
        ⟨Nat.le_trans done more, nonneg,
          Int.le_trans atMost (Int.ofNat_le.mpr more), positive⟩

theorem bounded_loopHead
    {K i stores : Nat}
    (done : i ≤ stores) :
    (loopHead K i).Bounded stores := by
  unfold loopHead
  split
  · exact done
  · trivial

theorem inside_loopHead (K i : Nat) :
    (loopHead K i).Inside K := by
  unfold loopHead
  split
  · assumption
  · trivial

@[simp] theorem done_loopHead
    {K i : Nat}
    (inside : i ≤ K) :
    (loopHead K i).done K = i := by
  unfold loopHead
  split
  · rfl
  · rename_i beyond
    exact Nat.le_antisymm (Nat.le_of_not_lt beyond) inside

@[simp] theorem storesLater_loopHead {K i : Nat} :
    (loopHead K i).storesLater = true ↔ i < K := by
  unfold loopHead
  split
  · rename_i inside
    exact iff_of_true rfl inside
  · rename_i beyond
    exact iff_of_false Bool.false_ne_true beyond

theorem done_le
    {K : Nat}
    {stage : WriterStage}
    (inside : stage.Inside K) :
    stage.done K ≤ K := by
  cases stage with
  | absent =>
      exact Nat.zero_le K
  | loading i | storing i v =>
      exact Nat.le_of_lt inside
  | logging | returned =>
      exact Nat.le_refl K

end WriterStage

namespace RcStage

variable {writers : Fin W → WriterStage} {i : Nat}

/-- The writers not created yet are absent, and the joined ones returned. -/
def Placed (main : RcStage) (writers : Fin W → WriterStage) : Prop :=
  match main with
  | .spawning i => ∀ w : Fin W, i ≤ w → writers w = .absent
  | .announcing i => ∀ w : Fin W, i < w → writers w = .absent
  | .spawned => True
  | .joining i => ∀ w : Fin W, w < i → writers w = .returned
  | .reporting => ∀ w, writers w = .returned
  | .returned rc => rc = 0 → ∀ w, writers w = .returned

theorem placed_spawnHead
    (absent : ∀ w : Fin W, i ≤ w → writers w = .absent) :
    (spawnHead W i).Placed writers := by
  unfold spawnHead
  split
  · exact absent
  · trivial

theorem spawnHead_ne_returned (W i : Nat) (rc : Int) :
    spawnHead W i ≠ .returned rc := by
  unfold spawnHead
  split
  · nofun
  · nofun

theorem joinHead_ne_returned (W i : Nat) (rc : Int) :
    joinHead W i ≠ .returned rc := by
  unfold joinHead
  split
  · nofun
  · nofun

theorem placed_joinHead
    (returned : ∀ w : Fin W, w < i → writers w = .returned) :
    (joinHead W i).Placed writers := by
  unfold joinHead
  split
  · exact returned
  · rename_i last
    exact fun w =>
      returned w (Nat.lt_of_lt_of_le w.isLt (Nat.le_of_not_lt last))

/-- A writer that runs is neither absent nor returned. -/
theorem Placed.update
    {main : RcStage}
    {w : Fin W}
    (placed : main.Placed writers)
    (created : writers w ≠ .absent)
    (running : writers w ≠ .returned)
    (stage : WriterStage) :
    main.Placed (Function.update writers w stage) := by
  have absentKept :
      ∀ other,
        writers other = .absent →
        Function.update writers w stage other = .absent := by
    intro other absent
    have distinct : other ≠ w := fun same => created (same ▸ absent)
    exact (Function.update_of_ne distinct ..).trans absent
  have returnedKept :
      ∀ other,
        writers other = .returned →
        Function.update writers w stage other = .returned := by
    intro other returned
    have distinct : other ≠ w := fun same => running (same ▸ returned)
    exact (Function.update_of_ne distinct ..).trans returned
  cases main with
  | spawning i | announcing i =>
      exact fun other later => absentKept other (placed other later)
  | spawned =>
      trivial
  | joining i =>
      exact fun other earlier =>
        returnedKept other (placed other earlier)
  | reporting =>
      exact fun other => returnedKept other (placed other)
  | returned rc =>
      exact fun joined other => returnedKept other (placed joined other)

end RcStage

namespace State

/-- What holds of the counter after some stores. -/
structure Bounded (stores : Nat) (state : State W) : Prop where
  nonneg : 0 ≤ state.counter
  atMost : state.counter ≤ stores
  positive : 0 < stores → 1 ≤ state.counter
  writers : ∀ w, (state.writers w).Bounded stores

/-- A writer that moves without a store keeps the bounds. -/
theorem Bounded.setWriter
    {stores : Nat}
    {w : Fin W}
    {stage : WriterStage}
    (bounded : state.Bounded stores)
    (moved : stage.Bounded stores) :
    (state.setWriter w stage).Bounded stores where
  nonneg := bounded.nonneg
  atMost := bounded.atMost
  positive := bounded.positive
  writers :=
    (Function.forall_update_iff state.writers
        fun _ stage => stage.Bounded stores).mpr
      ⟨moved, fun other _ => bounded.writers other⟩

/-- A store keeps the bounds. -/
theorem Bounded.store
    {stores : Nat}
    {w : Fin W}
    {i : Nat}
    {v : Int}
    (bounded : state.Bounded stores)
    (storing : state.writers w = .storing i v) :
    State.Bounded (stores + 1)
      { state.setWriter w (WriterStage.loopHead K (i + 1)) with
        counter := v + 1 } := by
  have here := bounded.writers w
  rw [storing] at here
  obtain ⟨done, nonneg, atMost, _⟩ := here
  refine {
    nonneg := Int.add_nonneg nonneg (by decide)
    atMost := ?_
    positive := fun _ => Int.le_add_of_nonneg_left nonneg
    writers := ?_
  }
  · rw [Int.natCast_add, Int.natCast_one]
    exact Int.add_le_add_right atMost 1
  · refine
      (Function.forall_update_iff state.writers
          fun _ stage => stage.Bounded (stores + 1)).mpr ⟨?_, ?_⟩
    · exact WriterStage.bounded_loopHead (Nat.succ_le_succ done)
    · intro other _
      exact (bounded.writers other).mono (Nat.le_succ stores)

/-- A step keeps the counter bounded by the stores. -/
theorem Bounded.step
    {stores : Nat}
    (bounded : state.Bounded stores)
    (steps : state.Steps percent K label next) :
    next.Bounded (stores + if label.isStore then 1 else 0) := by
  cases steps with
  | @spawns i inside spawning =>
      have moved :
          (state.setWriter ⟨i, inside⟩
            (WriterStage.loopHead K 0)).Bounded stores :=
        bounded.setWriter
          (WriterStage.bounded_loopHead (Nat.zero_le stores))
      exact ⟨moved.nonneg, moved.atMost, moved.positive, moved.writers⟩
  | fails | announces | phases | joins | reports =>
      exact
        ⟨bounded.nonneg, bounded.atMost, bounded.positive,
          bounded.writers⟩
  | @loads w i live loading =>
      have here := bounded.writers w
      rw [loading] at here
      refine bounded.setWriter
        ⟨here, bounded.nonneg, bounded.atMost, ?_⟩
      -- A writer that stored before finds its store, or a later one.
      intro again
      exact bounded.positive (Nat.lt_of_lt_of_le again here)
  | stores live storing =>
      exact bounded.store storing
  | @logs w live logging reports =>
      have moved : (state.setWriter w .returned).Bounded stores :=
        bounded.setWriter trivial
      exact ⟨moved.nonneg, moved.atMost, moved.positive, moved.writers⟩

/-- The iterations that all writers have done. -/
def iterations (K : Nat) (state : State W) : Nat :=
  ∑ w, (state.writers w).done K

/-- What holds of the writers after some stores. -/
structure Counted (K stores : Nat) (state : State W) : Prop where
  inside : ∀ w, (state.writers w).Inside K
  placed : state.main.Placed state.writers
  total : state.iterations K = stores

/-- A step keeps the writers in place. -/
theorem Steps.placed
    (steps : state.Steps percent K label next)
    (placed : state.main.Placed state.writers) :
    next.main.Placed next.writers := by
  cases steps with
  | @spawns i inside spawning =>
      rw [spawning] at placed
      intro w later
      have distinct : w ≠ ⟨i, inside⟩ :=
        fun same => Nat.ne_of_gt later (congrArg Fin.val same)
      exact
        (Function.update_of_ne distinct ..).trans
          (placed w (Nat.le_of_lt later))
  | fails spawning reports =>
      exact fun joined => absurd joined (by decide)
  | announces announcing reports =>
      rw [announcing] at placed
      exact RcStage.placed_spawnHead placed
  | phases spawned reports =>
      exact
        RcStage.placed_joinHead fun w earlier =>
          absurd earlier (Nat.not_lt_zero w)
  | @joins i inside joining returned =>
      rw [joining] at placed
      refine RcStage.placed_joinHead fun w earlier => ?_
      rcases Nat.lt_succ_iff_lt_or_eq.mp earlier with before | same
      · exact placed w before
      · have here : w = ⟨i, inside⟩ := Fin.ext same
        exact here ▸ returned
  | reports reporting =>
      rw [reporting] at placed
      exact fun _ => placed
  | loads live loading =>
      exact
        placed.update (by rw [loading]; nofun) (by rw [loading]; nofun) _
  | stores live storing =>
      exact
        placed.update (by rw [storing]; nofun) (by rw [storing]; nofun) _
  | logs live logging reports =>
      exact
        placed.update (by rw [logging]; nofun) (by rw [logging]; nofun) _

/-- Moving one writer replaces the iterations it has done. -/
theorem iterations_setWriter
    (state : State W)
    (K : Nat)
    (w : Fin W)
    (stage : WriterStage) :
    (state.setWriter w stage).iterations K +
        (state.writers w).done K =
      state.iterations K + stage.done K :=
  Parties.sum_update state.writers w stage (WriterStage.done K)

/-- No writer does more iterations than it has. -/
theorem iterations_le
    (inside : ∀ w, (state.writers w).Inside K) :
    state.iterations K ≤ W * K := by
  have total :=
    Finset.sum_le_card_nsmul Finset.univ
      (fun w => (state.writers w).done K) K
      (fun w _ => WriterStage.done_le (inside w))
  simpa [iterations] using total

/-- Every store ends one iteration, and no other step does. -/
theorem Counted.step
    {stores : Nat}
    (counted : state.Counted K stores)
    (steps : state.Steps percent K label next) :
    next.Counted K (stores + if label.isStore then 1 else 0) := by
  have placed := steps.placed counted.placed
  obtain ⟨inside, before, total⟩ := counted
  have insideUpdate :
      ∀ (w : Fin W) (stage : WriterStage),
        stage.Inside K →
        ∀ other, ((state.setWriter w stage).writers other).Inside K := by
    intro w stage moved
    exact
      (Function.forall_update_iff state.writers
          fun _ stage => stage.Inside K).mpr
        ⟨moved, fun other _ => inside other⟩
  cases steps with
  | @spawns i within spawning =>
      rw [spawning] at before
      have absent := before ⟨i, within⟩ (Nat.le_refl i)
      have moved :=
        state.iterations_setWriter K ⟨i, within⟩
          (WriterStage.loopHead K 0)
      rw [absent, WriterStage.done_loopHead (Nat.zero_le K)] at moved
      exact
        ⟨insideUpdate _ _ (WriterStage.inside_loopHead K 0), placed,
          moved.trans total⟩
  | fails | announces | phases | joins | reports =>
      exact ⟨inside, placed, total⟩
  | @loads w i live loading =>
      have here := inside w
      rw [loading] at here
      have moved :=
        state.iterations_setWriter K w (.storing i state.counter)
      rw [loading] at moved
      exact
        ⟨insideUpdate w _ here, placed,
          (Nat.add_right_cancel moved).trans total⟩
  | @stores w i v live storing =>
      have here := inside w
      rw [storing] at here
      have moved :=
        state.iterations_setWriter K w (WriterStage.loopHead K (i + 1))
      rw [storing, WriterStage.done_loopHead (Nat.succ_le_of_lt here)]
        at moved
      refine
        ⟨insideUpdate w _ (WriterStage.inside_loopHead K (i + 1)), placed,
          ?_⟩
      have added :
          (state.setWriter w (WriterStage.loopHead K (i + 1))).iterations
              K + i =
            state.iterations K + 1 + i := by
        rw [Nat.add_assoc, Nat.add_comm 1 i]
        exact moved
      exact
        (Nat.add_right_cancel added).trans (congrArg (· + 1) total)
  | @logs w live logging reports =>
      have moved := state.iterations_setWriter K w .returned
      rw [logging] at moved
      exact
        ⟨insideUpdate w _ trivial, placed,
          (Nat.add_right_cancel moved).trans total⟩

/-- The counter is 2 or more already, or a writer has a store to come. -/
def Pending (state : State W) : Prop :=
  2 ≤ state.counter ∨ ∃ w, (state.writers w).storesLater = true

theorem exists_storesLater_setWriter
    (state : State W)
    (w : Fin W)
    {stage : WriterStage}
    (later : stage.storesLater = true) :
    ∃ other, ((state.setWriter w stage).writers other).storesLater = true := by
  have moved := Function.update_self w stage state.writers
  exact ⟨w, (congrArg WriterStage.storesLater moved).trans later⟩

/-- With two iterations or more, the first store of a writer is not its last. -/
theorem Pending.step
    {stores : Nat}
    (pending : state.Pending)
    (bounded : state.Bounded stores)
    (two : 2 ≤ K)
    (steps : state.Steps percent K label next) :
    next.Pending := by
  cases steps with
  | @spawns i inside spawning =>
      refine Or.inr (state.exists_storesLater_setWriter ⟨i, inside⟩ ?_)
      exact WriterStage.storesLater_loopHead.mpr (Nat.zero_lt_of_lt two)
  | fails | announces | phases | joins | reports =>
      exact pending
  | @loads w i live loading =>
      exact Or.inr (state.exists_storesLater_setWriter w rfl)
  | @stores w i v live storing =>
      cases i with
      | zero =>
          refine Or.inr (state.exists_storesLater_setWriter w ?_)
          exact WriterStage.storesLater_loopHead.mpr two
      | succ i =>
          have here := bounded.writers w
          rw [storing] at here
          have positive := here.2.2.2 (Nat.succ_pos i)
          exact Or.inl (Int.add_le_add_right positive 1)
  | @logs w live logging reports =>
      refine pending.imp id ?_
      rintro ⟨other, later⟩
      have distinct : other ≠ w := by
        rintro rfl
        rw [logging] at later
        contradiction
      have kept := Function.update_of_ne distinct .returned state.writers
      exact
        ⟨other, (congrArg WriterStage.storesLater kept).trans later⟩

theorem ne_returned_of_live
    (live : state.live = true)
    (rc : Int) :
    state.main ≠ .returned rc := by
  intro returned
  rw [State.live, returned] at live
  contradiction

/-- What has been printed about the lost writes. -/
def Printed
    (percent : Int → Int → List UInt8)
    (K : Nat)
    (state : State W) : Prop :=
  state.main = .returned 0 →
    state.reports.getLast? =
      some (.logf
        (lostLine percent ((W : Int) * K - state.counter) ((W : Int) * K)))

/-- Only the report at the end returns 0, and nothing runs after it. -/
theorem Printed.step
    (printed : state.Printed percent K)
    (steps : state.Steps percent K label next) :
    next.Printed percent K := by
  cases steps with
  | spawns inside spawning =>
      exact nofun
  | fails spawning reports =>
      exact nofun
  | announces announcing reports =>
      exact fun returned =>
        absurd returned (RcStage.spawnHead_ne_returned W _ 0)
  | phases spawned reports =>
      exact fun returned =>
        absurd returned (RcStage.joinHead_ne_returned W 0 0)
  | joins inside joining done =>
      exact fun returned =>
        absurd returned (RcStage.joinHead_ne_returned W _ 0)
  | reports reporting =>
      intro _
      rw [rcReport, List.getLast?_append]
      rfl
  | loads live loading =>
      exact printed
  | stores live storing | logs live logging reports =>
      exact fun returned => absurd returned (ne_returned_of_live live 0)

/-- What every step keeps, over the labels executed so far. -/
structure Invariant
    (percent : Int → Int → List UInt8)
    (K : Nat)
    (labels : List (Label W))
    (state : State W) : Prop where
  bounded : state.Bounded (labels.countP Label.isStore)
  counted : state.Counted K (labels.countP Label.isStore)
  pending : state.Pending
  printed : state.Printed percent K

/-- A step keeps all of it. -/
theorem Invariant.step
    {earlier : List (Label W)}
    (invariant : Invariant percent K earlier state)
    (two : 2 ≤ K)
    (steps : state.Steps percent K label next) :
    Invariant percent K (earlier ++ [label]) next := by
  have stores :
      (earlier ++ [label]).countP Label.isStore =
        earlier.countP Label.isStore +
          if label.isStore then 1 else 0 := by
    rw [List.countP_append, List.countP_singleton]
  exact {
    bounded := stores ▸ invariant.bounded.step steps
    counted := stores ▸ invariant.counted.step steps
    pending := invariant.pending.step invariant.bounded two steps
    printed := invariant.printed.step steps
  }

/-- It holds before the first writer is created. -/
theorem invariant_start
    (percent : Int → Int → List UInt8)
    (K : Nat)
    (some : 0 < W) :
    Invariant percent K [] (start W K) where
  bounded := {
    nonneg := Int.le_refl 0
    atMost := Int.le_refl 0
    positive := fun positive => absurd positive (Nat.lt_irrefl 0)
    writers := fun _ => trivial
  }
  counted := {
    inside := fun _ => trivial
    placed := RcStage.placed_spawnHead fun _ _ => rfl
    total := Finset.sum_const_zero
  }
  pending := Or.inr ⟨⟨0, some⟩, rfl⟩
  printed := fun returned =>
    absurd returned (RcStage.spawnHead_ne_returned W 0 0)

/-- Joined writers have all returned. -/
theorem returned_of_joined
    (placed : state.main.Placed state.writers)
    (joined : state.joined = true)
    (w : Fin W) :
    state.writers w = .returned := by
  cases main : state.main with
  | reporting =>
      rw [main] at placed
      exact placed w
  | returned rc =>
      rw [main] at placed
      rw [State.joined, main] at joined
      exact placed (eq_of_beq joined) w
  | spawning i | announcing i | spawned | joining i =>
      rw [State.joined, main] at joined
      contradiction

/-- The bounds follow. -/
theorem Invariant.raceBounds
    {labels : List (Label W)}
    (invariant : Invariant percent K labels state) :
    RaceBounds percent K labels state := by
  have atMost : state.counter ≤ (W : Int) * K := by
    have stored := invariant.bounded.atMost
    rw [← invariant.counted.total] at stored
    have total :=
      Int.ofNat_le.mpr (iterations_le invariant.counted.inside)
    rw [Int.natCast_mul] at total
    exact Int.le_trans stored total
  have atLeast (joined : state.joined = true) : 2 ≤ state.counter := by
    refine invariant.pending.resolve_right ?_
    rintro ⟨w, later⟩
    rw [returned_of_joined invariant.counted.placed joined w] at later
    contradiction
  exact {
    stored := invariant.bounded.atMost
    joined := fun joined => ⟨atLeast joined, atMost⟩
    printed := by
      intro returned
      have joined : state.joined = true := by
        rw [State.joined, returned]
        rfl
      exact
        ⟨(W : Int) * K - state.counter, Int.sub_nonneg_of_le atMost,
          Int.sub_le_sub_left (atLeast joined) _,
          invariant.printed returned⟩
  }

end State

end Step

section Runs

variable
  {percent : Int → Int → List UInt8}
  {W K : Nat}
  {labels : List (Label W)}
  {final : State W}

/-- Every interleaving keeps the invariant. -/
theorem invariant_of_run
    (some : 0 < W)
    (two : 2 ≤ K)
    (ran :
      (State.start W K).run? percent K labels = Option.some final) :
    State.Invariant percent K labels final :=
  Transition.run?_history (State.Invariant percent K)
    (State.invariant_start percent K some)
    (fun invariant (_ : True) stepped =>
      invariant.step two (State.steps_of_step? stepped))
    ran (Transition.eachStep_of_forall (fun _ _ => trivial) _)

/--
In every interleaving of two writers or more, with two iterations or more to a
writer, the counter is at most the number of stores, and after the joins it is
at least 2 and at most the number of all iterations.
-/
theorem race_bounded
    (party : 2 ≤ W)
    (two : 2 ≤ K)
    (ran : (State.start W K).run? percent K labels = some final) :
    RaceBounds percent K labels final :=
  (invariant_of_run (Nat.zero_lt_of_lt party) two ran).raceBounds

/-- One writer stores last what it loaded before the other finished. -/
def staleRun : List (Label 2) :=
  let first : Fin 2 := ⟨0, by decide⟩
  let second : Fin 2 := ⟨1, by decide⟩
  [.spawn true, .announce, .spawn true, .announce, .phase,
    .load first, .load second, .store second, .store first,
    .load second, .load first, .store first, .store second,
    .log first, .log second, .join, .join, .report]

/-- `"%.1f"` of the half. -/
def half (_lost _expected : Int) : List UInt8 :=
  Bytes.ascii "50.0"

theorem race_bounded_staleRun :
    ∃ final,
      (State.start 2 2).run? half 2 staleRun = some final ∧
        final.counter = 2 ∧
        final.main = .returned 0 ∧
        RaceBounds half 2 staleRun final := by
  have reached :
      ((State.start 2 2).run? half 2 staleRun).map
          (fun final => (final.counter, final.main)) =
        some (2, .returned 0) := by
    decide +kernel
  obtain ⟨final, ran, same⟩ := Option.map_eq_some_iff.mp reached
  exact
    ⟨final, ran, congrArg Prod.fst same, congrArg Prod.snd same,
      race_bounded (by decide) (by decide) ran⟩

/-- What the scenario itself prints when it returns. -/
theorem lost_of_race_counter
    {labels : List (Label writers)}
    {final : State writers}
    (ran :
      (State.start writers writes).run? percent writes labels = some final)
    (returned : final.main = .returned 0) :
    ∃ lost : Int,
      0 ≤ lost ∧ lost ≤ 7998 ∧
        final.reports.getLast? =
          some (.logf (lostLine percent lost 8000)) :=
  (invariant_of_run (by decide) (by decide) ran).raceBounds.printed returned

end Runs

end FailurePlayground.RaceCounter
