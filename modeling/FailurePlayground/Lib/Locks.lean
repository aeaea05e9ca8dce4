import Mathlib.Algebra.BigOperators.Group.Finset.Piecewise
import Mathlib.Algebra.Order.BigOperators.Group.Finset
import Mathlib.Data.Fintype.EquivFin
import Mathlib.Data.Set.Insert
import Mathlib.Logic.Relation
import Mathlib.Order.WellFounded
import FailurePlayground.Lib.Transition

namespace FailurePlayground.Locks

/-!
# Threads that take and release locks

Every thread runs a straight-line program that acquires and releases locks and
works in between.  A lock has at most one owner, and a thread that acquires an
owned lock does not step.  A state in which no thread can step although one is
unfinished contains a cycle of threads that wait for each other, and a cycle
stays for good.  When every program takes its locks in the order of one rank,
no cycle arises and every run can be completed.
-/

universe u v w

/-- One operation of a program. -/
inductive Op (Lock : Type v) (Work : Type w) where
  | acquire (lock : Lock)
  | release (lock : Lock)
  | work (item : Work)
  deriving Repr, DecidableEq

/-- The owner of every lock, and what every thread still has to execute. -/
structure State (Thread : Type u) (Lock : Type v) (Work : Type w) where
  owner : Lock → Option Thread
  code : Thread → List (Op Lock Work)

variable {Thread : Type u} {Lock : Type v} {Work : Type w}

/--
A program that may acquire a lock only where the rule allows it with the locks
held then, releases only what it holds, and ends with nothing held.
-/
def Follows (rule : Set Lock → Lock → Prop) :
    Set Lock → List (Op Lock Work) → Prop
  | held, [] =>
      held = ∅
  | held, .acquire lock :: rest =>
      rule held lock ∧ Follows rule (insert lock held) rest
  | held, .release lock :: rest =>
      lock ∈ held ∧ Follows rule (held \ {lock}) rest
  | held, .work _ :: rest =>
      Follows rule held rest

/-- Every lock acquired ranks above all that are held. -/
def Ascending (rank : Lock → Nat) (held : Set Lock) (lock : Lock) : Prop :=
  ∀ other ∈ held, rank other < rank lock

namespace State

/-- The locks a thread owns. -/
def held (state : State Thread Lock Work) (thread : Thread) : Set Lock :=
  {lock | state.owner lock = some thread}

/-- The thread's next operation acquires the lock. -/
def Wants
    (state : State Thread Lock Work)
    (thread : Thread)
    (lock : Lock) : Prop :=
  ∃ rest, state.code thread = .acquire lock :: rest

/-- The thread wants a lock that the other one owns. -/
def WaitsFor
    (state : State Thread Lock Work)
    (thread other : Thread) : Prop :=
  ∃ lock, state.Wants thread lock ∧ state.owner lock = some other

/-- Some threads wait for each other in a circle. -/
def Cyclic (state : State Thread Lock Work) : Prop :=
  ∃ thread, Relation.TransGen state.WaitsFor thread thread

/-- Every thread follows the rule with what it holds. -/
def Disciplined
    (rule : Set Lock → Lock → Prop)
    (state : State Thread Lock Work) : Prop :=
  ∀ thread, Follows rule (state.held thread) (state.code thread)

variable [DecidableEq Thread] [DecidableEq Lock]

/-- The thread has executed its next operation, which left `rest`. -/
def advance
    (state : State Thread Lock Work)
    (thread : Thread)
    (rest : List (Op Lock Work)) : State Thread Lock Work :=
  { state with code := Function.update state.code thread rest }

/-- A lock changes hands. -/
def setOwner
    (state : State Thread Lock Work)
    (lock : Lock)
    (owner : Option Thread) : State Thread Lock Work :=
  { state with owner := Function.update state.owner lock owner }

/--
A thread executes its next operation.  It waits for a lock that is owned, by
itself too, and a lock it does not own is not its to release.
-/
def step?
    (state : State Thread Lock Work)
    (thread : Thread) : Option (State Thread Lock Work) :=
  match state.code thread with
  | [] =>
      none
  | .acquire lock :: rest =>
      if state.owner lock = none then
        some ((state.advance thread rest).setOwner lock (some thread))
      else
        none
  | .release lock :: rest =>
      if state.owner lock = some thread then
        some ((state.advance thread rest).setOwner lock none)
      else
        none
  | .work _ :: rest =>
      some (state.advance thread rest)

end State

/-- A relation that always goes on inside a finite nonempty set has a cycle. -/
theorem exists_transGen_self
    [Finite Thread]
    {relation : Thread → Thread → Prop}
    (inside : Thread → Prop)
    (onward : ∀ thread, inside thread →
      ∃ other, relation thread other ∧ inside other)
    {start : Thread}
    (nonempty : inside start) :
    ∃ thread, Relation.TransGen relation thread thread := by
  refine Classical.byContradiction fun acyclic => ?_
  have irreflexive : Std.Irrefl
      (fun other thread => Relation.TransGen relation thread other) :=
    ⟨fun thread cycle => acyclic ⟨thread, cycle⟩⟩
  have transitive : IsTrans Thread
      (fun other thread => Relation.TransGen relation thread other) :=
    ⟨fun _ _ _ first second => second.trans first⟩
  have wellFounded := Finite.wellFounded_of_trans_of_irrefl
    (fun other thread => Relation.TransGen relation thread other)
  obtain ⟨last, insideLast, minimal⟩ :=
    wellFounded.has_min {thread | inside thread} ⟨start, nonempty⟩
  obtain ⟨other, edge, insideOther⟩ := onward last insideLast
  exact minimal other insideOther (Relation.TransGen.single edge)

namespace State

section Holdings

variable {rule : Set Lock → Lock → Prop}

/-- A thread that is given a lock holds it besides the others. -/
theorem held_setOwner_some
    [DecidableEq Lock]
    (state : State Thread Lock Work)
    (thread : Thread)
    (lock : Lock) :
    (state.setOwner lock (some thread)).held thread =
      insert lock (state.held thread) := by
  ext other
  by_cases same : other = lock
  · subst same
    simp [held, setOwner]
  · simp [held, setOwner, same]

/-- A lock without an owner is held by nobody. -/
theorem held_setOwner_none
    [DecidableEq Lock]
    (state : State Thread Lock Work)
    (thread : Thread)
    (lock : Lock) :
    (state.setOwner lock none).held thread =
      state.held thread \ {lock} := by
  ext other
  by_cases same : other = lock
  · subst same
    simp [held, setOwner]
  · simp [held, setOwner, same]

/-- An idle thread may be given a program that follows the rule. -/
theorem Disciplined.assign
    [DecidableEq Thread]
    {state : State Thread Lock Work}
    {thread : Thread}
    {program : List (Op Lock Work)}
    (disciplined : state.Disciplined rule)
    (idle : state.code thread = [])
    (follows : Follows rule ∅ program) :
    (state.advance thread program).Disciplined rule := by
  intro other
  by_cases same : other = thread
  · subst same
    have nothing := disciplined other
    rw [idle] at nothing
    have unheld : state.held other = ∅ := nothing
    change Follows rule (state.held other)
      (Function.update state.code other program other)
    rw [Function.update_self, unheld]
    exact follows
  · change Follows rule (state.held other)
      (Function.update state.code thread program other)
    rw [Function.update_of_ne same]
    exact disciplined other

/-- A thread that has ended holds nothing. -/
theorem Disciplined.owner_ne_of_ended
    {state : State Thread Lock Work}
    {thread : Thread}
    (disciplined : state.Disciplined rule)
    (ended : state.code thread = [])
    (lock : Lock) :
    state.owner lock ≠ some thread := by
  intro owned
  have nothing := disciplined thread
  rw [ended] at nothing
  have unheld : state.held thread = ∅ := nothing
  have mem : lock ∈ state.held thread := owned
  rw [unheld] at mem
  exact mem

end Holdings

variable [DecidableEq Thread] [DecidableEq Lock]

section Steps

/-- What an enabled step executed. -/
theorem step?_cases
    {state next : State Thread Lock Work}
    {thread : Thread}
    (taken : state.step? thread = some next) :
    (∃ lock rest,
        state.code thread = .acquire lock :: rest ∧
          state.owner lock = none ∧
          next =
            (state.advance thread rest).setOwner lock (some thread)) ∨
      (∃ lock rest,
        state.code thread = .release lock :: rest ∧
          state.owner lock = some thread ∧
          next = (state.advance thread rest).setOwner lock none) ∨
      (∃ item rest,
        state.code thread = .work item :: rest ∧
          next = state.advance thread rest) := by
  unfold step? at taken
  split at taken
  · exact absurd taken (by simp)
  · rename_i lock rest shape
    split at taken
    · rename_i free
      exact Or.inl ⟨lock, rest, shape, free, (Option.some.inj taken).symm⟩
    · exact absurd taken (by simp)
  · rename_i lock rest shape
    split at taken
    · rename_i own
      exact Or.inr
        (Or.inl ⟨lock, rest, shape, own, (Option.some.inj taken).symm⟩)
    · exact absurd taken (by simp)
  · rename_i item rest shape
    exact Or.inr
      (Or.inr ⟨item, rest, shape, (Option.some.inj taken).symm⟩)

/-- A step executes the first operation of the thread that takes it. -/
theorem step?_code
    {state next : State Thread Lock Work}
    {thread : Thread}
    (taken : state.step? thread = some next) :
    ∃ operation rest,
      state.code thread = operation :: rest ∧
        next.code = Function.update state.code thread rest := by
  rcases step?_cases taken with
    ⟨lock, rest, shape, _, rfl⟩ | ⟨lock, rest, shape, _, rfl⟩ |
      ⟨item, rest, shape, rfl⟩
  · exact ⟨_, rest, shape, rfl⟩
  · exact ⟨_, rest, shape, rfl⟩
  · exact ⟨_, rest, shape, rfl⟩

/-- A step leaves the other threads where they are. -/
theorem step?_code_of_ne
    {state next : State Thread Lock Work}
    {thread other : Thread}
    (taken : state.step? thread = some next)
    (different : other ≠ thread) :
    next.code other = state.code other := by
  obtain ⟨operation, rest, _, codeNext⟩ := step?_code taken
  rw [codeNext, Function.update_of_ne different]

/-- A lock stays with its owner while that owner does not step. -/
theorem step?_owner_of_ne
    {state next : State Thread Lock Work}
    {thread other : Thread}
    {lock : Lock}
    (taken : state.step? thread = some next)
    (different : other ≠ thread)
    (owned : state.owner lock = some other) :
    next.owner lock = some other := by
  rcases step?_cases taken with
    ⟨acquired, rest, _, free, rfl⟩ | ⟨released, rest, _, own, rfl⟩ |
      ⟨item, rest, _, rfl⟩
  · have distinct : lock ≠ acquired := by
      rintro rfl
      rw [owned] at free
      exact absurd free (by simp)
    simpa [setOwner, advance, Function.update_of_ne distinct] using owned
  · have distinct : lock ≠ released := by
      rintro rfl
      rw [owned] at own
      exact different (Option.some.inj own)
    simpa [setOwner, advance, Function.update_of_ne distinct] using owned
  · exact owned

/-- A thread that waits for another one does not step. -/
theorem WaitsFor.blocked
    {state : State Thread Lock Work}
    {thread other : Thread}
    (waits : state.WaitsFor thread other) :
    state.step? thread = none := by
  obtain ⟨lock, ⟨rest, shape⟩, owned⟩ := waits
  simp [step?, shape, owned]

end Steps

section Discipline

variable {rule : Set Lock → Lock → Prop}

/-- Other threads keep what they hold. -/
theorem held_of_ne
    {state next : State Thread Lock Work}
    {thread other : Thread}
    (taken : state.step? thread = some next)
    (different : other ≠ thread) :
    next.held other = state.held other := by
  apply Set.Subset.antisymm
  · intro lock heldNext
    simp only [held, Set.mem_ofPred_eq] at heldNext ⊢
    rcases step?_cases taken with
      ⟨acquired, rest, _, free, rfl⟩ | ⟨released, rest, _, own, rfl⟩ |
        ⟨item, rest, _, rfl⟩
    · by_cases same : lock = acquired
      · subst same
        simp only [setOwner, Function.update_self, Option.some.injEq]
          at heldNext
        exact absurd heldNext.symm different
      · simpa [setOwner, advance, Function.update_of_ne same]
          using heldNext
    · by_cases same : lock = released
      · subst same
        simp [setOwner] at heldNext
      · simpa [setOwner, advance, Function.update_of_ne same]
          using heldNext
    · exact heldNext
  · intro lock heldBefore
    exact step?_owner_of_ne taken different heldBefore

/-- A step keeps every thread to the rule. -/
theorem Disciplined.step
    {state next : State Thread Lock Work}
    {thread : Thread}
    (disciplined : state.Disciplined rule)
    (taken : state.step? thread = some next) :
    next.Disciplined rule := by
  intro other
  by_cases same : other = thread
  · subst same
    have follows := disciplined other
    rcases step?_cases taken with
      ⟨lock, rest, shape, _, rfl⟩ | ⟨lock, rest, shape, _, rfl⟩ |
        ⟨item, rest, shape, rfl⟩
    · rw [shape] at follows
      rw [held_setOwner_some]
      simpa [setOwner, advance, held] using follows.2
    · rw [shape] at follows
      rw [held_setOwner_none]
      simpa [setOwner, advance, held] using follows.2
    · rw [shape] at follows
      simpa [advance, held, Follows] using follows
  · rw [held_of_ne taken same, step?_code_of_ne taken same]
    exact disciplined other

/-- A thread that cannot step waits for one that has not ended. -/
theorem Disciplined.waitsFor_of_blocked
    {state : State Thread Lock Work}
    {thread : Thread}
    (disciplined : state.Disciplined rule)
    (unfinished : state.code thread ≠ [])
    (blocked : state.step? thread = none) :
    ∃ other, state.WaitsFor thread other ∧ state.code other ≠ [] := by
  have follows := disciplined thread
  cases shape : state.code thread with
  | nil =>
      exact absurd shape unfinished
  | cons operation rest =>
      rw [shape] at follows
      cases operation with
      | acquire lock =>
          cases owned : state.owner lock with
          | none =>
              simp [step?, shape, owned] at blocked
          | some other =>
              exact ⟨other, ⟨lock, ⟨rest, shape⟩, owned⟩,
                fun ended =>
                  disciplined.owner_ne_of_ended ended lock owned⟩
      | release lock =>
          have own : state.owner lock = some thread := follows.1
          simp [step?, shape, own] at blocked
      | work item =>
          simp [step?, shape] at blocked

end Discipline

section Cycles

variable {rule : Set Lock → Lock → Prop}

/-- When no thread can step, all have ended or some wait in a circle. -/
theorem Disciplined.cyclic_of_stuck
    [Finite Thread]
    {state : State Thread Lock Work}
    {thread : Thread}
    (disciplined : state.Disciplined rule)
    (unfinished : state.code thread ≠ [])
    (stuck : ∀ other, state.step? other = none) :
    state.Cyclic :=
  exists_transGen_self (fun other => state.code other ≠ [])
    (fun other unfinishedOther =>
      disciplined.waitsFor_of_blocked unfinishedOther (stuck other))
    unfinished

end Cycles

section Ranks

variable {rank : Lock → Nat}

omit [DecidableEq Thread] [DecidableEq Lock] in
/-- A thread wants one lock at a time. -/
theorem Wants.unique
    {state : State Thread Lock Work}
    {thread : Thread}
    {lock other : Lock}
    (wants : state.Wants thread lock)
    (wantsOther : state.Wants thread other) :
    lock = other := by
  obtain ⟨rest, shape⟩ := wants
  obtain ⟨restOther, shapeOther⟩ := wantsOther
  rw [shape] at shapeOther
  simp only [List.cons.injEq, Op.acquire.injEq] at shapeOther
  exact shapeOther.1

omit [DecidableEq Thread] [DecidableEq Lock] in
/-- What a thread wants ranks above what it holds. -/
theorem Disciplined.rank_lt
    {state : State Thread Lock Work}
    {thread : Thread}
    {lock wanted : Lock}
    (ascending : state.Disciplined (Ascending rank))
    (owned : state.owner lock = some thread)
    (wants : state.Wants thread wanted) :
    rank lock < rank wanted := by
  obtain ⟨rest, shape⟩ := wants
  have follows := ascending thread
  rw [shape] at follows
  exact follows.1 lock owned

omit [DecidableEq Thread] [DecidableEq Lock] in
/-- Ranks rise along a chain of waiting threads. -/
theorem Disciplined.rank_lt_of_transGen
    {state : State Thread Lock Work}
    {first last : Thread}
    {lock wanted : Lock}
    (ascending : state.Disciplined (Ascending rank))
    (chain : Relation.TransGen state.WaitsFor first last)
    (wantsFirst : state.Wants first lock)
    (wantsLast : state.Wants last wanted) :
    rank lock < rank wanted := by
  induction chain generalizing wanted with
  | single edge =>
      obtain ⟨between, wants, owned⟩ := edge
      rw [wantsFirst.unique wants]
      exact ascending.rank_lt owned wantsLast
  | tail _ edge inductionHypothesis =>
      obtain ⟨between, wants, owned⟩ := edge
      exact Nat.lt_trans (inductionHypothesis wants)
        (ascending.rank_lt owned wantsLast)

omit [DecidableEq Thread] [DecidableEq Lock] in
/-- Threads that take their locks in the order of a rank form no circle. -/
theorem Disciplined.not_cyclic
    {state : State Thread Lock Work}
    (ascending : state.Disciplined (Ascending rank)) :
    ¬ state.Cyclic := by
  rintro ⟨thread, circle⟩
  obtain ⟨other, ⟨lock, wants, _⟩, _⟩ :=
    (Relation.TransGen.head'_iff).mp circle
  exact Nat.lt_irrefl _
    (ascending.rank_lt_of_transGen circle wants wants)

/-- So one of them can always step, until all have ended. -/
theorem Disciplined.exists_step
    [Finite Thread]
    {state : State Thread Lock Work}
    {thread : Thread}
    (ascending : state.Disciplined (Ascending rank))
    (unfinished : state.code thread ≠ []) :
    ∃ other next, state.step? other = some next := by
  refine Classical.byContradiction fun none => ?_
  apply ascending.not_cyclic
  apply ascending.cyclic_of_stuck unfinished
  intro other
  cases taken : state.step? other with
  | none =>
      rfl
  | some next =>
      exact absurd ⟨other, next, taken⟩ none

end Ranks

section Measure

variable [Fintype Thread]

/-- The operations all threads still have to execute. -/
def remaining (state : State Thread Lock Work) : Nat :=
  ∑ thread, (state.code thread).length

/-- A step executes one of them. -/
theorem remaining_step
    {state next : State Thread Lock Work}
    {thread : Thread}
    (taken : state.step? thread = some next) :
    next.remaining < state.remaining := by
  obtain ⟨operation, rest, shape, codeNext⟩ := step?_code taken
  apply Finset.sum_lt_sum
  · intro other _
    by_cases same : other = thread
    · subst same
      simp [codeNext, shape]
    · rw [step?_code_of_ne taken same]
  · refine ⟨thread, Finset.mem_univ thread, ?_⟩
    simp [codeNext, shape]

omit [DecidableEq Lock] in
/-- A program given to an idle thread comes on top. -/
theorem remaining_assign
    {state : State Thread Lock Work}
    {thread : Thread}
    (program : List (Op Lock Work))
    (idle : state.code thread = []) :
    (state.advance thread program).remaining =
      state.remaining + program.length := by
  have moved :
      (fun other =>
          (Function.update state.code thread program other).length) =
        Function.update (fun other => (state.code other).length) thread
          program.length := by
    funext other
    by_cases same : other = thread
    · subst same
      simp
    · simp [Function.update_of_ne same]
  have mem : thread ∈ Finset.univ := Finset.mem_univ thread
  calc
    (state.advance thread program).remaining
        = ∑ other,
            Function.update (fun other => (state.code other).length)
              thread program.length other := by
          rw [← moved]
          rfl
    _ = program.length +
          ∑ other ∈ Finset.univ \ {thread},
            (state.code other).length :=
        Finset.sum_update_of_mem mem _ _
    _ = state.remaining + program.length := by
          unfold remaining
          rw [← Finset.sum_sdiff (Finset.subset_univ {thread}),
            Finset.sum_singleton, idle]
          simp only [List.length_nil]
          omega

end Measure

end State

section OneAtATime

variable {owner : Lock → Option Thread} {holds : Thread → Option Lock}
variable {thread other : Thread} {lock : Lock}

/-- Threads that hold at most one lock each, and the owners of the locks. -/
def Agree (owner : Lock → Option Thread) (holds : Thread → Option Lock) :
    Prop :=
  ∀ thread lock, owner lock = some thread ↔ holds thread = some lock

/-- Two threads do not hold one lock. -/
theorem Agree.exclusive
    (agree : Agree owner holds)
    (held : holds thread = some lock)
    (heldToo : holds other = some lock) :
    thread = other := by
  have first := (agree thread lock).mpr held
  rw [(agree other lock).mpr heldToo] at first
  exact (Option.some.inj first).symm

variable [DecidableEq Thread] [DecidableEq Lock]

/-- A thread without a lock takes a free one. -/
theorem Agree.take
    (agree : Agree owner holds)
    (free : owner lock = none)
    (empty : holds thread = none) :
    Agree (Function.update owner lock (some thread))
      (Function.update holds thread (some lock)) := by
  intro query wanted
  by_cases same : wanted = lock
  · subst same
    rw [Function.update_self]
    by_cases self : query = thread
    · subst self
      simp
    · have none := agree query wanted
      rw [free] at none
      rw [Function.update_of_ne self, ← none]
      simpa using fun same => self same.symm
  · rw [Function.update_of_ne same, agree query wanted]
    by_cases self : query = thread
    · subst self
      rw [Function.update_self, empty]
      simpa using fun equal => same equal.symm
    · rw [Function.update_of_ne self]

/-- A thread gives its lock back. -/
theorem Agree.give
    (agree : Agree owner holds)
    (held : holds thread = some lock) :
    Agree (Function.update owner lock none)
      (Function.update holds thread none) := by
  have own := (agree thread lock).mpr held
  intro query wanted
  by_cases same : wanted = lock
  · subst same
    rw [Function.update_self]
    by_cases self : query = thread
    · subst self
      simp
    · have others := agree query wanted
      rw [own] at others
      rw [Function.update_of_ne self, ← others]
      simpa using fun same => self same.symm
  · rw [Function.update_of_ne same, agree query wanted]
    by_cases self : query = thread
    · subst self
      rw [Function.update_self, held]
      simpa using fun equal => same equal.symm
    · rw [Function.update_of_ne self]

end OneAtATime

end FailurePlayground.Locks
