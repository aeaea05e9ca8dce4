import Mathlib.Data.List.Basic

namespace FailurePlayground.Transition

/-!
# Finite runs of a partial step function

A system is given by one executable step function: it takes a state and a
label, and returns the next state when the label is enabled.  A label names
both the party that moves and every choice the environment makes for it, so
quantifying over label lists quantifies over all interleavings and all
environment choices at once.

The rules below are the only inductions over runs that a development needs:
an invariant along a run, an invariant along the runs whose steps all meet a
guard, an invariant that also speaks about the labels executed so far, and the
existence of a run that reaches a goal.
-/

universe u v w

variable {State : Type u} {Label : Type v}

/-- Execute a finite label list, failing at the first disabled label. -/
def run?
    (step? : State → Label → Option State) :
    State → List Label → Option State
  | state, [] =>
      some state
  | state, label :: rest =>
      match step? state label with
      | none => none
      | some next => run? step? next rest

/-- Every step of a run meets a condition on the state before it and its label. -/
def EachStep
    (step? : State → Label → Option State)
    (guard : State → Label → Prop) :
    State → List Label → Prop
  | _, [] =>
      True
  | state, label :: rest =>
      guard state label ∧
        match step? state label with
        | none => True
        | some next => EachStep step? guard next rest

/-- A decidable guard can be checked along a whole run. -/
instance decidableEachStep
    (step? : State → Label → Option State)
    (guard : State → Label → Prop)
    [∀ state label, Decidable (guard state label)] :
    (state : State) → (labels : List Label) →
      Decidable (EachStep step? guard state labels)
  | _, [] =>
      inferInstanceAs (Decidable True)
  | state, label :: rest =>
      have : Decidable
          (match step? state label with
          | none => True
          | some next => EachStep step? guard next rest) :=
        match step? state label with
        | none => inferInstanceAs (Decidable True)
        | some next => decidableEachStep step? guard next rest
      inferInstanceAs (Decidable (guard state label ∧ _))

/-- What is seen of the steps of a run, one after the other. -/
def observed
    {Observation : Type w}
    (step? : State → Label → Option State)
    (see : State → Label → List Observation) :
    State → List Label → List Observation
  | _, [] =>
      []
  | state, label :: rest =>
      see state label ++
        match step? state label with
        | none => []
        | some next => observed step? see next rest

variable {step? : State → Label → Option State}

@[simp] theorem run?_nil (state : State) :
    run? step? state [] = some state := rfl

/-- A nonempty run is one enabled step followed by a run. -/
theorem run?_cons_eq_some
    {state final : State}
    {label : Label}
    {rest : List Label} :
    run? step? state (label :: rest) = some final ↔
      ∃ next, step? state label = some next ∧
        run? step? next rest = some final := by
  change (match step? state label with
    | none => none
    | some next => run? step? next rest) = some final ↔ _
  cases step? state label with
  | none =>
      constructor
      · rintro ⟨⟩
      · rintro ⟨_, ⟨⟩, _⟩
  | some next =>
      refine ⟨fun ran => ⟨next, rfl, ran⟩, ?_⟩
      rintro ⟨_, taken, ran⟩
      exact Option.some.inj taken ▸ ran

/-- Two runs, the second from where the first has ended, make one. -/
theorem run?_append
    {initial middle final : State}
    {labels later : List Label}
    (ran : run? step? initial labels = some middle)
    (ranLater : run? step? middle later = some final) :
    run? step? initial (labels ++ later) = some final := by
  induction labels generalizing initial with
  | nil =>
      simp only [run?_nil, Option.some.injEq] at ran
      exact ran ▸ ranLater
  | cons label rest inductionHypothesis =>
      obtain ⟨next, taken, ranRest⟩ := run?_cons_eq_some.mp ran
      exact run?_cons_eq_some.mpr
        ⟨next, taken, inductionHypothesis ranRest⟩

/-- A condition on the steps of two runs in a row is met by the second. -/
theorem eachStep_later
    {guard : State → Label → Prop}
    {initial middle : State}
    {labels later : List Label}
    (ran : run? step? initial labels = some middle)
    (guarded : EachStep step? guard initial (labels ++ later)) :
    EachStep step? guard middle later := by
  induction labels generalizing initial with
  | nil =>
      simp only [run?_nil, Option.some.injEq] at ran
      exact ran ▸ guarded
  | cons label rest inductionHypothesis =>
      obtain ⟨next, taken, ranRest⟩ := run?_cons_eq_some.mp ran
      have guardedRest := guarded.2
      rw [taken] at guardedRest
      exact inductionHypothesis ranRest guardedRest

/-- An invariant of every guarded step holds after a run of guarded steps. -/
theorem run?_invariant_of_eachStep
    {guard : State → Label → Prop}
    {invariant : State → Prop}
    (preserved :
      ∀ {state label next},
        invariant state →
        guard state label →
        step? state label = some next →
        invariant next)
    {initial final : State}
    {labels : List Label}
    (ran : run? step? initial labels = some final)
    (guarded : EachStep step? guard initial labels)
    (initially : invariant initial) :
    invariant final := by
  induction labels generalizing initial with
  | nil =>
      simp only [run?_nil, Option.some.injEq] at ran
      exact ran ▸ initially
  | cons label rest inductionHypothesis =>
      obtain ⟨next, taken, ranRest⟩ := run?_cons_eq_some.mp ran
      have guardedRest := guarded.2
      rw [taken] at guardedRest
      exact inductionHypothesis ranRest guardedRest
        (preserved initially guarded.1 taken)

/-- Along a run an invariant turns one condition on steps into another. -/
theorem eachStep_mono
    {guard implied : State → Label → Prop}
    {invariant : State → Prop}
    (preserved :
      ∀ {state label next},
        invariant state →
        guard state label →
        step? state label = some next →
        invariant next)
    (implies :
      ∀ {state label next},
        invariant state →
        guard state label →
        step? state label = some next →
        implied state label)
    {initial final : State}
    {labels : List Label}
    (ran : run? step? initial labels = some final)
    (guarded : EachStep step? guard initial labels)
    (initially : invariant initial) :
    EachStep step? implied initial labels := by
  induction labels generalizing initial with
  | nil =>
      trivial
  | cons label rest inductionHypothesis =>
      obtain ⟨next, taken, ranRest⟩ := run?_cons_eq_some.mp ran
      have guardedRest := guarded.2
      rw [taken] at guardedRest
      refine ⟨implies initially guarded.1 taken, ?_⟩
      rw [taken]
      exact inductionHypothesis ranRest guardedRest
        (preserved initially guarded.1 taken)

/--
When a property of the state reached already held before each step, what a
step that reaches it must have met is met by every step of the run.
-/
theorem eachStep_of_final
    {guard : State → Label → Prop}
    {invariant holds : State → Prop}
    (preserved :
      ∀ {state label next},
        invariant state →
        step? state label = some next →
        invariant next)
    (earlier :
      ∀ {state label next},
        step? state label = some next → holds next → holds state)
    (implies :
      ∀ {state label next},
        invariant state →
        step? state label = some next →
        holds next →
        guard state label)
    {initial final : State}
    {labels : List Label}
    (ran : run? step? initial labels = some final)
    (initially : invariant initial)
    (reached : holds final) :
    EachStep step? guard initial labels ∧ holds initial := by
  induction labels generalizing initial with
  | nil =>
      simp only [run?_nil, Option.some.injEq] at ran
      exact ⟨trivial, ran ▸ reached⟩
  | cons label rest inductionHypothesis =>
      obtain ⟨next, taken, ranRest⟩ := run?_cons_eq_some.mp ran
      obtain ⟨guardedRest, holdsNext⟩ :=
        inductionHypothesis ranRest (preserved initially taken)
      refine ⟨⟨implies initially taken holdsNext, ?_⟩,
        earlier taken holdsNext⟩
      rw [taken]
      exact guardedRest

/--
What each step of some kind keeps exactly under a condition holds after a run
of such steps exactly when it held before and every step met the condition.
-/
theorem run?_iff_eachStep
    {kind guard : State → Label → Prop}
    {invariant good : State → Prop}
    (preserved :
      ∀ {state label next},
        invariant state →
        kind state label →
        step? state label = some next →
        invariant next)
    (exact :
      ∀ {state label next},
        invariant state →
        kind state label →
        step? state label = some next →
        (good next ↔ good state ∧ guard state label))
    {initial final : State}
    {labels : List Label}
    (ran : run? step? initial labels = some final)
    (all : EachStep step? kind initial labels)
    (initially : invariant initial) :
    good final ↔ good initial ∧ EachStep step? guard initial labels := by
  induction labels generalizing initial with
  | nil =>
      simp only [run?_nil, Option.some.injEq] at ran
      rw [ran, EachStep, and_true]
  | cons label rest inductionHypothesis =>
      obtain ⟨next, taken, ranRest⟩ := run?_cons_eq_some.mp ran
      have allRest := all.2
      rw [taken] at allRest
      rw [inductionHypothesis ranRest allRest
          (preserved initially all.1 taken),
        exact initially all.1 taken, EachStep, taken, and_assoc]

/-- Two conditions that every step meets are met together. -/
theorem eachStep_and
    {first second : State → Label → Prop}
    {labels : List Label}
    {state : State}
    (one : EachStep step? first state labels)
    (two : EachStep step? second state labels) :
    EachStep step? (fun state label => first state label ∧ second state label)
      state labels := by
  induction labels generalizing state with
  | nil =>
      trivial
  | cons label rest inductionHypothesis =>
      refine ⟨⟨one.1, two.1⟩, ?_⟩
      have oneRest := one.2
      have twoRest := two.2
      cases taken : step? state label with
      | none =>
          trivial
      | some next =>
          rw [taken] at oneRest twoRest
          exact inductionHypothesis oneRest twoRest

/-- A guard on labels alone is met when every label of the run meets it. -/
theorem eachStep_of_forall
    {admissible : Label → Prop}
    {labels : List Label}
    (all : ∀ label ∈ labels, admissible label)
    (state : State) :
    EachStep step? (fun _ label => admissible label) state labels := by
  induction labels generalizing state with
  | nil =>
      trivial
  | cons label rest inductionHypothesis =>
      refine ⟨all label List.mem_cons_self, ?_⟩
      have allRest : ∀ other ∈ rest, admissible other :=
        fun other member =>
          all other (List.mem_cons_of_mem label member)
      cases step? state label with
      | none =>
          trivial
      | some next =>
          exact inductionHypothesis allRest next

/-- An invariant of every step holds after every run. -/
theorem run?_invariant
    {invariant : State → Prop}
    (preserved :
      ∀ {state label next},
        invariant state →
        step? state label = some next →
        invariant next)
    {initial final : State}
    {labels : List Label}
    (ran : run? step? initial labels = some final)
    (initially : invariant initial) :
    invariant final :=
  run?_invariant_of_eachStep
    (fun holds (_ : True) taken => preserved holds taken) ran
    (eachStep_of_forall (fun _ _ => trivial) initial) initially

/--
An invariant that relates the labels executed so far to the state reached
holds after every run whose steps meet the guard.
-/
theorem run?_history
    {guard : State → Label → Prop}
    (invariant : List Label → State → Prop)
    {initial : State}
    (initially : invariant [] initial)
    (preserved :
      ∀ {earlier state label next},
        invariant earlier state →
        guard state label →
        step? state label = some next →
        invariant (earlier ++ [label]) next)
    {final : State}
    {labels : List Label}
    (ran : run? step? initial labels = some final)
    (guarded : EachStep step? guard initial labels) :
    invariant labels final := by
  have general :
      ∀ (later earlier : List Label) (state : State),
        invariant earlier state →
        EachStep step? guard state later →
        run? step? state later = some final →
        invariant (earlier ++ later) final := by
    intro later
    induction later with
    | nil =>
        intro earlier state holds _ ranLater
        simp only [run?_nil, Option.some.injEq] at ranLater
        simpa [ranLater] using holds
    | cons label rest inductionHypothesis =>
        intro earlier state holds guardedLater ranLater
        obtain ⟨next, taken, ranRest⟩ :=
          run?_cons_eq_some.mp ranLater
        have holdsNext := preserved holds guardedLater.1 taken
        have guardedRest := guardedLater.2
        rw [taken] at guardedRest
        simpa using
          inductionHypothesis (earlier ++ [label]) next
            holdsNext guardedRest ranRest
  exact general labels [] initial initially guarded ran

/--
An invariant that relates what was seen of a run to the state reached holds
after every run.
-/
theorem run?_observed
    {Observation : Type w}
    {see : State → Label → List Observation}
    (invariant : List Observation → State → Prop)
    {initial : State}
    (initially : invariant [] initial)
    (preserved :
      ∀ {seen state label next},
        invariant seen state →
        step? state label = some next →
        invariant (seen ++ see state label) next)
    {final : State}
    {labels : List Label}
    (ran : run? step? initial labels = some final) :
    invariant (observed step? see initial labels) final := by
  have general :
      ∀ (later : List Label) (seen : List Observation) (state : State),
        invariant seen state →
        run? step? state later = some final →
        invariant (seen ++ observed step? see state later) final := by
    intro later
    induction later with
    | nil =>
        intro seen state holds ranLater
        simp only [run?_nil, Option.some.injEq] at ranLater
        rw [observed, List.append_nil, ← ranLater]
        exact holds
    | cons label rest inductionHypothesis =>
        intro seen state holds ranLater
        obtain ⟨next, taken, ranRest⟩ :=
          run?_cons_eq_some.mp ranLater
        simp only [observed, taken]
        rw [← List.append_assoc]
        exact inductionHypothesis _ next (preserved holds taken) ranRest
  exact general labels [] initial initially ran

/-- What every step of some kind shows is seen of a run of such steps. -/
theorem forall_observed
    {Observation : Type w}
    {see : State → Label → List Observation}
    {shown : Observation → Prop}
    {kind : State → Label → Prop}
    {invariant : State → Prop}
    (preserved :
      ∀ {state label next},
        invariant state →
        kind state label →
        step? state label = some next →
        invariant next)
    (shows :
      ∀ {state label},
        invariant state →
        kind state label →
        ∀ observation ∈ see state label, shown observation)
    {initial final : State}
    {labels : List Label}
    (ran : run? step? initial labels = some final)
    (all : EachStep step? kind initial labels)
    (initially : invariant initial) :
    ∀ observation ∈ observed step? see initial labels,
      shown observation := by
  induction labels generalizing initial with
  | nil =>
      simp [observed]
  | cons label rest inductionHypothesis =>
      obtain ⟨next, taken, ranRest⟩ := run?_cons_eq_some.mp ran
      have allRest := all.2
      rw [taken] at allRest
      intro observation member
      simp only [observed, taken, List.mem_append] at member
      rcases member with here | later
      · exact shows initially all.1 observation here
      · exact inductionHypothesis ranRest allRest
          (preserved initially all.1 taken) observation later

/--
If every state short of the goal has an enabled step of the chosen kind that
keeps the invariant and reaches the goal or lowers a measure, then a run of
such steps reaches the goal.
-/
theorem exists_chosen_run_to_goal
    {invariant goal : State → Prop}
    {chosen : Label → Prop}
    (measure : State → Nat)
    (progress :
      ∀ state,
        invariant state →
        ¬ goal state →
        ∃ label next,
          chosen label ∧
            step? state label = some next ∧
            invariant next ∧
            (goal next ∨ measure next < measure state))
    {initial : State}
    (initially : invariant initial) :
    ∃ labels final,
      (∀ label ∈ labels, chosen label) ∧
        run? step? initial labels = some final ∧
        invariant final ∧ goal final := by
  by_cases reached : goal initial
  · exact ⟨[], initial, List.forall_mem_nil _, rfl, initially, reached⟩
  · obtain ⟨label, next, isChosen, taken, holds, lower⟩ :=
      progress initial initially reached
    by_cases reachedNext : goal next
    · exact ⟨[label], next, List.forall_mem_singleton.mpr isChosen,
        run?_cons_eq_some.mpr ⟨next, taken, rfl⟩, holds, reachedNext⟩
    · have decreased := lower.resolve_left reachedNext
      obtain ⟨labels, final, allChosen, ran, holdsFinal, atGoal⟩ :=
        exists_chosen_run_to_goal measure progress holds
      exact ⟨label :: labels, final,
        List.forall_mem_cons.mpr ⟨isChosen, allChosen⟩,
        run?_cons_eq_some.mpr ⟨next, taken, ran⟩, holdsFinal, atGoal⟩
termination_by measure initial

/-- The same with steps of any kind. -/
theorem exists_run_to_goal
    {invariant goal : State → Prop}
    (measure : State → Nat)
    (progress :
      ∀ state,
        invariant state →
        ¬ goal state →
        ∃ label next,
          step? state label = some next ∧
            invariant next ∧
            (goal next ∨ measure next < measure state))
    {initial : State}
    (initially : invariant initial) :
    ∃ labels final,
      run? step? initial labels = some final ∧
        invariant final ∧ goal final := by
  obtain ⟨labels, final, _, ran⟩ :=
    @exists_chosen_run_to_goal _ _ step? _ _ (fun _ => True) measure
      (fun state holds short =>
        have ⟨label, next, found⟩ := progress state holds short
        ⟨label, next, trivial, found⟩)
      _ initially
  exact ⟨labels, final, ran⟩

/--
If productive steps lower a measure until a stable goal is reached and the
other steps never raise it, then a run with more productive steps than the
measure allows has reached the goal.
-/
theorem goal_of_productive_steps
    {guard : State → Label → Prop}
    {invariant goal : State → Prop}
    (productive : Label → Bool)
    (measure : State → Nat)
    (preserved :
      ∀ {state label next},
        invariant state →
        guard state label →
        step? state label = some next →
        invariant next)
    (stable :
      ∀ {state label next},
        goal state → step? state label = some next → goal next)
    (lowered :
      ∀ {state label next},
        invariant state →
        guard state label →
        step? state label = some next →
        productive label = true →
        goal next ∨ measure next < measure state)
    (kept :
      ∀ {state label next},
        invariant state →
        guard state label →
        step? state label = some next →
        productive label = false →
        measure next ≤ measure state)
    {initial final : State}
    {labels : List Label}
    (ran : run? step? initial labels = some final)
    (guarded : EachStep step? guard initial labels)
    (initially : invariant initial)
    (many : measure initial < labels.countP productive) :
    goal final := by
  induction labels generalizing initial with
  | nil =>
      exact absurd many (Nat.not_lt_zero _)
  | cons label rest inductionHypothesis =>
      obtain ⟨next, taken, ranRest⟩ := run?_cons_eq_some.mp ran
      have holds := preserved initially guarded.1 taken
      have guardedRest := guarded.2
      rw [taken] at guardedRest
      cases work : productive label with
      | false =>
          have notRaised := kept initially guarded.1 taken work
          rw [List.countP_cons_of_neg (by simp [work])] at many
          exact inductionHypothesis ranRest guardedRest holds
            (by omega)
      | true =>
          rcases lowered initially guarded.1 taken work with
            reached | lower
          · exact run?_invariant stable ranRest reached
          · rw [List.countP_cons_of_pos work] at many
            exact inductionHypothesis ranRest guardedRest holds
              (by omega)

/-- A measure that productive steps always lower bounds their number. -/
theorem countP_productive_le
    {guard : State → Label → Prop}
    {invariant : State → Prop}
    (productive : Label → Bool)
    (measure : State → Nat)
    (preserved :
      ∀ {state label next},
        invariant state →
        guard state label →
        step? state label = some next →
        invariant next)
    (lowered :
      ∀ {state label next},
        invariant state →
        guard state label →
        step? state label = some next →
        productive label = true →
        measure next < measure state)
    (kept :
      ∀ {state label next},
        invariant state →
        guard state label →
        step? state label = some next →
        productive label = false →
        measure next ≤ measure state)
    {initial final : State}
    {labels : List Label}
    (ran : run? step? initial labels = some final)
    (guarded : EachStep step? guard initial labels)
    (initially : invariant initial) :
    labels.countP productive ≤ measure initial := by
  refine Nat.le_of_not_lt fun many => ?_
  have never : ∀ {state : State} {label : Label} {next : State},
      False → step? state label = some next → False :=
    fun absurd _ => absurd
  exact goal_of_productive_steps productive measure preserved never
    (fun holds guardedStep taken work =>
      Or.inr (lowered holds guardedStep taken work))
    kept ran guarded initially many

end FailurePlayground.Transition
