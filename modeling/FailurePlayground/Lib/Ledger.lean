import Mathlib.Data.Finset.Union

namespace FailurePlayground

/-!
# A ledger of resources

A program acquires resources, uses them and releases them.  A sequence of uses
is allowed when it acquires only what is not held, and touches and releases
only what is held; then nothing is released twice, and nothing is used after
it has been released.
-/

/-- A use of a resource. -/
inductive Use (Resource : Type) where
  | acquires (resource : Resource)
  | touches (resource : Resource)
  | releases (resource : Resource)
  deriving Repr, DecidableEq

namespace Ledger

variable {Resource : Type} [DecidableEq Resource]

/-- What is held after a use. -/
def apply (held : Finset Resource) : Use Resource → Finset Resource
  | .acquires resource => insert resource held
  | .touches _ => held
  | .releases resource => held.erase resource

/-- What is held after some uses. -/
def after (held : Finset Resource) (uses : List (Use Resource)) :
    Finset Resource :=
  uses.foldl apply held

/-- A use is allowed. -/
def Permits (held : Finset Resource) : Use Resource → Prop
  | .acquires resource => resource ∉ held
  | .touches resource | .releases resource => resource ∈ held

instance (held : Finset Resource) : (use : Use Resource) →
    Decidable (Permits held use)
  | .acquires resource => inferInstanceAs (Decidable (resource ∉ held))
  | .touches resource | .releases resource =>
      inferInstanceAs (Decidable (resource ∈ held))

/-- Each use is allowed when its turn comes. -/
def Allowed (held : Finset Resource) : List (Use Resource) → Prop
  | [] => True
  | use :: rest => Permits held use ∧ Allowed (apply held use) rest

instance : (held : Finset Resource) → (uses : List (Use Resource)) →
    Decidable (Allowed held uses)
  | _, [] => inferInstanceAs (Decidable True)
  | held, use :: rest =>
      have := instDecidableAllowed (apply held use) rest
      inferInstanceAs (Decidable (_ ∧ _))

variable
  {held : Finset Resource}
  {uses others : List (Use Resource)}

@[simp] theorem after_nil (held : Finset Resource) :
    after held [] = held := rfl

@[simp] theorem after_cons
    (held : Finset Resource)
    (use : Use Resource)
    (rest : List (Use Resource)) :
    after held (use :: rest) = after (apply held use) rest := rfl

@[simp] theorem after_append :
    after held (uses ++ others) = after (after held uses) others :=
  List.foldl_append

@[simp] theorem allowed_append :
    Allowed held (uses ++ others) ↔
      Allowed held uses ∧ Allowed (after held uses) others := by
  induction uses generalizing held with
  | nil =>
      simp [Allowed]
  | cons use rest inductionHypothesis =>
      rw [List.cons_append, Allowed, Allowed, inductionHypothesis,
        and_assoc, after_cons]

section Lists

variable {resources : List Resource}

/-- Acquire some resources, one after the other. -/
def acquire (resources : List Resource) : List (Use Resource) :=
  resources.map .acquires

/-- Touch some resources, one after the other. -/
def touch (resources : List Resource) : List (Use Resource) :=
  resources.map .touches

/-- Release some resources, one after the other. -/
def release (resources : List Resource) : List (Use Resource) :=
  resources.map .releases

@[simp] theorem mem_after_acquire
    {resource : Resource} :
    resource ∈ after held (acquire resources) ↔
      resource ∈ held ∨ resource ∈ resources := by
  induction resources generalizing held with
  | nil =>
      simp [acquire]
  | cons first rest inductionHypothesis =>
      have next := @inductionHypothesis (insert first held)
      simp only [acquire] at next
      simp only [acquire, List.map_cons, after_cons, apply, next,
        Finset.mem_insert, List.mem_cons]
      tauto

@[simp] theorem after_touch :
    after held (touch resources) = held := by
  induction resources with
  | nil =>
      rfl
  | cons first rest inductionHypothesis =>
      exact inductionHypothesis

@[simp] theorem mem_after_release
    {resource : Resource} :
    resource ∈ after held (release resources) ↔
      resource ∈ held ∧ resource ∉ resources := by
  induction resources generalizing held with
  | nil =>
      simp [release]
  | cons first rest inductionHypothesis =>
      have next := @inductionHypothesis (held.erase first)
      simp only [release] at next
      simp only [release, List.map_cons, after_cons, apply, next,
        Finset.mem_erase, List.mem_cons]
      tauto

/-- Only what is fresh may be acquired, and only once. -/
@[simp] theorem allowed_acquire :
    Allowed held (acquire resources) ↔
      resources.Nodup ∧ ∀ resource ∈ resources, resource ∉ held := by
  induction resources generalizing held with
  | nil =>
      simp [acquire, Allowed]
  | cons first rest inductionHypothesis =>
      have next := @inductionHypothesis (insert first held)
      simp only [acquire] at next
      simp only [acquire, List.map_cons, Allowed, Permits, apply, next,
        Finset.mem_insert, not_or, List.nodup_cons, List.forall_mem_cons]
      constructor
      · rintro ⟨fresh, nodup, apart⟩
        exact
          ⟨⟨fun again => (apart first again).1 rfl, nodup⟩, fresh,
            fun resource member => (apart resource member).2⟩
      · rintro ⟨⟨once, nodup⟩, fresh, apart⟩
        exact
          ⟨fresh, nodup, fun resource member =>
            ⟨fun same => once (same ▸ member), apart resource member⟩⟩

/-- Only what is held may be touched. -/
@[simp] theorem allowed_touch :
    Allowed held (touch resources) ↔
      ∀ resource ∈ resources, resource ∈ held := by
  induction resources with
  | nil =>
      simp [touch, Allowed]
  | cons first rest inductionHypothesis =>
      simp only [touch] at inductionHypothesis
      simp only [touch, List.map_cons, Allowed, Permits, apply,
        inductionHypothesis, List.forall_mem_cons]

/-- Only what is held may be released, and only once. -/
@[simp] theorem allowed_release :
    Allowed held (release resources) ↔
      resources.Nodup ∧ ∀ resource ∈ resources, resource ∈ held := by
  induction resources generalizing held with
  | nil =>
      simp [release, Allowed]
  | cons first rest inductionHypothesis =>
      have next := @inductionHypothesis (held.erase first)
      simp only [release] at next
      simp only [release, List.map_cons, Allowed, Permits, apply, next,
        Finset.mem_erase, List.nodup_cons, List.forall_mem_cons]
      constructor
      · rintro ⟨first', nodup, apart⟩
        exact
          ⟨⟨fun again => (apart first again).1 rfl, nodup⟩, first',
            fun resource member => (apart resource member).2⟩
      · rintro ⟨⟨once, nodup⟩, first', apart⟩
        exact
          ⟨first', nodup, fun resource member =>
            ⟨fun same => once (same ▸ member), apart resource member⟩⟩

/-- Fresh resources may be acquired and released again. -/
theorem allowed_acquire_release
    (distinct : resources.Nodup)
    (fresh : ∀ resource ∈ resources, resource ∉ held) :
    Allowed held (acquire resources ++ release resources) := by
  simp only [allowed_append, allowed_acquire, allowed_release,
    mem_after_acquire]
  exact
    ⟨⟨distinct, fresh⟩, distinct, fun resource member => Or.inr member⟩

/-- That leaves what was held before. -/
theorem after_acquire_release
    (fresh : ∀ resource ∈ resources, resource ∉ held) :
    after held (acquire resources ++ release resources) = held := by
  ext resource
  simp only [after_append, mem_after_release, mem_after_acquire]
  constructor
  · rintro ⟨there | new, other⟩
    · exact there
    · exact absurd new other
  · intro there
    exact ⟨Or.inl there, fun new => fresh resource new there⟩

/-- Distinct resources are each acquired once. -/
theorem count_acquires_le_one
    (distinct : resources.Nodup)
    (resource : Resource) :
    (acquire resources ++ release resources).count
        (.acquires resource) ≤ 1 := by
  have none : (release resources).count (.acquires resource) = 0 := by
    rw [List.count_eq_zero, release]
    simp
  have once : (acquire resources).Nodup := by
    refine List.Nodup.map ?_ distinct
    intro first second same
    exact Use.acquires.inj same
  rw [List.count_append, none]
  exact List.nodup_iff_count_le_one.mp once (.acquires resource)

end Lists

/-- How often a resource is held: once or not at all. -/
def holding (held : Finset Resource) (resource : Resource) : Nat :=
  if resource ∈ held then 1 else 0

/-- One use moves a resource between what is held and what is not. -/
theorem balance_step
    {use : Use Resource}
    (permitted : Permits held use)
    (resource : Resource) :
    holding held resource + [use].count (.acquires resource) =
      [use].count (.releases resource) +
        holding (apply held use) resource := by
  cases use with
  | acquires other =>
      by_cases same : other = resource
      · subst same
        have fresh : other ∉ held := permitted
        simp [holding, apply, fresh]
      · have apart : resource ≠ other := fun back => same back.symm
        simp [holding, apply, same, apart]
  | touches other =>
      rw [apply, Nat.add_comm]
      simp
  | releases other =>
      by_cases same : other = resource
      · subst same
        have there : other ∈ held := permitted
        simp [holding, apply, there]
      · have apart : resource ≠ other := fun back => same back.symm
        simp [holding, apply, same, apart]

/--
Over an allowed sequence what is held at first and acquired is what is
released and held at last.
-/
theorem balance
    (allowed : Allowed held uses)
    (resource : Resource) :
    holding held resource + uses.count (.acquires resource) =
      uses.count (.releases resource) +
        holding (after held uses) resource := by
  induction uses generalizing held with
  | nil =>
      simp
  | cons use rest inductionHypothesis =>
      obtain ⟨permitted, later⟩ := allowed
      have first := balance_step permitted resource
      have next := inductionHypothesis later
      rw [after_cons, ← List.singleton_append, List.count_append,
        List.count_append]
      omega

end Ledger

end FailurePlayground
