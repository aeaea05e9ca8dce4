import Mathlib.Logic.Function.Basic
import FailurePlayground.Lib.Ledger

namespace FailurePlayground.Slots

/-!
# Slots that own what they hold

A program keeps what it has acquired in slots, one resource in each at most,
and uses it only through its slot.  Then nothing is used after it was given
up, and nothing is lost unless a full slot is filled again.
-/

open Ledger

variable {n : Nat} {Resource : Type} [DecidableEq Resource]

/-- What holds of the slots and of the uses made so far. -/
structure Owned
    (slots : Fin n → Option Resource)
    (uses : List (Use Resource)) : Prop where
  /-- Nothing was used that was not in use, or acquired twice. -/
  allowed : Allowed ∅ uses
  /-- What a slot holds is in use. -/
  named : ∀ index resource,
    slots index = some resource → resource ∈ after ∅ uses
  /-- Two slots do not hold one resource. -/
  apart : ∀ first second resource,
    slots first = some resource →
    slots second = some resource → first = second

/-- Everything in use is held in a slot. -/
def Reachable
    (slots : Fin n → Option Resource)
    (uses : List (Use Resource)) : Prop :=
  ∀ resource ∈ after ∅ uses, ∃ index, slots index = some resource

/-- A full slot is filled again. -/
def Overwrites (before later : Option Resource) : Prop :=
  before ≠ none ∧ later ≠ none ∧ later ≠ before

/--
What an operation does through one slot: it may use what is there, give it up,
or take something new.
-/
inductive Operation
    (held : Finset Resource)
    (before : Option Resource) :
    Option Resource → List (Use Resource) → Prop where
  | keeps
      {uses : List (Use Resource)}
      (allowed : Allowed held uses)
      (kept : after held uses = held) :
      Operation held before before uses
  | gives
      {uses : List (Use Resource)}
      {resource : Resource}
      (full : before = some resource)
      (allowed : Allowed held uses)
      (left : ∀ other, other ∈ after held uses ↔
        other ∈ held ∧ other ≠ resource) :
      Operation held before none uses
  | takes
      {uses : List (Use Resource)}
      {resource : Resource}
      (fresh : resource ∉ held)
      (allowed : Allowed held uses)
      (gained : ∀ other, other ∈ after held uses ↔
        other ∈ held ∨ other = resource) :
      Operation held before (some resource) uses

variable
  {slots : Fin n → Option Resource}
  {uses more : List (Use Resource)}
  {index : Fin n}
  {later : Option Resource}

/-- Using what is there any number of times changes nothing. -/
theorem operation_touch
    {held : Finset Resource}
    {before : Option Resource}
    {resource : Resource}
    (there : resource ∈ held)
    (times : Nat) :
    Operation held before before
      (touch (List.replicate times resource)) := by
  refine .keeps ?_ after_touch
  rw [allowed_touch]
  intro other among
  rw [List.eq_of_mem_replicate among]
  exact there

/-- Using and then giving up what is there. -/
theorem operation_release
    {held : Finset Resource}
    {before : Option Resource}
    {resource : Resource}
    (full : before = some resource)
    (there : resource ∈ held)
    (times : Nat) :
    Operation held before none
      (touch (List.replicate times resource) ++ release [resource]) := by
  refine .gives full ?_ fun other => ?_
  · simp [there]
  · simp

/-- An operation through one slot keeps what holds of all of them. -/
theorem Owned.update
    (owned : Owned slots uses)
    (operation : Operation (after ∅ uses) (slots index) later more) :
    Owned (Function.update slots index later) (uses ++ more) := by
  have others : ∀ {other}, other ≠ index →
      Function.update slots index later other = slots other :=
    fun different => Function.update_of_ne different _ _
  have self : Function.update slots index later index = later :=
    Function.update_self _ _ _
  cases operation with
  | keeps allowed kept =>
      rw [Function.update_eq_self]
      refine ⟨allowed_append.mpr ⟨owned.allowed, allowed⟩, ?_, owned.apart⟩
      rw [after_append, kept]
      exact owned.named
  | gives full allowed left =>
      have before : ∀ {other resource},
          Function.update slots index none other = some resource →
            other ≠ index ∧ slots other = some resource := by
        intro other resource holds
        by_cases same : other = index
        · rw [same, Function.update_self] at holds
          cases holds
        · rw [others same] at holds
          exact ⟨same, holds⟩
      refine ⟨allowed_append.mpr ⟨owned.allowed, allowed⟩,
        fun other resource holds => ?_,
        fun first second resource holds holdsToo => ?_⟩
      · obtain ⟨different, held⟩ := before holds
        rw [after_append, left]
        refine ⟨owned.named other resource held, ?_⟩
        rintro rfl
        exact different (owned.apart _ _ _ held full)
      · exact owned.apart first second resource (before holds).2
          (before holdsToo).2
  | @takes _ taken fresh allowed gained =>
      have before : ∀ {other resource},
          Function.update slots index (some taken) other = some resource →
            other = index ∧ resource = taken ∨
              other ≠ index ∧ slots other = some resource := by
        intro other resource holds
        by_cases same : other = index
        · rw [same, self] at holds
          exact Or.inl ⟨same, (Option.some.inj holds).symm⟩
        · rw [others same] at holds
          exact Or.inr ⟨same, holds⟩
      refine ⟨allowed_append.mpr ⟨owned.allowed, allowed⟩,
        fun other resource holds => ?_,
        fun first second resource holds holdsToo => ?_⟩
      · rw [after_append, gained]
        rcases before holds with ⟨_, new⟩ | ⟨_, held⟩
        · exact Or.inr new
        · exact Or.inl (owned.named other resource held)
      · rcases before holds with ⟨here, new⟩ | ⟨_, held⟩
        · rcases before holdsToo with ⟨there, _⟩ | ⟨_, heldToo⟩
          · rw [here, there]
          · exact absurd (new ▸ owned.named _ _ heldToo) fresh
        · rcases before holdsToo with ⟨_, new⟩ | ⟨_, heldToo⟩
          · exact absurd (new ▸ owned.named _ _ held) fresh
          · exact owned.apart first second resource held heldToo

/-- An operation loses something exactly when it fills a full slot again. -/
theorem reachable_update_iff
    (owned : Owned slots uses)
    (operation : Operation (after ∅ uses) (slots index) later more) :
    Reachable (Function.update slots index later) (uses ++ more) ↔
      Reachable slots uses ∧ ¬ Overwrites (slots index) later := by
  have others : ∀ {other}, other ≠ index →
      Function.update slots index later other = slots other :=
    fun different => Function.update_of_ne different _ _
  cases operation with
  | keeps allowed kept =>
      have same : ¬ Overwrites (slots index) (slots index) :=
        fun overwrites => overwrites.2.2 rfl
      rw [Function.update_eq_self, Reachable, after_append, kept,
        and_iff_left same]
      rfl
  | gives full allowed left =>
      have none : ¬ Overwrites (slots index) none :=
        fun overwrites => overwrites.2.1 rfl
      rw [Reachable, after_append, and_iff_left none]
      constructor
      · intro reachable resource member
        by_cases given : slots index = some resource
        · exact ⟨index, given⟩
        · have different : resource ≠ _ := fun same =>
            given (same ▸ full)
          obtain ⟨other, holds⟩ :=
            reachable resource ((left resource).mpr ⟨member, different⟩)
          have elsewhere : other ≠ index := by
            rintro rfl
            rw [Function.update_self] at holds
            cases holds
          exact ⟨other, others elsewhere ▸ holds⟩
      · intro reachable resource member
        obtain ⟨before, different⟩ := (left resource).mp member
        obtain ⟨other, holds⟩ := reachable resource before
        have elsewhere : other ≠ index := by
          rintro rfl
          exact different (Option.some.inj (holds.symm.trans full))
        exact ⟨other, (others elsewhere).trans holds⟩
  | takes fresh allowed gained =>
      rw [Reachable, after_append]
      constructor
      · intro reachable
        have stays : ∀ resource ∈ after ∅ uses,
            ∃ other, other ≠ index ∧ slots other = some resource := by
          intro resource member
          obtain ⟨other, holds⟩ :=
            reachable resource ((gained resource).mpr (Or.inl member))
          have elsewhere : other ≠ index := by
            rintro rfl
            rw [Function.update_self] at holds
            exact fresh (Option.some.inj holds ▸ member)
          exact ⟨other, elsewhere, others elsewhere ▸ holds⟩
        refine ⟨fun resource member => ?_, fun overwrites => ?_⟩
        · obtain ⟨other, _, holds⟩ := stays resource member
          exact ⟨other, holds⟩
        · obtain ⟨lost, held⟩ :=
            Option.ne_none_iff_exists'.mp overwrites.1
          obtain ⟨other, elsewhere, holds⟩ :=
            stays lost (owned.named index lost held)
          exact elsewhere (owned.apart _ _ _ holds held)
      · rintro ⟨reachable, keeps⟩ resource member
        rcases (gained resource).mp member with before | rfl
        · obtain ⟨other, holds⟩ := reachable resource before
          have elsewhere : other ≠ index := by
            rintro rfl
            refine keeps ⟨by simp [holds], by simp, fun same => ?_⟩
            rw [holds] at same
            exact fresh (Option.some.inj same ▸ before)
          exact ⟨other, (others elsewhere).trans holds⟩
        · exact ⟨index, Function.update_self _ _ _⟩

/-- Empty slots and no uses. -/
theorem owned_empty
    (empty : ∀ index, slots index = none) :
    Owned slots [] where
  allowed := trivial
  named := fun index resource holds => by
    rw [empty index] at holds
    cases holds
  apart := fun first _ resource holds => by
    rw [empty first] at holds
    cases holds

/-- What slots that own their resources guarantee about them. -/
structure Accounted
    (slots : Fin n → Option Resource)
    (uses : List (Use Resource)) : Prop where
  /-- Nothing is given up twice, and nothing used once it was given up. -/
  allowed : Allowed ∅ uses
  /-- What a slot holds is in use and in no other slot. -/
  named : ∀ index resource, slots index = some resource →
    resource ∈ after ∅ uses ∧
      ∀ other, slots other = some resource → other = index
  /-- Every resource was given up as often as acquired, or is in use. -/
  balanced : ∀ resource,
    uses.count (.acquires resource) =
      uses.count (.releases resource) +
        holding (after ∅ uses) resource

/-- They guarantee it. -/
theorem Owned.accounted
    (owned : Owned slots uses) :
    Accounted slots uses where
  allowed := owned.allowed
  named := fun index resource holds =>
    ⟨owned.named index resource holds,
      fun _ holdsToo => owned.apart _ _ _ holdsToo holds⟩
  balanced := fun resource => by
    have balanced := balance owned.allowed resource
    have nothing : holding (∅ : Finset Resource) resource = 0 := by
      simp [holding]
    rw [nothing, Nat.zero_add] at balanced
    exact balanced

end FailurePlayground.Slots
