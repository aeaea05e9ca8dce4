import Mathlib.Data.Fintype.Card
import Mathlib.Data.List.FinRange

namespace FailurePlayground.SlotTable

/-!
# Tables searched by key

A table is a fixed array of slots; a slot in use carries a key, and the first
slot with a key is the one a search finds.  When no key is carried twice the
search is a partial map, and the slots in use can be counted.
-/

universe u v

variable
  {n : Nat}
  {Slot : Type u}
  {Key : Type v}
  {key? : Slot → Option Key}
  {table : Fin n → Slot}

/-- The first slot that carries a key. -/
def find?
    [DecidableEq Key]
    (key? : Slot → Option Key)
    (table : Fin n → Slot)
    (key : Key) : Option (Fin n) :=
  (List.finRange n).find? fun index => decide (key? (table index) = some key)

/-- No key is carried by two slots. -/
def OneEach (key? : Slot → Option Key) (table : Fin n → Slot) : Prop :=
  ∀ first second key,
    key? (table first) = some key →
    key? (table second) = some key →
    first = second

/-- The number of slots in use. -/
def used (key? : Slot → Option Key) (table : Fin n → Slot) : Nat :=
  (Finset.univ.filter fun index => (key? (table index)).isSome).card

section Search

variable [DecidableEq Key]

/-- What a search finds carries the key. -/
theorem key?_of_find?
    {key : Key}
    {index : Fin n}
    (found : find? key? table key = some index) :
    key? (table index) = some key := by
  have carries := List.find?_some found
  exact of_decide_eq_true carries

/-- A search without result means that no slot carries the key. -/
theorem key?_ne_of_find?_none
    {key : Key}
    (missing : find? key? table key = none)
    (index : Fin n) :
    key? (table index) ≠ some key := by
  have refused :=
    List.find?_eq_none.mp missing index (List.mem_finRange index)
  simpa using refused

/-- Where no key is carried twice, a slot is found by its key. -/
theorem OneEach.find?_eq
    (oneEach : OneEach key? table)
    {key : Key}
    {index : Fin n}
    (carries : key? (table index) = some key) :
    find? key? table key = some index := by
  cases found : find? key? table key with
  | none =>
      exact absurd carries (key?_ne_of_find?_none found index)
  | some other =>
      rw [oneEach other index key (key?_of_find? found) carries]

end Search

/-- Writing a key that no other slot carries keeps the keys apart. -/
theorem OneEach.update
    (oneEach : OneEach key? table)
    {index : Fin n}
    {slot : Slot}
    (fresh :
      ∀ other key,
        other ≠ index →
        key? slot = some key →
        key? (table other) ≠ some key) :
    OneEach key? (Function.update table index slot) := by
  intro first second key firstCarries secondCarries
  by_cases firstHere : first = index
  · by_cases secondHere : second = index
    · rw [firstHere, secondHere]
    · subst firstHere
      rw [Function.update_self] at firstCarries
      rw [Function.update_of_ne secondHere] at secondCarries
      exact absurd secondCarries (fresh second key secondHere firstCarries)
  · rw [Function.update_of_ne firstHere] at firstCarries
    by_cases secondHere : second = index
    · subst secondHere
      rw [Function.update_self] at secondCarries
      exact absurd firstCarries (fresh first key firstHere secondCarries)
    · rw [Function.update_of_ne secondHere] at secondCarries
      exact oneEach first second key firstCarries secondCarries

/-- Freeing or rewriting a slot in place keeps the keys apart. -/
theorem OneEach.rewrite
    (oneEach : OneEach key? table)
    {index : Fin n}
    {slot : Slot}
    (kept : ∀ key, key? slot = some key → key? (table index) = some key) :
    OneEach key? (Function.update table index slot) := by
  refine oneEach.update ?_
  intro other key different carries otherCarries
  exact different
    (oneEach other index key otherCarries (kept key carries))

/-- Taking a free slot into use adds one. -/
theorem used_update_taken
    {index : Fin n}
    {slot : Slot}
    (free : key? (table index) = none)
    (taken : (key? slot).isSome) :
    used key? (Function.update table index slot) = used key? table + 1 := by
  have members :
      (Finset.univ.filter fun other =>
          (key? (Function.update table index slot other)).isSome) =
        insert index
          (Finset.univ.filter fun other => (key? (table other)).isSome) := by
    ext other
    by_cases here : other = index
    · subst here
      simp [taken]
    · simp [here]
  rw [used, members, Finset.card_insert_of_notMem (by simp [free]), used]

/-- Freeing a slot in use takes one away. -/
theorem used_update_freed
    {index : Fin n}
    {slot : Slot}
    (inUse : (key? (table index)).isSome)
    (freed : key? slot = none) :
    used key? (Function.update table index slot) + 1 = used key? table := by
  have restored :
      Function.update (Function.update table index slot) index
          (table index) = table := by
    rw [Function.update_idem, Function.update_eq_self]
  rw [← used_update_taken (by rw [Function.update_self, freed]) inUse,
    restored]

/-- Rewriting a slot in use keeps the number. -/
theorem used_update_same
    {index : Fin n}
    {slot : Slot}
    (same : (key? slot).isSome = (key? (table index)).isSome) :
    used key? (Function.update table index slot) = used key? table := by
  have members :
      (Finset.univ.filter fun other =>
          (key? (Function.update table index slot other)).isSome) =
        Finset.univ.filter fun other => (key? (table other)).isSome := by
    ext other
    by_cases here : other = index
    · subst here
      simp [same]
    · simp [Function.update_of_ne here]
  rw [used, members, used]

/-- A table has as many slots in use as slots exactly when none is free. -/
theorem used_eq_iff :
    used key? table = n ↔ ∀ index, (key? (table index)).isSome := by
  constructor
  · intro full index
    have card :
        (Finset.univ.filter fun other : Fin n =>
          (key? (table other)).isSome).card = Fintype.card (Fin n) := by
      rw [Fintype.card_fin]
      exact full
    have member :=
      Finset.eq_univ_iff_forall.mp (Finset.card_eq_iff_eq_univ _ |>.mp card)
        index
    simpa using member
  · intro all
    rw [used, Finset.filter_true_of_mem fun index _ => all index,
      Finset.card_univ, Fintype.card_fin]

/-- There are no more slots in use than slots. -/
theorem used_le : used key? table ≤ n := by
  have bound :=
    Finset.card_filter_le (Finset.univ : Finset (Fin n))
      fun index => (key? (table index)).isSome
  rwa [Finset.card_univ, Fintype.card_fin] at bound

end FailurePlayground.SlotTable
