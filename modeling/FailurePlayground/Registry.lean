import Mathlib.Data.List.ReduceOption
import FailurePlayground.Lib.Bytes

namespace FailurePlayground.Scenarios

/-!
# The registry of scenarios

Constructors add their scenarios before `main` runs, in an order the linker
chooses.  The table has a fixed number of entries; a scenario that finds it
full is left out without a word.
-/

/-- `PG_REG_MAX`. -/
def pgRegMax : Nat := 256

/-- What the registry and `list_scenarios` read of a `pg_scenario_t`. -/
structure PgScenario where
  id : List UInt8
  title : List UInt8
  category : UInt32
  deriving Repr, DecidableEq

/-- `pg_category_name`. -/
def pgCategoryName (cat : UInt32) : List UInt8 :=
  match cat with
  | 0 => Bytes.ascii "concurrency"
  | 1 => Bytes.ascii "memory"
  | 2 => Bytes.ascii "network"
  | 3 => Bytes.ascii "timeio"
  | 4 => Bytes.ascii "compound"
  | _ => Bytes.ascii "?"

/-- `g_reg` up to `g_reg_n`. -/
structure Registry where
  entries : List PgScenario
  bounded : entries.length ≤ pgRegMax

/-- The registry before the first constructor. -/
def empty : Registry where
  entries := []
  bounded := Nat.zero_le _

/-- `pg_registry_add`; `none` is a null pointer. -/
def pgRegistryAdd (registry : Registry) (s : Option PgScenario) : Registry :=
  match s with
  | none => registry
  | some s =>
      if room : registry.entries.length < pgRegMax then
        { entries := registry.entries ++ [s]
          bounded := by
            rw [List.length_append]
            exact room }
      else
        registry

/-- `pg_registry_list`. -/
def pgRegistryList (registry : Registry) : List PgScenario :=
  registry.entries

/-- `pg_registry_find`; `none` is a null pointer. -/
def pgRegistryFind
    (registry : Registry)
    (id : Option (List UInt8)) : Option PgScenario :=
  match id with
  | none => none
  | some id => registry.entries.find? fun s => s.id == id

/-- The registry after some constructors have run. -/
def registered (calls : List (Option PgScenario)) : Registry :=
  calls.foldl pgRegistryAdd empty

/-- Cutting a list off first changes nothing about where it is cut off. -/
theorem take_take_append (n : Nat) (first second : List PgScenario) :
    (first.take n ++ second).take n = (first ++ second).take n := by
  have room : n - min n first.length = n - first.length := by
    omega
  rw [List.take_append, List.take_append, List.take_take, Nat.min_self,
    List.length_take, room]

/-- An addition is kept as long as there is room. -/
theorem entries_pgRegistryAdd
    (registry : Registry)
    (s : Option PgScenario) :
    (pgRegistryAdd registry s).entries =
      (registry.entries ++ s.toList).take pgRegMax := by
  have bounded := registry.bounded
  cases s with
  | none =>
      rw [Option.toList_none, List.append_nil,
        List.take_of_length_le bounded]
      rfl
  | some s =>
      simp only [pgRegistryAdd, Option.toList_some]
      split
      · rename_i room
        rw [List.take_of_length_le]
        rw [List.length_append]
        exact room
      · rename_i full
        rw [List.take_append_of_le_length (by omega),
          List.take_of_length_le bounded]

/-- Adding goes on where the entries end. -/
theorem entries_foldl_pgRegistryAdd
    (registry : Registry)
    (calls : List (Option PgScenario)) :
    (calls.foldl pgRegistryAdd registry).entries =
      (registry.entries ++ calls.reduceOption).take pgRegMax := by
  induction calls generalizing registry with
  | nil =>
      rw [List.reduceOption_nil, List.append_nil,
        List.take_of_length_le registry.bounded]
      rfl
  | cons s rest inductionHypothesis =>
      have split :
          (s :: rest).reduceOption = s.toList ++ rest.reduceOption := by
        cases s <;> rfl
      rw [List.foldl_cons, inductionHypothesis, entries_pgRegistryAdd,
        take_take_append, split, List.append_assoc]

/-- The registry holds the first scenarios that were added, in order. -/
theorem entries_registered (calls : List (Option PgScenario)) :
    (registered calls).entries = calls.reduceOption.take pgRegMax :=
  entries_foldl_pgRegistryAdd empty calls

/-- A scenario that is found has the id, and is in the table. -/
theorem pgRegistryFind_some
    {registry : Registry}
    {id : List UInt8}
    {s : PgScenario}
    (found : pgRegistryFind registry (some id) = some s) :
    s.id = id ∧ s ∈ registry.entries := by
  have here :
      (registry.entries.find? fun s => s.id == id) = some s := found
  have same := List.find?_some here
  exact ⟨beq_iff_eq.mp same, List.mem_of_find?_eq_some here⟩

/-- A scenario is found exactly when the table lists its id. -/
theorem pgRegistryFind_isSome_iff
    (registry : Registry)
    (id : List UInt8) :
    (pgRegistryFind registry (some id)).isSome = true ↔
      ∃ s ∈ pgRegistryList registry, s.id = id := by
  simp only [pgRegistryFind, pgRegistryList, List.find?_isSome,
    beq_iff_eq]

end FailurePlayground.Scenarios
