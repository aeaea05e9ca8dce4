import Mathlib.Algebra.BigOperators.Group.Finset.Basic
import Mathlib.Algebra.BigOperators.Fin

namespace FailurePlayground.Parties

/-!
# A finite family of parties

A step replaces the state of one party.  A quantity summed over all parties
then changes by that party's contribution alone.
-/

universe u

variable {n : Nat} {Party : Type u}

/-- Replacing one party replaces its contribution to a sum. -/
theorem sum_update
    (parties : Fin n → Party)
    (index : Fin n)
    (party : Party)
    (weight : Party → Nat) :
    (∑ query, weight (Function.update parties index party query)) +
        weight (parties index) =
      (∑ query, weight (parties query)) + weight party := by
  have moved :
      (fun query => weight (Function.update parties index party query)) =
        Function.update (fun query => weight (parties query)) index
          (weight party) := by
    funext query
    by_cases same : query = index
    · subst same
      simp only [Function.update_self]
    · simp only [Function.update_of_ne same]
  rw [moved, Finset.sum_update_of_mem (Finset.mem_univ index),
    ← Finset.sum_sdiff (Finset.subset_univ {index}),
    Finset.sum_singleton]
  omega

end FailurePlayground.Parties
