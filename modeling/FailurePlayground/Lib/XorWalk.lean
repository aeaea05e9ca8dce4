import Mathlib.Data.LawfulXor.Basic
import Mathlib.Data.List.Infix

namespace FailurePlayground.XorWalk

/-!
# Walks by exclusive or

A walk starts at a word and combines one step after the other with it.  It is
back at a word it has visited when the steps since then cancel, so the last
step leads to a new word just when no block of steps that ends with it does.
-/

universe u

variable {Word : Type u} [XorOp Word] [Zero Word]

/-- The combination of all steps. -/
def total (steps : List Word) : Word :=
  steps.foldr (· ^^^ ·) 0

/-- The words a walk visits, its start included. -/
def visited (start : Word) (steps : List Word) : List Word :=
  steps.scanl (· ^^^ ·) start

@[simp] theorem total_nil : total ([] : List Word) = 0 := rfl

@[simp] theorem total_cons (step : Word) (rest : List Word) :
    total (step :: rest) = step ^^^ total rest := rfl

variable [LawfulXor Word]

theorem total_append (earlier later : List Word) :
    total (earlier ++ later) = total earlier ^^^ total later := by
  induction earlier with
  | nil =>
      exact (zero_xor (total later)).symm
  | cons step rest inductionHypothesis =>
      rw [List.cons_append, total_cons, total_cons, inductionHypothesis,
        xor_assoc]

/-- A mask on every step remains when the steps are odd in number. -/
theorem total_map_xor (mask : Word) (steps : List Word) :
    total (steps.map (· ^^^ mask)) =
      total steps ^^^ if steps.length % 2 = 1 then mask else 0 := by
  induction steps with
  | nil =>
      exact (xor_zero 0).symm
  | cons step rest inductionHypothesis =>
      rw [List.map_cons, total_cons, total_cons, inductionHypothesis,
        List.length_cons]
      rcases Nat.mod_two_eq_zero_or_one rest.length with even | odd
      · rw [if_neg (by omega), if_pos (by omega), xor_zero, xor_assoc,
          xor_assoc, xor_comm mask]
      · rw [if_pos odd, if_neg (by omega), xor_zero, xor_assoc,
          xor_xor_cancel_comm_assoc]

theorem foldl_xor (start : Word) (steps : List Word) :
    steps.foldl (· ^^^ ·) start = start ^^^ total steps := by
  induction steps generalizing start with
  | nil =>
      exact (xor_zero start).symm
  | cons step rest inductionHypothesis =>
      rw [List.foldl_cons, inductionHypothesis, total_cons, xor_assoc]

/-- A walk ends where all its steps lead. -/
theorem end_mem_visited (start : Word) (steps : List Word) :
    start ^^^ total steps ∈ visited start steps := by
  rw [← foldl_xor]
  exact List.mem_of_getLast? List.getLast?_scanl

/-- One more step visits one more word. -/
theorem visited_concat (start step : Word) (steps : List Word) :
    visited start (steps ++ [step]) =
      visited start steps ++ [start ^^^ total steps ^^^ step] := by
  rw [visited, List.scanl_append, foldl_xor]
  rfl

/--
The last step of a walk leads to a new word just when no block of steps that
ends with it cancels.
-/
theorem notMem_visited_iff (start step : Word) (steps : List Word) :
    start ^^^ total steps ^^^ step ∉ visited start steps ↔
      ∀ block ∈ (steps ++ [step]).tails, block ≠ [] → total block ≠ 0 := by
  have atEnd (start : Word) (steps : List Word) :
      start ^^^ total steps ^^^ step =
        start ^^^ total (steps ++ [step]) := by
    rw [total_append, total_cons, total_nil, xor_zero, xor_assoc]
  rw [atEnd]
  induction steps generalizing start with
  | nil =>
      simp [visited]
  | cons first rest inductionHypothesis =>
      -- The whole list is the block that leads back to the start.
      rw [visited, List.scanl_cons, List.mem_cons, not_or,
        xor_left_eq_self_iff, List.cons_append, List.tails_cons,
        List.forall_mem_cons, total_cons, ← xor_assoc]
      exact
        and_congr ⟨fun nonzero _ => nonzero, fun nonzero => nonzero nofun⟩
          (inductionHypothesis (start ^^^ first))

end FailurePlayground.XorWalk
