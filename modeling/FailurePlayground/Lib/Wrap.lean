import Mathlib.Data.List.Basic

namespace FailurePlayground

/-!
# Text wrapped to a width

A text is split into pieces at a separator, which also may end it, and each
piece is cut into segments of a width, the last of which may be shorter.
-/

namespace Wrap

variable {Letter : Type}

/-- The segments of a piece: all of the width but the last. -/
def segments (width : Nat) (piece : List Letter) : List (List Letter) :=
  (List.range (max 1 ((piece.length + width - 1) / width))).map fun i =>
    (piece.drop (i * width)).take width

section Segments

variable
  {width : Nat}
  {piece : List Letter}

/-- A piece that fits is one segment. -/
theorem segments_of_le
    (fits : piece.length ≤ width) :
    segments width piece = [piece] := by
  have one : max 1 ((piece.length + width - 1) / width) = 1 := by
    apply Nat.max_eq_left
    rcases Nat.eq_zero_or_pos width with rfl | wide
    · simp
    · exact Nat.lt_succ_iff.mp (Nat.div_lt_of_lt_mul (by omega))
  simp only [segments, one, List.range_one, List.map_cons, List.map_nil,
    Nat.zero_mul, List.drop_zero, List.take_of_length_le fits]

/-- A piece that does not fit is cut. -/
theorem segments_of_lt
    (wide : 0 < width)
    (long : width < piece.length) :
    segments width piece =
      piece.take width :: segments width (piece.drop width) := by
  have number :
      max 1 ((piece.length + width - 1) / width) =
        max 1 (((piece.drop width).length + width - 1) / width) + 1 := by
    have quotient :
        (piece.length + width - 1) / width =
          ((piece.drop width).length + width - 1) / width + 1 := by
      rw [← Nat.add_div_right _ wide, List.length_drop]
      congr 1
      omega
    have positive :
        1 ≤ ((piece.drop width).length + width - 1) / width := by
      rw [Nat.one_le_div_iff wide, List.length_drop]
      omega
    omega
  rw [segments, number, List.range_succ_eq_map, List.map_cons,
    List.map_map, Nat.zero_mul, List.drop_zero, segments]
  congr 1
  apply List.map_congr_left
  intro i _
  simp only [Function.comp, List.drop_drop]
  congr 2
  rw [Nat.succ_mul]
  omega

/-- Induction along the cuts of a piece. -/
theorem segments_induction
    {motive : List Letter → Prop}
    (wide : 0 < width)
    (fits : ∀ piece, piece.length ≤ width → motive piece)
    (cut :
      ∀ piece, width < piece.length →
        motive (piece.drop width) → motive piece)
    (piece : List Letter) : motive piece := by
  induction number : piece.length using Nat.strongRecOn
    generalizing piece with
  | ind number inductionHypothesis =>
      subst number
      rcases Nat.lt_or_ge width piece.length with long | short
      · apply cut piece long
        apply inductionHypothesis _ _ _ rfl
        rw [List.length_drop]
        omega
      · exact fits piece short

/-- No letter is lost, doubled or moved by cutting. -/
theorem flatten_segments
    (wide : 0 < width)
    (piece : List Letter) :
    (segments width piece).flatten = piece := by
  induction piece using segments_induction wide with
  | fits piece short =>
      simp [segments_of_le short]
  | cut piece long inductionHypothesis =>
      rw [segments_of_lt wide long, List.flatten_cons, inductionHypothesis,
        List.take_append_drop]

/-- No segment is wider than the width. -/
theorem length_le_of_mem_segments
    {segment : List Letter}
    (member : segment ∈ segments width piece) :
    segment.length ≤ width := by
  obtain ⟨i, _, rfl⟩ := List.mem_map.mp member
  exact List.length_take_le _ _

end Segments

section Pieces

variable [DecidableEq Letter]

/-- The pieces of a text; a separator at its end opens no further piece. -/
def pieces (separator : Letter) (text : List Letter) :
    List (List Letter) :=
  let parts := text.splitOn separator
  if parts.getLast? = some [] then parts.dropLast else parts

variable {separator : Letter}

/-- An empty text has no pieces. -/
@[simp] theorem pieces_nil :
    pieces separator ([] : List Letter) = [] := by
  simp [pieces]

/-- A text without separators is one piece. -/
theorem pieces_of_not_mem
    {text : List Letter}
    (none : separator ∉ text)
    (more : text ≠ []) :
    pieces separator text = [text] := by
  have whole : text.splitOn separator = [text] := by
    rw [List.splitOn_eq_splitOnP]
    apply List.splitOnP_eq_singleton
    intro letter member
    exact beq_false_of_ne fun same => none (same ▸ member)
  simp only [pieces, whole, List.getLast?_singleton, Option.some.injEq,
    if_neg more]

/-- The first separator ends the first piece. -/
theorem pieces_append_cons
    {piece : List Letter}
    (none : separator ∉ piece)
    (rest : List Letter) :
    pieces separator (piece ++ separator :: rest) =
      piece :: pieces separator rest := by
  have first :
      (piece ++ separator :: rest).splitOn separator =
        piece :: rest.splitOn separator := by
    rw [List.splitOn_eq_splitOnP]
    have others : ∀ letter ∈ piece, (letter == separator) = false := by
      intro letter member
      exact beq_false_of_ne fun same => none (same ▸ member)
    exact
      List.splitOnP_append_cons_of_forall_mem
        (p := fun letter => letter == separator) others separator
        (beq_self_eq_true separator) rest
  obtain ⟨next, later, parts⟩ :=
    List.exists_cons_of_ne_nil (List.splitOn_ne_nil separator rest)
  simp only [pieces, first, parts, List.getLast?_cons_cons]
  split
  · rw [List.dropLast_cons_cons]
  · rfl

/-- A text is empty, one piece, or a piece before a separator. -/
theorem pieces_cases (separator : Letter) (text : List Letter) :
    text = [] ∨
      (separator ∉ text ∧ text ≠ []) ∨
      ∃ piece rest,
        separator ∉ piece ∧ text = piece ++ separator :: rest := by
  by_cases member : separator ∈ text
  · obtain ⟨piece, rest, shape, none⟩ := List.eq_append_cons_of_mem member
    exact Or.inr (Or.inr ⟨piece, rest, none, shape⟩)
  · by_cases empty : text = []
    · exact Or.inl empty
    · exact Or.inr (Or.inl ⟨member, empty⟩)

end Pieces

end Wrap

end FailurePlayground
