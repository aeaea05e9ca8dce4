import FailurePlayground.Lib.Wrap
import FailurePlayground.LogPane

namespace FailurePlayground

/-!
# The lesson overlay

`show_overlay` opens a window over the screen and prints a text into it, line
by line, until the text or the window ends.  A pointer into the text is the
part of the text that it leads to.
-/

/-- `'\n'`. -/
def newline : UInt8 := 10

/-- What the overlay shows without a lesson. -/
def noLesson : List UInt8 :=
  Bytes.ascii "(no lesson written for this scenario)"

/-- The text of the overlay. -/
def overlayText (body : Option (List UInt8)) : List UInt8 :=
  match body with
  | some (letter :: rest) => letter :: rest
  | some [] | none => noLesson

/-- A body that is there and not empty is shown. -/
theorem overlayText_given
    {body : Option (List UInt8)}
    (shown : List UInt8)
    (given : body = some shown)
    (some : shown ≠ []) :
    overlayText body = shown := by
  subst given
  cases shown with
  | nil =>
      exact absurd rfl some
  | cons letter rest =>
      rfl

/-- For any other body the placeholder is shown. -/
theorem overlayText_missing
    {body : Option (List UInt8)}
    (missing : body = none ∨ body = some []) :
    overlayText body =
      Bytes.ascii "(no lesson written for this scenario)" := by
  rcases missing with rfl | rfl
  · rfl
  · rfl

/-- `oh`, the height of the overlay on a screen of some rows. -/
def overlayHeight (rows : Int) : Int :=
  if rows > 28 then 24 else if rows > 8 then rows - 4 else rows

/-- `ow`, the width of the overlay on a screen of some columns. -/
def overlayWidth (cols : Int) : Int :=
  if cols > 90 then 80 else if cols > 12 then cols - 8 else cols

/-- An `int` as a `size_t`. -/
def sizeOfInt (i : Int) : Nat :=
  (i % 2 ^ 64).toNat

/-- A `size_t` as an `int`. -/
def intOfSize (size : Nat) : Int :=
  (Int32.ofNat size).toInt

/-- `strchr`, for a character other than NUL. -/
def strchr (letter : UInt8) : List UInt8 → Option (List UInt8)
  | [] => none
  | head :: rest =>
      if head = letter then some (head :: rest) else strchr letter rest

/-- What `"%.*s"` prints of a string. -/
def precisionField (precision : Int) (string : List UInt8) : List UInt8 :=
  if precision < 0 then string else string.take precision.toNat

/-- A line of the text with its row of the overlay. -/
structure OverlayLine where
  row : Int
  text : List UInt8
  deriving Repr, DecidableEq

section Layout

variable (oh wrap : Int)

/-- The inner loop, with the print behind it: one piece of the text. -/
def layoutPiece :
    (fuel : Nat) → (y : Int) → (p : List UInt8) → (len : Nat) →
      Option (List OverlayLine × Int)
  | 0, _, _, _ => none
  | fuel + 1, y, p, len =>
      if len > sizeOfInt wrap ∧ y < oh - 2 then do
        let (lines, after) ←
          layoutPiece fuel (y + 1) (p.drop wrap.toNat)
            (len - sizeOfInt wrap)
        some ({ row := y, text := precisionField wrap p } :: lines, after)
      else if y < oh - 2 then
        some ([{ row := y, text := precisionField (intOfSize len) p }],
          y + 1)
      else
        some ([], y)

/-- The layout loop of `show_overlay`, from a row and a pointer on. -/
def layoutFrom :
    (fuel : Nat) → (y : Int) → (p : List UInt8) →
      Option (List OverlayLine)
  | 0, _, _ => none
  | fuel + 1, y, p =>
      if p ≠ [] ∧ y < oh - 2 then do
        let nl := strchr newline p
        let len :=
          match nl with
          | some nl => p.length - nl.length
          | none => p.length
        let (lines, after) ← layoutPiece oh wrap (fuel + 1) y p len
        match nl with
        | some nl => do
            let later ← layoutFrom fuel after (nl.drop 1)
            some (lines ++ later)
        | none => some lines
      else
        some []

end Layout

/-- The text lines `show_overlay` prints on a screen of some size. -/
def showOverlay
    (fuel : Nat)
    (rows cols : Int32)
    (body : Option (List UInt8)) : Option (List OverlayLine) :=
  layoutFrom (overlayHeight rows.toInt) (overlayWidth cols.toInt - 4) fuel 2
    (overlayText body)

/-- Lines of text on consecutive rows. -/
def numbered (y : Int) (texts : List (List UInt8)) : List OverlayLine :=
  texts.mapIdx fun i text => { row := y + i, text := text }

/-- The lines that a text makes in an overlay of some width, all of them. -/
def wrappedText (width : Nat) (text : List UInt8) : List (List UInt8) :=
  (Wrap.pieces newline text).flatMap (Wrap.segments width)

/-- What the overlay has to print. -/
structure OverlaySpec
    (oh ow : Int)
    (text : List UInt8)
    (lines : List OverlayLine) : Prop where
  /-- The first lines of the wrapped text, from the third row on. -/
  printed :
    lines = numbered 2
      ((wrappedText (ow - 4).toNat text).take (max 0 (oh - 4)).toNat)
  /-- Nothing is lost, doubled or moved before the cut-off. -/
  kept :
    (lines.map OverlayLine.text).flatten <+: text.filter (· ≠ newline)
  /-- Nothing at all is lost where there is room. -/
  whole :
    (wrappedText (ow - 4).toNat text).length ≤ (oh - 4).toNat →
      (lines.map OverlayLine.text).flatten = text.filter (· ≠ newline)
  /-- Every line lies inside the frame. -/
  inside :
    ∀ line ∈ lines,
      2 ≤ line.row ∧ line.row < oh - 2 ∧
        (line.text.length : Int) ≤ ow - 4

section Numbered

variable {y : Int}

@[simp] theorem numbered_nil (y : Int) : numbered y [] = [] := rfl

@[simp] theorem numbered_cons
    (y : Int)
    (text : List UInt8)
    (texts : List (List UInt8)) :
    numbered y (text :: texts) =
      { row := y, text := text } :: numbered (y + 1) texts := by
  simp only [numbered, List.mapIdx_cons]
  congr 1
  · simp
  · apply List.mapIdx_eq_mapIdx_iff.mpr
    intro i _
    congr 1
    omega

/-- Numbering goes on where the lines before end. -/
theorem numbered_append
    (y : Int)
    (texts others : List (List UInt8)) :
    numbered y (texts ++ others) =
      numbered y texts ++ numbered (y + texts.length) others := by
  induction texts generalizing y with
  | nil =>
      simp
  | cons text rest inductionHypothesis =>
      have after :
          y + 1 + (rest.length : Int) = y + (text :: rest).length := by
        rw [List.length_cons]
        omega
      rw [List.cons_append, numbered_cons, numbered_cons,
        inductionHypothesis, List.cons_append, after]

@[simp] theorem map_text_numbered
    (y : Int)
    (texts : List (List UInt8)) :
    (numbered y texts).map OverlayLine.text = texts := by
  induction texts generalizing y with
  | nil =>
      rfl
  | cons text rest inductionHypothesis =>
      rw [numbered_cons, List.map_cons, inductionHypothesis]

/-- The rows of numbered lines are consecutive. -/
theorem mem_numbered
    {texts : List (List UInt8)}
    {line : OverlayLine}
    (member : line ∈ numbered y texts) :
    y ≤ line.row ∧ line.row < y + texts.length ∧ line.text ∈ texts := by
  induction texts generalizing y with
  | nil =>
      exact absurd member List.not_mem_nil
  | cons text rest inductionHypothesis =>
      rw [numbered_cons] at member
      rw [List.length_cons]
      rcases List.mem_cons.mp member with rfl | later
      · exact ⟨Int.le_refl _, by simp only; omega, List.mem_cons_self⟩
      · obtain ⟨low, high, text'⟩ := inductionHypothesis later
        exact ⟨by omega, by omega, List.mem_cons_of_mem _ text'⟩

end Numbered

section Strings

/-- A size below the sign bit is the same `int`. -/
theorem intOfSize_eq
    {size : Nat}
    (small : size < 2 ^ 31) :
    intOfSize size = size :=
  Int32.toInt_ofNat_of_lt small

/-- A width that is not negative is the same `size_t`. -/
theorem sizeOfInt_eq
    {width : Nat}
    (small : width < 2 ^ 31) :
    sizeOfInt width = width := by
  unfold sizeOfInt
  omega

/-- A precision that is not negative cuts the string. -/
theorem precisionField_eq (width : Nat) (string : List UInt8) :
    precisionField width string = string.take width := by
  rw [precisionField, if_neg (by omega), Int.toNat_natCast]

/-- `strchr` finds nothing where there is nothing. -/
theorem strchr_eq_none
    {letter : UInt8}
    {string : List UInt8}
    (none : letter ∉ string) :
    strchr letter string = Option.none := by
  induction string with
  | nil =>
      rfl
  | cons head rest inductionHypothesis =>
      rw [List.mem_cons, not_or] at none
      rw [strchr, if_neg fun same => none.1 same.symm]
      exact inductionHypothesis none.2

/-- `strchr` finds the first. -/
theorem strchr_append_cons
    {letter : UInt8}
    {piece : List UInt8}
    (none : letter ∉ piece)
    (rest : List UInt8) :
    strchr letter (piece ++ letter :: rest) = some (letter :: rest) := by
  induction piece with
  | nil =>
      rw [List.nil_append, strchr, if_pos rfl]
  | cons head tail inductionHypothesis =>
      rw [List.mem_cons, not_or] at none
      rw [List.cons_append, strchr, if_neg fun same => none.1 same.symm]
      exact inductionHypothesis none.2

end Strings

section LayoutSpec

variable
  {oh : Int}
  {width fuel : Nat}
  {y : Int}

/-- The rows left for text. -/
def roomFrom (oh y : Int) : Nat :=
  (oh - 2 - y).toNat

/-- One piece is printed as its segments, as far as there is room. -/
theorem layoutPiece_eq
    (wide : 0 < width)
    (small : width < 2 ^ 31)
    {p : List UInt8}
    {len : Nat}
    (inText : len ≤ p.length)
    (enough : len < fuel) :
    layoutPiece oh width fuel y p len =
      some (numbered y
          ((Wrap.segments width (p.take len)).take (roomFrom oh y)),
        y + min (Wrap.segments width (p.take len)).length
          (roomFrom oh y)) := by
  induction fuel generalizing y p len with
  | zero =>
      exact absurd enough (Nat.not_lt_zero _)
  | succ fuel inductionHypothesis =>
      have taken : (p.take len).length = len := by
        rw [List.length_take]
        omega
      unfold layoutPiece
      rw [sizeOfInt_eq small]
      by_cases room : y < oh - 2
      · have more : roomFrom oh y = roomFrom oh (y + 1) + 1 := by
          unfold roomFrom
          omega
        by_cases long : len > width
        · have cut :
              Wrap.segments width (p.take len) =
                p.take width ::
                  Wrap.segments width
                    ((p.drop width).take (len - width)) := by
            rw [Wrap.segments_of_lt wide (by omega), List.take_take,
              Nat.min_eq_left (Nat.le_of_lt long), List.drop_take]
          rw [if_pos ⟨long, room⟩, Int.toNat_natCast,
            inductionHypothesis
              (by rw [List.length_drop]; omega) (by omega),
            cut, more, List.take_succ_cons, numbered_cons,
            precisionField_eq, List.length_cons]
          simp only [Option.bind_eq_bind, Option.bind_some,
            Option.some.injEq, Prod.mk.injEq, true_and]
          omega
        · rw [if_neg fun both => long both.1, if_pos room,
            Wrap.segments_of_le (by omega), more, List.take_succ_cons,
            List.take_nil, numbered_cons, numbered_nil,
            intOfSize_eq (by omega), precisionField_eq]
          simp only [List.length_singleton, Option.some.injEq,
            Prod.mk.injEq, true_and]
          omega
      · have full : roomFrom oh y = 0 := by
          unfold roomFrom
          omega
        rw [if_neg fun both => room both.2, if_neg room, full]
        simp

/-- The text is printed as its wrapped lines, as far as there is room. -/
theorem layoutFrom_eq
    (wide : 0 < width)
    (small : width < 2 ^ 31)
    {p : List UInt8}
    (enough : p.length < fuel) :
    layoutFrom oh width fuel y p =
      some (numbered y ((wrappedText width p).take (roomFrom oh y))) := by
  induction fuel generalizing y p with
  | zero =>
      exact absurd enough (Nat.not_lt_zero _)
  | succ fuel inductionHypothesis =>
      unfold layoutFrom
      by_cases room : y < oh - 2
      · rcases Wrap.pieces_cases newline p with
          rfl | ⟨none, more⟩ | ⟨piece, rest, none, rfl⟩
        · simp [wrappedText]
        · have pieces : wrappedText width p = Wrap.segments width p := by
            rw [wrappedText, Wrap.pieces_of_not_mem none more,
              List.flatMap_singleton]
          rw [if_pos ⟨more, room⟩, strchr_eq_none none, pieces]
          simp only
          rw [layoutPiece_eq wide small (Nat.le_refl _) enough,
            List.take_length]
          rfl
        · have length :
              (piece ++ newline :: rest).length -
                (newline :: rest).length = piece.length := by
            rw [List.length_append]
            omega
          have taken :
              (piece ++ newline :: rest).take piece.length = piece :=
            List.take_left
          have shorter :
              rest.length + piece.length + 1 =
                (piece ++ newline :: rest).length := by
            rw [List.length_append, List.length_cons]
            omega
          have pieces :
              wrappedText width (piece ++ newline :: rest) =
                Wrap.segments width piece ++ wrappedText width rest := by
            rw [wrappedText, Wrap.pieces_append_cons none,
              List.flatMap_cons, wrappedText]
          have left :
              roomFrom oh
                  (y + min (Wrap.segments width piece).length
                    (roomFrom oh y)) =
                roomFrom oh y - (Wrap.segments width piece).length := by
            unfold roomFrom
            omega
          rw [if_pos ⟨by simp, room⟩, strchr_append_cons none, pieces]
          simp only [length]
          rw [layoutPiece_eq wide small (by omega) (by omega), taken]
          simp only [Option.bind_eq_bind, Option.bind_some,
            List.drop_succ_cons, List.drop_zero]
          rw [inductionHypothesis (by omega), left, List.take_append,
            numbered_append, List.length_take]
          simp only [Option.bind_some, Nat.min_comm]
      · have full : roomFrom oh y = 0 := by
          unfold roomFrom
          omega
        rw [if_neg fun both => room both.2, full, List.take_zero,
          numbered_nil]

/-- Wrapped lines hold the text without its newlines. -/
theorem flatten_wrappedText
    (wide : 0 < width)
    (text : List UInt8) :
    (wrappedText width text).flatten = text.filter (· ≠ newline) := by
  induction number : text.length using Nat.strongRecOn
    generalizing text with
  | ind number inductionHypothesis =>
      subst number
      rcases Wrap.pieces_cases newline text with
        rfl | ⟨none, more⟩ | ⟨piece, rest, none, rfl⟩
      · simp [wrappedText]
      · rw [wrappedText, Wrap.pieces_of_not_mem none more,
          List.flatMap_singleton, Wrap.flatten_segments wide]
        refine (List.filter_eq_self.mpr ?_).symm
        intro letter member
        exact decide_eq_true fun same => none (same ▸ member)
      · have kept : piece.filter (· ≠ newline) = piece := by
          refine List.filter_eq_self.mpr ?_
          intro letter member
          exact decide_eq_true fun same => none (same ▸ member)
        have later :=
          inductionHypothesis rest.length
            (by rw [List.length_append, List.length_cons]; omega) rest rfl
        rw [wrappedText, Wrap.pieces_append_cons none, List.flatMap_cons,
          List.flatten_append, Wrap.flatten_segments wide,
          List.filter_append, kept, List.filter_cons_of_neg (by simp)]
        rw [← later, wrappedText]

end LayoutSpec

/--
On every screen of at least five columns the layout loop ends and prints the
first lines of the wrapped text, as many as the overlay has room for.  The
text is the body, or the placeholder for a NULL or empty one.
-/
theorem overlay_wraps
    (rows cols : Int32)
    (broad : 5 ≤ cols.toInt)
    (body : Option (List UInt8)) :
    ∃ text lines,
      (∀ shown, body = some shown → shown ≠ [] → text = shown) ∧
        (body = none ∨ body = some [] →
          text =
            Bytes.ascii "(no lesson written for this scenario)") ∧
        (∀ fuel,
          text.length < fuel →
            showOverlay fuel rows cols body = some lines) ∧
        OverlaySpec (overlayHeight rows.toInt) (overlayWidth cols.toInt)
          text lines := by
  have bounds :
      1 ≤ overlayWidth cols.toInt - 4 ∧
        overlayWidth cols.toInt - 4 ≤ 82 := by
    unfold overlayWidth
    split
    · omega
    · split
      · omega
      · omega
  obtain ⟨width, columns⟩ :=
    Int.eq_ofNat_of_zero_le
      (show 0 ≤ overlayWidth cols.toInt - 4 by omega)
  have wide : 0 < width := by omega
  have room :
      roomFrom (overlayHeight rows.toInt) 2 =
        (max 0 (overlayHeight rows.toInt - 4)).toNat := by
    unfold roomFrom
    omega
  refine
    ⟨overlayText body,
      numbered 2
        ((wrappedText width (overlayText body)).take
          (roomFrom (overlayHeight rows.toInt) 2)),
      overlayText_given, overlayText_missing, ?_, ?_⟩
  · intro fuel enough
    rw [showOverlay, columns]
    exact layoutFrom_eq wide (by omega) enough
  · rw [room]
    refine {
      printed := ?_
      kept := ?_
      whole := ?_
      inside := ?_
    }
    · rw [columns, Int.toNat_natCast]
    · rw [map_text_numbered, ← flatten_wrappedText wide]
      exact (List.take_prefix _ _).flatten
    · intro fits
      rw [columns, Int.toNat_natCast] at fits
      rw [map_text_numbered, ← flatten_wrappedText wide,
        List.take_of_length_le (by omega)]
    · intro line member
      obtain ⟨low, high, text⟩ := mem_numbered member
      obtain ⟨piece, _, segment⟩ :=
        List.mem_flatMap.mp (List.mem_of_mem_take text)
      have short := Wrap.length_le_of_mem_segments segment
      have number := List.length_take_le
        (max 0 (overlayHeight rows.toInt - 4)).toNat
        (wrappedText width (overlayText body))
      exact ⟨low, by omega, by omega⟩

/-- A short line, an empty one and one that is too wide. -/
def shortLesson : List UInt8 :=
  Bytes.ascii "ab\n\nhello world\n"

theorem overlay_wraps_narrow :
    ∃ lines,
      (∀ fuel, 20 ≤ fuel →
        showOverlay fuel 12 9 (some shortLesson) = some lines) ∧
      lines =
        [{ row := 2, text := Bytes.ascii "ab" },
          { row := 3, text := [] },
          { row := 4, text := Bytes.ascii "hello" },
          { row := 5, text := Bytes.ascii " worl" }] := by
  obtain ⟨text, lines, given, _, ends, spec⟩ :=
    overlay_wraps 12 9 (by decide) (some shortLesson)
  obtain rfl := given shortLesson rfl (by decide)
  have length : shortLesson.length < 20 := by
    decide +kernel
  refine ⟨lines, fun fuel enough => ends fuel (by omega), ?_⟩
  rw [spec.printed]
  decide +kernel

end FailurePlayground
