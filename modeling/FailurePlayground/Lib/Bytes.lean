import Mathlib.Data.List.Basic
import Mathlib.Tactic.Ring

namespace FailurePlayground.Bytes

/-!
# Fixed-width records as bytes

Little-endian words of a fixed width, and the algebra of streams that
concatenate equally wide records: such a stream determines its records, and
any aligned window of it is one of them.
-/

/-- The bytes of an ASCII string, without a terminator. -/
def ascii (string : String) : List UInt8 :=
  string.toList.map fun character => UInt8.ofNat character.toNat

/-- The `width` little-endian bytes of a natural number. -/
def toLE : Nat → Nat → List UInt8
  | 0, _ => []
  | width + 1, value => UInt8.ofNat value :: toLE width (value / 256)

/-- The natural number with the given little-endian bytes. -/
def ofLE : List UInt8 → Nat
  | [] => 0
  | byte :: rest => byte.toNat + 256 * ofLE rest

@[simp] theorem length_toLE (width value : Nat) :
    (toLE width value).length = width := by
  induction width generalizing value with
  | zero =>
      rfl
  | succ width inductionHypothesis =>
      simp [toLE, inductionHypothesis]

/-- Words that fit the width are read back. -/
theorem ofLE_toLE
    {width value : Nat}
    (fits : value < 256 ^ width) :
    ofLE (toLE width value) = value := by
  induction width generalizing value with
  | zero =>
      simp only [Nat.pow_zero, Nat.lt_one_iff] at fits
      simp [toLE, ofLE, fits]
  | succ width inductionHypothesis =>
      have quotientFits : value / 256 < 256 ^ width := by
        rw [Nat.pow_succ] at fits
        exact Nat.div_lt_of_lt_mul (by omega)
      have low : (UInt8.ofNat value).toNat = value % 256 := by
        simp [UInt8.toNat_ofNat']
      rw [toLE, ofLE, inductionHypothesis quotientFits, low]
      exact Nat.mod_add_div value 256

/-- Bytes read as a word are written back. -/
theorem toLE_ofLE
    {width : Nat}
    {bytes : List UInt8}
    (wide : bytes.length = width) :
    toLE width (ofLE bytes) = bytes := by
  induction bytes generalizing width with
  | nil =>
      subst wide
      rfl
  | cons byte rest inductionHypothesis =>
      subst wide
      have bounded := byte.toNat_lt
      have head :
          UInt8.ofNat (byte.toNat + 256 * ofLE rest) = byte := by
        apply UInt8.toNat_inj.mp
        rw [UInt8.toNat_ofNat']
        omega
      have tail :
          (byte.toNat + 256 * ofLE rest) / 256 = ofLE rest := by
        omega
      simp only [List.length_cons, ofLE, toLE, head, tail,
        inductionHypothesis rfl]

/-- Bytes below a width give a word that fits it. -/
theorem ofLE_lt (bytes : List UInt8) :
    ofLE bytes < 256 ^ bytes.length := by
  induction bytes with
  | nil =>
      simp [ofLE]
  | cons byte rest inductionHypothesis =>
      have bounded := byte.toNat_lt
      rw [ofLE, List.length_cons, Nat.pow_succ]
      omega

section FixedWidth

universe u v

variable
  {Item : Type u}
  {Piece : Type v}
  {code : Item → List Piece}
  {width : Nat}

/-- A stream of records is as long as its record count says. -/
theorem length_flatMap
    (wide : ∀ item, (code item).length = width)
    (items : List Item) :
    (items.flatMap code).length = width * items.length := by
  induction items with
  | nil =>
      simp
  | cons item rest inductionHypothesis =>
      simp only [List.flatMap_cons, List.length_append, wide,
        inductionHypothesis, List.length_cons]
      ring

/-- Only the empty list of records makes an empty stream. -/
theorem eq_nil_of_flatMap_eq_nil
    (wide : ∀ item, (code item).length = width)
    (positive : 0 < width)
    {items : List Item}
    (empty : items.flatMap code = []) :
    items = [] := by
  have lengths := congrArg List.length empty
  rw [length_flatMap wide, List.length_nil] at lengths
  exact List.length_eq_zero_iff.mp
    ((Nat.mul_eq_zero.mp lengths).resolve_left (by omega))

/-- A stream shorter than one record holds none. -/
theorem eq_nil_of_length_flatMap_lt
    (wide : ∀ item, (code item).length = width)
    {items : List Item}
    (short : (items.flatMap code).length < width) :
    items = [] := by
  cases items with
  | nil =>
      rfl
  | cons item rest =>
      rw [List.flatMap_cons, List.length_append, wide] at short
      exact absurd short (Nat.not_lt.mpr (Nat.le_add_right _ _))

/-- The first records' worth of a stream is the stream of the first records. -/
theorem take_flatMap
    (wide : ∀ item, (code item).length = width)
    (items : List Item)
    (number : Nat) :
    (items.flatMap code).take (width * number) =
      (items.take number).flatMap code := by
  induction items generalizing number with
  | nil =>
      simp
  | cons item rest inductionHypothesis =>
      cases number with
      | zero =>
          simp
      | succ number =>
          rw [List.flatMap_cons, Nat.mul_succ, Nat.add_comm,
            ← wide item, List.take_length_add_append, wide item,
            inductionHypothesis, List.take_succ_cons,
            List.flatMap_cons]

/-- What follows the first records' worth is the stream of the others. -/
theorem drop_flatMap
    (wide : ∀ item, (code item).length = width)
    (items : List Item)
    (number : Nat) :
    (items.flatMap code).drop (width * number) =
      (items.drop number).flatMap code := by
  induction items generalizing number with
  | nil =>
      simp
  | cons item rest inductionHypothesis =>
      cases number with
      | zero =>
          simp
      | succ number =>
          rw [List.flatMap_cons, Nat.mul_succ, Nat.add_comm,
            ← wide item, List.drop_length_add_append, wide item,
            inductionHypothesis, List.drop_succ_cons]

/--
If a stream starts with some records followed by one record's width of bytes,
then those records are a prefix of the stream's records and the window is the
next one.
-/
theorem next_of_stream_eq
    (wide : ∀ item, (code item).length = width)
    (injective : Function.Injective code)
    (positive : 0 < width)
    {consumed items : List Item}
    {window later : List Piece}
    (windowWide : window.length = width)
    (stream :
      consumed.flatMap code ++ window ++ later =
        items.flatMap code) :
    ∃ item rest,
      items = consumed ++ item :: rest ∧
        code item = window ∧
        rest.flatMap code = later := by
  induction consumed generalizing items with
  | nil =>
      cases items with
      | nil =>
          have empty := congrArg List.length stream
          simp only [List.flatMap_nil, List.nil_append,
            List.length_append, windowWide, List.length_nil] at empty
          omega
      | cons item rest =>
          simp only [List.flatMap_nil, List.nil_append,
            List.flatMap_cons] at stream
          obtain ⟨sameWindow, sameLater⟩ :=
            List.append_inj stream (by rw [windowWide, wide])
          exact ⟨item, rest, rfl, sameWindow.symm, sameLater.symm⟩
  | cons head tail inductionHypothesis =>
      cases items with
      | nil =>
          have empty := congrArg List.length stream
          simp only [List.flatMap_cons, List.flatMap_nil,
            List.length_append, wide, List.length_nil] at empty
          omega
      | cons item rest =>
          simp only [List.flatMap_cons, List.append_assoc] at stream
          obtain ⟨sameHead, sameTail⟩ :=
            List.append_inj stream (by rw [wide, wide])
          rw [← List.append_assoc] at sameTail
          obtain ⟨next, later, shape, here, after⟩ :=
            inductionHypothesis sameTail
          refine ⟨next, later, ?_, here, after⟩
          rw [injective sameHead, shape, List.cons_append]

/-- A record stream determines its records. -/
theorem flatMap_injective
    (wide : ∀ item, (code item).length = width)
    (injective : Function.Injective code)
    (positive : 0 < width)
    {first second : List Item}
    (stream : first.flatMap code = second.flatMap code) :
    first = second := by
  induction first generalizing second with
  | nil =>
      exact (eq_nil_of_flatMap_eq_nil wide positive stream.symm).symm
  | cons head tail inductionHypothesis =>
      have windowWide : (code head).length = width := wide head
      have split :
          ([] : List Item).flatMap code ++ code head ++
              tail.flatMap code = second.flatMap code := by
        simpa using stream
      obtain ⟨item, rest, shape, here, after⟩ :=
        next_of_stream_eq wide injective positive windowWide split
      rw [shape, List.nil_append, injective here,
        inductionHypothesis after.symm]

/-- Records at the start of a stream of records are its first records. -/
theorem prefix_of_stream_eq
    (wide : ∀ item, (code item).length = width)
    (injective : Function.Injective code)
    (positive : 0 < width)
    {consumed items : List Item}
    {later : List Piece}
    (stream : consumed.flatMap code ++ later = items.flatMap code) :
    consumed <+: items := by
  induction consumed generalizing items with
  | nil =>
      exact List.nil_prefix
  | cons head tail inductionHypothesis =>
      have split :
          ([] : List Item).flatMap code ++ code head ++
              (tail.flatMap code ++ later) = items.flatMap code := by
        simpa using stream
      obtain ⟨item, rest, shape, here, after⟩ :=
        next_of_stream_eq wide injective positive (wide head) split
      rw [shape, List.nil_append, injective here]
      exact List.prefix_cons_inj head |>.mpr
        (inductionHypothesis after.symm)

/--
Equally wide pieces at the start of a stream of such pieces are its first
ones, when less than one piece follows them in the stream.
-/
theorem prefix_of_flatten
    {first second : List (List Piece)}
    {later leftover : List Piece}
    (firstWide : ∀ piece ∈ first, piece.length = width)
    (secondWide : ∀ piece ∈ second, piece.length = width)
    (short : leftover.length < width)
    (stream : first.flatten ++ later = second.flatten ++ leftover) :
    first <+: second := by
  induction first generalizing second with
  | nil =>
      exact List.nil_prefix
  | cons head tail inductionHypothesis =>
      have headWide := firstWide head List.mem_cons_self
      cases second with
      | nil =>
          have lengths := congrArg List.length stream
          simp only [List.flatten_cons, List.length_append, headWide,
            List.flatten_nil, List.nil_append] at lengths
          omega
      | cons other rest =>
          simp only [List.flatten_cons, List.append_assoc] at stream
          obtain ⟨sameHead, sameTail⟩ :=
            List.append_inj stream
              (headWide.trans
                (secondWide other List.mem_cons_self).symm)
          rw [sameHead]
          exact List.prefix_cons_inj other |>.mpr
            (inductionHypothesis
              (fun piece member =>
                firstWide piece (List.mem_cons_of_mem head member))
              (fun piece member =>
                secondWide piece (List.mem_cons_of_mem other member))
              sameTail)

/-- Equally wide pieces fill as much of a stream as their number says. -/
theorem length_flatten
    {pieces : List (List Piece)}
    (wide : ∀ piece ∈ pieces, piece.length = width) :
    pieces.flatten.length = width * pieces.length := by
  induction pieces with
  | nil =>
      simp
  | cons head tail inductionHypothesis =>
      rw [List.flatten_cons, List.length_append,
        wide head List.mem_cons_self,
        inductionHypothesis fun piece member =>
          wide piece (List.mem_cons_of_mem head member),
        List.length_cons]
      ring

/-- A stream is a pattern repeated end to end, the last copy cut short. -/
def Repeats (pattern stream : List Piece) : Prop :=
  ∀ index < stream.length,
    stream[index]? = pattern[index % pattern.length]?

/-- A stream repeats a pattern when putting the pattern first shifts it. -/
theorem repeats_iff_prefix
    {pattern stream : List Piece}
    (nonempty : 0 < pattern.length) :
    Repeats pattern stream ↔ stream <+: pattern ++ stream := by
  rw [List.prefix_iff_getElem?]
  constructor
  · intro repeats index bound
    rw [← List.getElem?_eq_getElem bound, repeats index bound]
    by_cases inside : index < pattern.length
    · rw [List.getElem?_append_left inside, Nat.mod_eq_of_lt inside]
    · have past : pattern.length ≤ index := Nat.le_of_not_lt inside
      rw [List.getElem?_append_right past,
        repeats (index - pattern.length) (by omega),
        Nat.mod_eq_sub_mod past]
  · intro shifted index bound
    induction index using Nat.strongRecOn with
    | ind index inductionHypothesis =>
        have here := shifted index bound
        rw [← List.getElem?_eq_getElem bound] at here
        by_cases inside : index < pattern.length
        · rw [List.getElem?_append_left inside] at here
          rw [← here, Nat.mod_eq_of_lt inside]
        · have past : pattern.length ≤ index := Nat.le_of_not_lt inside
          rw [List.getElem?_append_right past] at here
          rw [← here,
            inductionHypothesis (index - pattern.length) (by omega)
              (by omega),
            ← Nat.mod_eq_sub_mod past]

end FixedWidth

end FailurePlayground.Bytes
