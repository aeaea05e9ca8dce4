import Mathlib.Data.List.Basic
import Mathlib.Data.UInt

namespace FailurePlayground

/-!
# UTF-8

A byte string is valid when it encodes a list of characters.  A reader that
goes byte by byte only remembers which bytes the character under way still
needs, each as a range.
-/

namespace Utf8

/-- The bytes that encode some characters. -/
def encode (characters : List Char) : List UInt8 :=
  characters.flatMap String.utf8EncodeChar

/-- A byte string that encodes characters. -/
def Valid (bytes : List UInt8) : Prop :=
  ∃ characters, bytes = encode characters

/-- A byte between two bounds. -/
structure Range where
  low : UInt8
  high : UInt8
  deriving Repr, DecidableEq

namespace Range

def Holds (range : Range) (byte : UInt8) : Prop :=
  range.low ≤ byte ∧ byte ≤ range.high

instance (range : Range) (byte : UInt8) : Decidable (range.Holds byte) :=
  inferInstanceAs (Decidable (_ ∧ _))

/-- Any continuation byte. -/
def tail : Range where
  low := 0x80
  high := 0xBF

end Range

/--
The byte after the first of three or four: no longer encoding than needed, no
surrogate, and nothing past the last character.
-/
def Range.second (first : UInt8) : Range where
  low := if first = 0xE0 then 0xA0 else if first = 0xF0 then 0x90 else 0x80
  high := if first = 0xED then 0x9F else if first = 0xF4 then 0x8F else 0xBF

/-- The ranges of the bytes that have to follow a first byte. -/
def following? (first : UInt8) : Option (List Range) :=
  if first ≤ 0x7F then
    some []
  else if first < 0xC2 then
    none
  else if first ≤ 0xDF then
    some [.tail]
  else if first ≤ 0xEF then
    some [.second first, .tail]
  else if first ≤ 0xF4 then
    some [.second first, .tail, .tail]
  else
    none

/-- Read one byte. -/
def step (owed : List Range) (byte : UInt8) : Option (List Range) :=
  match owed with
  | [] => following? byte
  | range :: rest => if range.Holds byte then some rest else none

/-- Read some bytes. -/
def read (owed : List Range) : List UInt8 → Option (List Range)
  | [] => some owed
  | byte :: rest => (step owed byte).bind fun owed => read owed rest

/-- A property of bytes is checked on the 256 of them. -/
theorem forall_byte
    {property : UInt8 → Prop}
    (all : ∀ value < 256, property (UInt8.ofNat value))
    (byte : UInt8) :
    property byte := by
  have here := all byte.toNat byte.toNat_lt
  rwa [UInt8.ofNat_toNat] at here

section Read

variable
  {owed : List Range}
  {byte : UInt8}
  {bytes others : List UInt8}

/-- Reading goes on where it stopped. -/
theorem read_append
    (owed : List Range)
    (bytes others : List UInt8) :
    read owed (bytes ++ others) =
      (read owed bytes).bind fun owed => read owed others := by
  induction bytes generalizing owed with
  | nil =>
      rfl
  | cons byte rest inductionHypothesis =>
      rw [List.cons_append, read, read, Option.bind_assoc]
      congr 1
      funext owed
      exact inductionHypothesis owed

/-- The bytes owed are read one by one. -/
theorem read_eq_nil_iff :
    read owed bytes = some [] ↔
      ∃ tails later,
        bytes = tails ++ later ∧
          List.Forall₂ Range.Holds owed tails ∧
          read [] later = some [] := by
  induction owed generalizing bytes with
  | nil =>
      constructor
      · intro whole
        exact ⟨[], bytes, rfl, .nil, whole⟩
      · rintro ⟨tails, later, rfl, none, whole⟩
        cases none
        exact whole
  | cons range rest inductionHypothesis =>
      constructor
      · intro whole
        cases bytes with
        | nil =>
            simp [read] at whole
        | cons byte others =>
            by_cases holds : range.Holds byte
            · simp only [read, step, if_pos holds, Option.bind_some] at whole
              obtain ⟨tails, later, rfl, all, ends⟩ :=
                inductionHypothesis.mp whole
              exact ⟨byte :: tails, later, rfl, .cons holds all, ends⟩
            · simp [read, step, holds] at whole
      · rintro ⟨tails, later, rfl, all, ends⟩
        cases all with
        | cons holds all =>
            rw [List.cons_append, read, step, if_pos holds,
              Option.bind_some]
            exact inductionHypothesis.mpr ⟨_, later, rfl, all, ends⟩

/-- Only continuation bytes are ever owed. -/
def Continuing (owed : List Range) : Prop :=
  ∀ range ∈ owed, 0x80 ≤ range.low ∧ range.high ≤ 0xBF

theorem continuing_following
    (starts : following? byte = some owed) :
    Continuing owed := by
  have all :
      ∀ byte : UInt8, ∀ range ∈ (following? byte).getD [],
        0x80 ≤ range.low ∧ range.high ≤ 0xBF :=
    forall_byte (by decide +kernel)
  intro range member
  exact all byte range (by rw [starts]; exact member)

theorem continuing_step
    {next : List Range}
    (continuing : Continuing owed)
    (stepped : step owed byte = some next) :
    Continuing next := by
  cases owed with
  | nil =>
      exact continuing_following stepped
  | cons range rest =>
      simp only [step, Option.ite_none_right_eq_some,
        Option.some.injEq] at stepped
      obtain ⟨_, rfl⟩ := stepped
      exact fun range member =>
        continuing range (List.mem_cons_of_mem _ member)

theorem continuing_read
    {next : List Range}
    (continuing : Continuing owed)
    (done : read owed bytes = some next) :
    Continuing next := by
  induction bytes generalizing owed with
  | nil =>
      rw [read, Option.some.injEq] at done
      exact done ▸ continuing
  | cons byte rest inductionHypothesis =>
      rw [read, Option.bind_eq_some_iff] at done
      obtain ⟨owed', stepped, later⟩ := done
      exact inductionHypothesis (continuing_step continuing stepped) later

/-- A byte that continues a character. -/
def IsContinuation (byte : UInt8) : Prop :=
  0x80 ≤ byte ∧ byte ≤ 0xBF

instance (byte : UInt8) : Decidable (IsContinuation byte) :=
  inferInstanceAs (Decidable (_ ∧ _))

/-- No character starts with a continuation byte. -/
theorem following_of_isContinuation :
    ∀ byte, IsContinuation byte → following? byte = none :=
  forall_byte (by decide +kernel)

/-- A byte that can be read continues a character exactly in one. -/
theorem isContinuation_iff
    (continuing : Continuing owed)
    (reads : step owed byte ≠ none) :
    IsContinuation byte ↔ owed ≠ [] := by
  cases owed with
  | nil =>
      refine iff_of_false ?_ (by simp)
      intro continues
      exact reads (following_of_isContinuation byte continues)
  | cons range rest =>
      refine iff_of_true ?_ (List.cons_ne_nil _ _)
      have bounds := continuing range List.mem_cons_self
      have holds : range.Holds byte := by
        by_contra not
        exact reads (if_neg not)
      exact
        ⟨UInt8.le_trans bounds.1 holds.1,
          UInt8.le_trans holds.2 bounds.2⟩

end Read

section Characters

/-- A number that is the value of a byte. -/
theorem ofNat_eq
    {value : Nat}
    (byte : UInt8)
    (same : value = byte.toNat) :
    UInt8.ofNat value = byte := by
  rw [same, UInt8.ofNat_toNat]

/-- The character with a scalar value. -/
theorem exists_char
    (value : Nat)
    (scalar : value < 0xD800 ∨ (0xDFFF < value ∧ value < 0x110000)) :
    ∃ character : Char, character.val.toNat = value := by
  refine ⟨Char.ofNat value, ?_⟩
  rw [Char.ofNat, dif_pos scalar]
  rfl

theorem encode_one
    {first : UInt8}
    (low : first.toNat ≤ 0x7F) :
    ∃ character, String.utf8EncodeChar character = [first] := by
  obtain ⟨character, value⟩ :=
    exists_char first.toNat (Or.inl (by omega))
  refine ⟨character, ?_⟩
  unfold String.utf8EncodeChar
  simp only [value]
  rw [if_pos low, UInt8.ofNat_toNat]

theorem encode_two
    {first second : UInt8}
    (lead : 0xC2 ≤ first.toNat ∧ first.toNat ≤ 0xDF)
    (tail : 0x80 ≤ second.toNat ∧ second.toNat ≤ 0xBF) :
    ∃ character,
      String.utf8EncodeChar character = [first, second] := by
  obtain ⟨character, value⟩ :=
    exists_char
      ((first.toNat - 0xC0) * 64 + (second.toNat - 0x80))
      (Or.inl (by omega))
  refine ⟨character, ?_⟩
  unfold String.utf8EncodeChar
  simp only [value]
  rw [if_neg (by omega), if_pos (by omega),
    ofNat_eq first (by omega),
    ofNat_eq second (by omega)]

theorem encode_three
    {first second third : UInt8}
    (lead : 0xE0 ≤ first.toNat ∧ first.toNat ≤ 0xEF)
    (tail : 0x80 ≤ second.toNat ∧ second.toNat ≤ 0xBF)
    (tail' : 0x80 ≤ third.toNat ∧ third.toNat ≤ 0xBF)
    (shortest : first.toNat = 0xE0 → 0xA0 ≤ second.toNat)
    (scalar : first.toNat = 0xED → second.toNat ≤ 0x9F) :
    ∃ character,
      String.utf8EncodeChar character = [first, second, third] := by
  obtain ⟨character, value⟩ :=
    exists_char
      ((first.toNat - 0xE0) * 4096 + (second.toNat - 0x80) * 64 +
        (third.toNat - 0x80))
      (by omega)
  refine ⟨character, ?_⟩
  unfold String.utf8EncodeChar
  simp only [value]
  rw [if_neg (by omega), if_neg (by omega), if_pos (by omega),
    ofNat_eq first (by omega),
    ofNat_eq second (by omega),
    ofNat_eq third (by omega)]

theorem encode_four
    {first second third fourth : UInt8}
    (lead : 0xF0 ≤ first.toNat ∧ first.toNat ≤ 0xF4)
    (tail : 0x80 ≤ second.toNat ∧ second.toNat ≤ 0xBF)
    (tail' : 0x80 ≤ third.toNat ∧ third.toNat ≤ 0xBF)
    (tail'' : 0x80 ≤ fourth.toNat ∧ fourth.toNat ≤ 0xBF)
    (shortest : first.toNat = 0xF0 → 0x90 ≤ second.toNat)
    (scalar : first.toNat = 0xF4 → second.toNat ≤ 0x8F) :
    ∃ character,
      String.utf8EncodeChar character =
        [first, second, third, fourth] := by
  obtain ⟨character, value⟩ :=
    exists_char
      ((first.toNat - 0xF0) * 262144 + (second.toNat - 0x80) * 4096 +
        (third.toNat - 0x80) * 64 + (fourth.toNat - 0x80))
      (by omega)
  refine ⟨character, ?_⟩
  unfold String.utf8EncodeChar
  simp only [value]
  rw [if_neg (by omega), if_neg (by omega), if_neg (by omega),
    ofNat_eq first (by omega),
    ofNat_eq second (by omega),
    ofNat_eq third (by omega),
    ofNat_eq fourth (by omega)]

/-- What a range says of the value of a byte. -/
theorem Range.holds_iff (range : Range) (byte : UInt8) :
    range.Holds byte ↔
      range.low.toNat ≤ byte.toNat ∧ byte.toNat ≤ range.high.toNat := by
  simp only [Range.Holds, UInt8.le_iff_toNat_le]

/-- What the second range says of the value of a byte. -/
theorem Range.holds_second_iff (first byte : UInt8) :
    (Range.second first).Holds byte ↔
      (0x80 ≤ byte.toNat ∧ byte.toNat ≤ 0xBF) ∧
        (first.toNat = 0xE0 → 0xA0 ≤ byte.toNat) ∧
        (first.toNat = 0xF0 → 0x90 ≤ byte.toNat) ∧
        (first.toNat = 0xED → byte.toNat ≤ 0x9F) ∧
        (first.toNat = 0xF4 → byte.toNat ≤ 0x8F) := by
  have e0 : first = 0xE0 ↔ first.toNat = 0xE0 := UInt8.toNat_inj.symm
  have f0 : first = 0xF0 ↔ first.toNat = 0xF0 := UInt8.toNat_inj.symm
  have ed : first = 0xED ↔ first.toNat = 0xED := UInt8.toNat_inj.symm
  have f4 : first = 0xF4 ↔ first.toNat = 0xF4 := UInt8.toNat_inj.symm
  have low :
      (Range.second first).low.toNat =
        if first.toNat = 0xE0 then 0xA0
        else if first.toNat = 0xF0 then 0x90 else 0x80 := by
    simp only [Range.second, e0, f0]
    split
    · rfl
    · split <;> rfl
  have high :
      (Range.second first).high.toNat =
        if first.toNat = 0xED then 0x9F
        else if first.toNat = 0xF4 then 0x8F else 0xBF := by
    simp only [Range.second, ed, f4]
    split
    · rfl
    · split <;> rfl
  rw [Range.holds_iff, low, high]
  grind

/-- The first byte tells the length of a character. -/
theorem following_cases
    {first : UInt8}
    {owed : List Range}
    (starts : following? first = some owed) :
    (first.toNat ≤ 0x7F ∧ owed = []) ∨
      ((0xC2 ≤ first.toNat ∧ first.toNat ≤ 0xDF) ∧
        owed = [.tail]) ∨
      ((0xE0 ≤ first.toNat ∧ first.toNat ≤ 0xEF) ∧
        owed = [.second first, .tail]) ∨
      ((0xF0 ≤ first.toNat ∧ first.toNat ≤ 0xF4) ∧
        owed = [.second first, .tail, .tail]) := by
  unfold following? at starts
  simp only [UInt8.le_iff_toNat_le, UInt8.lt_iff_toNat_lt,
    UInt8.reduceToNat] at starts
  split at starts
  · rename_i low
    exact Or.inl ⟨low, (Option.some.inj starts).symm⟩
  split at starts
  · exact absurd starts (by simp)
  split at starts
  · rename_i lower upper
    exact Or.inr (Or.inl
      ⟨⟨Nat.not_lt.mp lower, upper⟩, (Option.some.inj starts).symm⟩)
  split at starts
  · rename_i lower upper
    exact Or.inr (Or.inr (Or.inl
      ⟨⟨by omega, upper⟩, (Option.some.inj starts).symm⟩))
  split at starts
  · rename_i lower upper
    exact Or.inr (Or.inr (Or.inr
      ⟨⟨by omega, upper⟩, (Option.some.inj starts).symm⟩))
  · exact absurd starts (by simp)

/-- The bytes that ask for none, one, two and three more. -/
theorem following_of_toNat {first : UInt8} :
    (first.toNat ≤ 0x7F → following? first = some []) ∧
      (0xC2 ≤ first.toNat ∧ first.toNat ≤ 0xDF →
        following? first = some [.tail]) ∧
      (0xE0 ≤ first.toNat ∧ first.toNat ≤ 0xEF →
        following? first = some [.second first, .tail]) ∧
      (0xF0 ≤ first.toNat ∧ first.toNat ≤ 0xF4 →
        following? first = some [.second first, .tail, .tail]) := by
  unfold following?
  simp only [UInt8.le_iff_toNat_le, UInt8.lt_iff_toNat_lt,
    UInt8.reduceToNat]
  grind

/-- A first byte and the bytes it asks for encode a character. -/
theorem exists_character
    {first : UInt8}
    {owed : List Range}
    {tails : List UInt8}
    (starts : following? first = some owed)
    (all : List.Forall₂ Range.Holds owed tails) :
    ∃ character, String.utf8EncodeChar character = first :: tails := by
  have tail (byte : UInt8) (holds : Range.tail.Holds byte) :
      0x80 ≤ byte.toNat ∧ byte.toNat ≤ 0xBF :=
    (Range.holds_iff _ _).mp holds
  rcases following_cases starts with
    ⟨low, rfl⟩ | ⟨lead, rfl⟩ | ⟨lead, rfl⟩ | ⟨lead, rfl⟩
  · cases all
    exact encode_one low
  · rcases all with _ | ⟨second, _ | _⟩
    exact encode_two lead (tail _ second)
  · rcases all with _ | ⟨second, _ | ⟨third, _ | _⟩⟩
    obtain ⟨bounds, shortest, _, scalar, _⟩ :=
      (Range.holds_second_iff _ _).mp second
    exact encode_three lead bounds (tail _ third) shortest scalar
  · rcases all with _ | ⟨second, _ | ⟨third, _ | ⟨fourth, _ | _⟩⟩⟩
    obtain ⟨bounds, _, shortest, _, scalar⟩ :=
      (Range.holds_second_iff _ _).mp second
    exact
      encode_four lead bounds (tail _ third) (tail _ fourth) shortest
        scalar

/-- A first byte is read to the end of the bytes it asks for. -/
theorem read_character
    {first : UInt8}
    {owed : List Range}
    {tails : List UInt8}
    (starts : following? first = some owed)
    (all : List.Forall₂ Range.Holds owed tails) :
    read [] (first :: tails) = some [] := by
  rw [read, step, starts, Option.bind_some]
  exact
    read_eq_nil_iff.mpr ⟨tails, [], (List.append_nil _).symm, all, rfl⟩

/-- A character's bytes are read to its end. -/
theorem read_encodeChar (character : Char) :
    read [] (String.utf8EncodeChar character) = some [] := by
  have valid :
      character.val.toNat < 0xD800 ∨
        (0xDFFF < character.val.toNat ∧
          character.val.toNat < 0x110000) :=
    character.valid
  have tail (value : Nat) :
      Range.tail.Holds (UInt8.ofNat (value % 0x40 + 0x80)) := by
    rw [Range.holds_iff, UInt8.toNat_ofNat']
    simp only [Range.tail, UInt8.reduceToNat]
    omega
  unfold String.utf8EncodeChar
  generalize character.val.toNat = value at valid ⊢
  dsimp only
  split
  · rename_i one
    apply read_character (following_of_toNat.1 _) .nil
    rw [UInt8.toNat_ofNat']
    omega
  split
  · rename_i two
    apply read_character (following_of_toNat.2.1 _) (.cons (tail _) .nil)
    rw [UInt8.toNat_ofNat']
    omega
  split
  · rename_i three
    apply read_character (following_of_toNat.2.2.1 _)
      (.cons _ (.cons (tail _) .nil))
    · rw [UInt8.toNat_ofNat']
      omega
    · rw [Range.holds_second_iff, UInt8.toNat_ofNat', UInt8.toNat_ofNat']
      omega
  · rename_i four
    apply read_character (following_of_toNat.2.2.2 _)
      (.cons _ (.cons (tail _) (.cons (tail _) .nil)))
    · rw [UInt8.toNat_ofNat']
      omega
    · rw [Range.holds_second_iff, UInt8.toNat_ofNat', UInt8.toNat_ofNat']
      omega

end Characters

section Valid

variable {bytes : List UInt8}

/-- A byte string is valid exactly when it is read to the end. -/
theorem valid_iff_read (bytes : List UInt8) :
    Valid bytes ↔ read [] bytes = some [] := by
  constructor
  · rintro ⟨characters, rfl⟩
    induction characters with
    | nil =>
        rfl
    | cons character rest inductionHypothesis =>
        rw [encode, List.flatMap_cons, read_append, read_encodeChar,
          Option.bind_some]
        exact inductionHypothesis
  · intro whole
    induction number : bytes.length using Nat.strongRecOn
      generalizing bytes with
    | ind number inductionHypothesis =>
        subst number
        cases bytes with
        | nil =>
            exact ⟨[], rfl⟩
        | cons first rest =>
            rw [read, Option.bind_eq_some_iff] at whole
            obtain ⟨owed, starts, whole⟩ := whole
            obtain ⟨tails, later, rfl, all, whole⟩ :=
              read_eq_nil_iff.mp whole
            obtain ⟨character, encoded⟩ := exists_character starts all
            obtain ⟨characters, rfl⟩ :=
              inductionHypothesis later.length
                (by rw [List.length_cons, List.length_append]; omega)
                later whole rfl
            refine ⟨character :: characters, ?_⟩
            have cons :
                encode (character :: characters) =
                  String.utf8EncodeChar character ++ encode characters :=
              List.flatMap_cons
            rw [cons, encoded, List.cons_append]

instance (bytes : List UInt8) : Decidable (Valid bytes) :=
  decidable_of_iff _ (valid_iff_read bytes).symm

/-- Where a valid string is cut, what is owed tells the next byte. -/
theorem exists_owed
    {byte : UInt8}
    {others : List UInt8}
    (whole : read [] (bytes ++ byte :: others) = some []) :
    ∃ owed,
      read [] bytes = some owed ∧
        read owed (byte :: others) = some [] ∧
        (IsContinuation byte ↔ owed ≠ []) := by
  rw [read_append, Option.bind_eq_some_iff] at whole
  obtain ⟨owed, front, back⟩ := whole
  have continuing : Continuing owed :=
    continuing_read (fun _ none => absurd none List.not_mem_nil) front
  refine ⟨owed, front, back, isContinuation_iff continuing ?_⟩
  intro stuck
  rw [read, stuck] at back
  exact absurd back (by simp)

/-- An ASCII byte ends every character. -/
theorem valid_append_cons_iff
    {byte : UInt8}
    (ascii : byte < 0x80)
    (bytes others : List UInt8) :
    Valid (bytes ++ byte :: others) ↔ Valid bytes ∧ Valid others := by
  have small : byte.toNat < 0x80 := UInt8.lt_iff_toNat_lt.mp ascii
  have alone : following? byte = some [] :=
    following_of_toNat.1 (Nat.le_of_lt_succ small)
  have last (others : List UInt8) :
      read [] (byte :: others) = read [] others := by
    rw [read, step, alone, Option.bind_some]
  simp only [valid_iff_read]
  constructor
  · intro whole
    obtain ⟨owed, front, back, continues⟩ := exists_owed whole
    have ended : owed = [] := by
      by_contra more
      exact UInt8.not_lt.mpr (continues.mpr more).1 ascii
    rw [ended] at front back
    exact ⟨front, (last others).symm.trans back⟩
  · rintro ⟨front, back⟩
    rw [read_append, front, Option.bind_some, last, back]

/-- ASCII bytes are valid. -/
theorem valid_of_ascii
    (ascii : ∀ byte ∈ bytes, byte < 0x80) :
    Valid bytes := by
  induction bytes with
  | nil =>
      exact ⟨[], rfl⟩
  | cons byte rest inductionHypothesis =>
      have first := ascii byte List.mem_cons_self
      have later :=
        inductionHypothesis fun other member =>
          ascii other (List.mem_cons_of_mem byte member)
      exact (valid_append_cons_iff first [] rest).mpr ⟨⟨[], rfl⟩, later⟩

/-- ASCII bytes in front change nothing. -/
theorem valid_ascii_append_iff
    (ascii : ∀ byte ∈ bytes, byte < 0x80)
    (others : List UInt8) :
    Valid (bytes ++ others) ↔ Valid others := by
  have front : read [] bytes = some [] :=
    (valid_iff_read bytes).mp (valid_of_ascii ascii)
  rw [valid_iff_read, valid_iff_read, read_append, front,
    Option.bind_some]

/--
A valid string can be cut in front of a byte exactly when the byte does not
continue a character.
-/
theorem Valid.take_iff
    (valid : Valid bytes)
    {number : Nat}
    (inside : number < bytes.length) :
    Valid (bytes.take number) ↔ ¬ IsContinuation bytes[number] := by
  have parts :
      bytes.take number ++ bytes[number] :: bytes.drop (number + 1) =
        bytes := by
    rw [List.getElem_cons_drop, List.take_append_drop]
  rw [valid_iff_read, ← parts] at valid
  obtain ⟨owed, front, _, continues⟩ := exists_owed valid
  rw [valid_iff_read, front, continues, not_not, Option.some.injEq]

/-- An ASCII byte does not continue a character. -/
theorem step_eq_none
    {owed : List Range}
    (continuing : Continuing owed)
    (more : owed ≠ [])
    {byte : UInt8}
    (ascii : byte < 0x80) :
    step owed byte = none := by
  by_contra reads
  have continues := (isContinuation_iff continuing reads).mpr more
  exact UInt8.not_lt.mpr continues.1 ascii

/-- Replacing ASCII bytes by ASCII strings changes nothing for a reader. -/
theorem read_flatMap
    {code : UInt8 → List UInt8}
    (some : ∀ byte < 0x80, code byte ≠ [])
    (ascii : ∀ byte < 0x80, ∀ other ∈ code byte, other < 0x80)
    (others : ∀ byte, ¬ byte < 0x80 → code byte = [byte])
    {owed : List Range}
    (continuing : Continuing owed)
    (bytes : List UInt8) :
    read owed (bytes.flatMap code) = read owed bytes := by
  induction bytes generalizing owed with
  | nil =>
      rfl
  | cons byte rest inductionHypothesis =>
      rw [List.flatMap_cons]
      by_cases plain : byte < 0x80
      · by_cases more : owed = []
        · subst more
          have front : read [] (code byte) = Option.some [] :=
            (valid_iff_read _).mp (valid_of_ascii (ascii byte plain))
          have alone : read [] [byte] = Option.some [] :=
            (valid_iff_read _).mp
              (valid_of_ascii fun other member =>
                List.mem_singleton.mp member ▸ plain)
          rw [read_append, front, Option.bind_some,
            inductionHypothesis continuing, ← List.singleton_append,
            read_append, alone, Option.bind_some]
        · obtain ⟨first, later, shape⟩ :=
            List.exists_cons_of_ne_nil (some byte plain)
          have low : first < 0x80 :=
            ascii byte plain first (shape ▸ List.mem_cons_self)
          rw [shape, List.cons_append, read, read,
            step_eq_none continuing more low,
            step_eq_none continuing more plain]
          rfl
      · rw [others byte plain, List.singleton_append, read, read]
        cases stepped : step owed byte with
        | none =>
            rfl
        | some next =>
            exact
              inductionHypothesis (continuing_step continuing stepped)

/-- Replacing ASCII bytes by ASCII strings keeps validity both ways. -/
theorem valid_flatMap_iff
    {code : UInt8 → List UInt8}
    (some : ∀ byte < 0x80, code byte ≠ [])
    (ascii : ∀ byte < 0x80, ∀ other ∈ code byte, other < 0x80)
    (others : ∀ byte, ¬ byte < 0x80 → code byte = [byte])
    (bytes : List UInt8) :
    Valid (bytes.flatMap code) ↔ Valid bytes := by
  have none : Continuing [] := fun _ member =>
    absurd member List.not_mem_nil
  rw [valid_iff_read, valid_iff_read, read_flatMap some ascii others none]

end Valid

end Utf8

end FailurePlayground
