import FailurePlayground.Lib.Numeral

namespace FailurePlayground

/-!
# A JSON parser over bytes

The grammar of JSON texts, with every byte from `0x20` on standing for one
character of a string: no UTF-8 decoding takes place.  A parser returns the
value and the bytes it has not consumed.  The rules at the end say what it
returns for text that was put together from encoded parts.
-/

/-- A JSON value; a number is its mantissa times a power of ten. -/
inductive Json where
  | null
  | bool (value : Bool)
  | number (mantissa exponent : Int)
  | string (units : List Nat)
  | array (elements : List Json)
  | object (members : List (List Nat × Json))
  deriving Repr

namespace Json

/-- A parser returns what it read and the bytes that are left. -/
abbrev Parser (Result : Type) :=
  List UInt8 → Option (Result × List UInt8)

/-- Space, tab, line feed and carriage return. -/
def isSpace (byte : UInt8) : Bool :=
  byte == 32 || byte == 9 || byte == 10 || byte == 13

def skipSpace (input : List UInt8) : List UInt8 :=
  input.dropWhile isSpace

section Strings

/-- The code unit of a two-character escape. -/
def shortEscape? (byte : UInt8) : Option Nat :=
  if byte = 34 ∨ byte = 92 ∨ byte = 47 then
    some byte.toNat
  else if byte = 98 then
    some 8
  else if byte = 102 then
    some 12
  else if byte = 110 then
    some 10
  else if byte = 114 then
    some 13
  else if byte = 116 then
    some 9
  else
    none

/-- Four hexadecimal digits. -/
def hexUnit : Parser Nat
  | first :: second :: third :: fourth :: rest => do
      let first ← Numeral.hexValue? first
      let second ← Numeral.hexValue? second
      let third ← Numeral.hexValue? third
      let fourth ← Numeral.hexValue? fourth
      some (4096 * first + 256 * second + 16 * third + fourth, rest)
  | _ => none

/-- One character of a string, escaped or not. -/
def character : Parser Nat
  | [] => none
  | byte :: rest =>
      if byte = 92 then
        match rest with
        | [] => none
        | escape :: later =>
            if escape = 117 then
              hexUnit later
            else do
              let unit ← shortEscape? escape
              some (unit, later)
      else if byte < 0x20 ∨ byte = 34 then
        none
      else
        some (byte.toNat, rest)

/-- The characters of a string up to the closing quote. -/
def stringBody : (fuel : Nat) → Parser (List Nat)
  | 0, _ => none
  | _ + 1, [] => none
  | fuel + 1, byte :: rest =>
      if byte = 34 then
        some ([], rest)
      else do
        let (unit, later) ← character (byte :: rest)
        let (units, later) ← stringBody fuel later
        some (unit :: units, later)

/-- A string with its quotes. -/
def quoted : Parser (List Nat)
  | [] => none
  | byte :: rest =>
      if byte = 34 then stringBody (rest.length + 1) rest else none

end Strings

section Numbers

/-- The digits in front. -/
def digits (input : List UInt8) : List UInt8 × List UInt8 :=
  (input.takeWhile Numeral.isDigit, input.dropWhile Numeral.isDigit)

/-- An optional minus sign. -/
def minus (input : List UInt8) : Bool × List UInt8 :=
  if input.head? = some 45 then (true, input.tail) else (false, input)

/-- An optional fraction. -/
def fraction (input : List UInt8) : Option (List UInt8 × List UInt8) :=
  if input.head? = some 46 then
    let (places, rest) := digits input.tail
    if places.isEmpty then none else some (places, rest)
  else
    some ([], input)

/-- An optional exponent. -/
def exponent (input : List UInt8) : Option (Int × List UInt8) :=
  if input.head? = some 101 ∨ input.head? = some 69 then
    let (negative, unsigned) :=
      if input.tail.head? = some 43 then
        (false, input.tail.tail)
      else
        minus input.tail
    let (places, rest) := digits unsigned
    if places.isEmpty then
      none
    else
      let magnitude : Int := Numeral.ofDecimal places
      some (if negative then -magnitude else magnitude, rest)
  else
    some (0, input)

/-- A number; its integer part has no leading zero. -/
def numeral : Parser Json := fun input => do
  let (negative, unsigned) := minus input
  let (whole, rest) := digits unsigned
  if whole.isEmpty ∨ (whole.head? = some 48 ∧ 1 < whole.length) then
    none
  else
    let (places, rest) ← fraction rest
    let (power, rest) ← exponent rest
    let magnitude : Int := Numeral.ofDecimal (whole ++ places)
    some
      (.number (if negative then -magnitude else magnitude)
        (power - places.length), rest)

end Numbers

section Values

/-- `null`, `true` or `false`. -/
def literal : Parser Json := fun input =>
  if (Bytes.ascii "null").isPrefixOf input then
    some (.null, input.drop 4)
  else if (Bytes.ascii "true").isPrefixOf input then
    some (.bool true, input.drop 4)
  else if (Bytes.ascii "false").isPrefixOf input then
    some (.bool false, input.drop 5)
  else
    none

variable {Item : Type} (close : UInt8) (item : Parser Item)

/-- One or more items with commas between them, and the closing bracket. -/
def separated : (fuel : Nat) → Parser (List Item)
  | 0, _ => none
  | fuel + 1, input => do
      let (first, rest) ← item input
      match skipSpace rest with
      | [] => none
      | byte :: later =>
          if byte = close then
            some ([first], later)
          else if byte = 44 then do
            let (others, rest) ← separated fuel later
            some (first :: others, rest)
          else
            none

/-- The items of an array or object after its opening bracket. -/
def bracketed : Parser (List Item) := fun input =>
  if (skipSpace input).head? = some close then
    some ([], (skipSpace input).tail)
  else
    separated close item (input.length + 1) input

/-- A name, a colon and a value. -/
def member (value : Parser Json) : Parser (List Nat × Json) :=
  fun input => do
    let (name, rest) ← quoted (skipSpace input)
    match skipSpace rest with
    | [] => none
    | byte :: later =>
        if byte = 58 then do
          let (read, rest) ← value later
          some ((name, read), rest)
        else
          none

/-- A value nested no deeper than the fuel. -/
def value : (fuel : Nat) → Parser Json
  | 0, _ => none
  | fuel + 1, input =>
      match skipSpace input with
      | [] => none
      | byte :: rest =>
          if byte = 123 then do
            let (members, later) ← bracketed 125 (member (value fuel)) rest
            some (.object members, later)
          else if byte = 91 then do
            let (elements, later) ← bracketed 93 (value fuel) rest
            some (.array elements, later)
          else if byte = 34 then do
            let (units, later) ← stringBody (rest.length + 1) rest
            some (.string units, later)
          else if byte = 45 ∨ Numeral.isDigit byte then
            numeral (byte :: rest)
          else
            literal (byte :: rest)

/-- A value at the front of the input. -/
def parseValue : Parser Json := fun input =>
  value (input.length + 1) input

/-- A JSON text: one value and white space. -/
def parse (text : List UInt8) : Option Json := do
  let (read, rest) ← parseValue text
  if (skipSpace rest).isEmpty then some read else none

end Values

example :
    (parse (Bytes.ascii
      " [1, -2.5e+3, \x7b\"a\" : \"\\u00e9\\n\"\x7d, null] ")).isSome =
      true := by
  decide +kernel

example :
    ["01", "[1,]", "\"\n\"", "\x7b\"a\":1,\x7d", "1 2"].all
        (fun text => (parse (Bytes.ascii text)).isNone) =
      true := by
  decide +kernel

/-- What may come after a value: a comma, a closing bracket, or white space. -/
def Delimits (later : List UInt8) : Prop :=
  ∀ byte ∈ later.head?,
    byte = 44 ∨ byte = 93 ∨ byte = 125 ∨ isSpace byte = true

theorem delimits_cons
    {byte : UInt8}
    (delimiter :
      byte = 44 ∨ byte = 93 ∨ byte = 125 ∨ isSpace byte = true)
    (rest : List UInt8) :
    Delimits (byte :: rest) := by
  intro other head
  rw [List.head?_cons, Option.mem_some_iff] at head
  exact head ▸ delimiter

theorem skipSpace_cons
    {byte : UInt8}
    (visible : isSpace byte = false)
    (rest : List UInt8) :
    skipSpace (byte :: rest) = byte :: rest := by
  simp only [skipSpace, List.dropWhile_cons, visible, Bool.false_eq_true,
    ↓reduceIte]

section NumberRules

variable {later : List UInt8}

/-- A delimiter continues no number. -/
theorem Delimits.head_not_numeric
    (delimits : Delimits later) :
    ∀ byte ∈ later.head?,
      Numeral.isDigit byte = false ∧ byte ≠ 46 ∧ byte ≠ 101 ∧
        byte ≠ 69 := by
  intro byte head
  rcases delimits byte head with rfl | rfl | rfl | space
  · decide
  · decide
  · decide
  · simp only [isSpace, Bool.or_eq_true, beq_iff_eq] at space
    rcases space with ((rfl | rfl) | rfl) | rfl
    · decide
    · decide
    · decide
    · decide

/-- The digits before a delimiter. -/
theorem digits_append
    {places : List UInt8}
    (all : ∀ byte ∈ places, Numeral.isDigit byte = true)
    (delimits : Delimits later) :
    digits (places ++ later) = (places, later) := by
  unfold digits
  rw [List.takeWhile_append_of_pos all, List.dropWhile_append_of_pos all]
  cases later with
  | nil =>
      simp
  | cons byte rest =>
      have stops := (delimits.head_not_numeric byte rfl).1
      simp [stops]

theorem fraction_of_delimits
    (delimits : Delimits later) :
    fraction later = some ([], later) := by
  have noPoint : later.head? ≠ some 46 := fun head =>
    (delimits.head_not_numeric 46 head).2.1 rfl
  simp only [fraction, noPoint, ↓reduceIte]

theorem exponent_of_delimits
    (delimits : Delimits later) :
    exponent later = some (0, later) := by
  have noSmall : later.head? ≠ some 101 := fun head =>
    (delimits.head_not_numeric 101 head).2.2.1 rfl
  have noLarge : later.head? ≠ some 69 := fun head =>
    (delimits.head_not_numeric 69 head).2.2.2 rfl
  simp only [exponent, noSmall, noLarge, or_self, ↓reduceIte]

/-- A digit opens neither a string, an array, an object nor a sign. -/
theorem ne_of_isDigit
    {byte : UInt8}
    (digit : Numeral.isDigit byte = true) :
    byte ≠ 45 ∧ byte ≠ 123 ∧ byte ≠ 91 ∧ byte ≠ 34 ∧
      isSpace byte = false := by
  have differs : ∀ other, Numeral.isDigit other = false → byte ≠ other :=
    fun other no same => by
      rw [same, no] at digit
      exact absurd digit (by decide)
  refine ⟨differs 45 rfl, differs 123 rfl, differs 91 rfl, differs 34 rfl,
    ?_⟩
  simp only [isSpace, Bool.or_eq_false_iff, beq_eq_false_iff_ne]
  exact ⟨⟨⟨differs 32 rfl, differs 9 rfl⟩, differs 10 rfl⟩,
    differs 13 rfl⟩

/-- A printed numeral is not empty and has no leading zero. -/
theorem decimal_wellFormed (number : Nat) :
    ¬ ((Numeral.decimal number).isEmpty = true ∨
      ((Numeral.decimal number).head? = some 48 ∧
        1 < (Numeral.decimal number).length)) := by
  rcases Numeral.decimal_cases number with
    zero | ⟨first, rest, small, nonzero, shape⟩
  · rw [zero]
    decide
  · rw [shape]
    simp [Numeral.digit_ne_zero small nonzero]

/-- A numeral after its optional sign. -/
theorem numeral_of_minus
    {input : List UInt8}
    {negative : Bool}
    {magnitude : Nat}
    (sign :
      minus input = (negative, Numeral.decimal magnitude ++ later))
    (delimits : Delimits later) :
    numeral input =
      some (.number (if negative then -magnitude else magnitude) 0,
        later) := by
  have unsigned :
      digits (Numeral.decimal magnitude ++ later) =
        (Numeral.decimal magnitude, later) :=
    digits_append (fun _ member => Numeral.isDigit_of_mem_decimal member)
      delimits
  simp only [numeral, sign, unsigned, if_neg (decimal_wellFormed magnitude),
    fraction_of_delimits delimits, exponent_of_delimits delimits,
    Option.bind_eq_bind, Option.bind_some, List.append_nil,
    Numeral.ofDecimal_decimal, List.length_nil, Nat.cast_zero, sub_zero]

/-- A printed numeral starts with a digit. -/
theorem exists_digit_decimal (number : Nat) :
    ∃ first rest,
      Numeral.decimal number = first :: rest ∧
        Numeral.isDigit first = true := by
  rcases Numeral.decimal_cases number with
    zero | ⟨first, rest, small, _, shape⟩
  · exact ⟨48, [], zero, rfl⟩
  · exact ⟨_, rest, shape, Numeral.isDigit_digit small⟩

/-- A printed integer reads back as itself. -/
theorem numeral_signed
    (number : Int)
    (delimits : Delimits later) :
    numeral (Numeral.signed number ++ later) =
      some (.number number 0, later) := by
  by_cases negative : number < 0
  · have sign :
        minus (Numeral.signed number ++ later) =
          (true, Numeral.decimal number.natAbs ++ later) := by
      simp only [Numeral.signed, negative, ↓reduceIte]
      rfl
    have value : -(number.natAbs : Int) = number := by omega
    rw [numeral_of_minus sign delimits, if_pos rfl, value]
  · have sign :
        minus (Numeral.signed number ++ later) =
          (false, Numeral.decimal number.natAbs ++ later) := by
      rcases exists_digit_decimal number.natAbs with
        ⟨first, rest, shape, digit⟩
      have plain := (ne_of_isDigit digit).1
      simp [Numeral.signed, negative, minus, shape, plain]
    have value : (number.natAbs : Int) = number := by omega
    rw [numeral_of_minus sign delimits, if_neg Bool.false_ne_true, value]

/-- A printed integer starts with a minus sign or a digit. -/
theorem exists_first_signed (number : Int) :
    ∃ first rest,
      Numeral.signed number = first :: rest ∧
        (first = 45 ∨ Numeral.isDigit first = true) := by
  rcases exists_digit_decimal number.natAbs with
    ⟨first, rest, shape, digit⟩
  unfold Numeral.signed
  split
  · exact ⟨45, Numeral.decimal number.natAbs, rfl, Or.inl rfl⟩
  · exact ⟨first, rest, shape, Or.inr digit⟩

/-- A printed integer is read as a number value. -/
theorem value_signed
    (fuel : Nat)
    (number : Int)
    (delimits : Delimits later) :
    value (fuel + 1) (Numeral.signed number ++ later) =
      some (.number number 0, later) := by
  have read := numeral_signed number delimits
  rcases exists_first_signed number with ⟨first, rest, shape, opens⟩
  rw [shape, List.cons_append] at read ⊢
  have apart :
      first ≠ 123 ∧ first ≠ 91 ∧ first ≠ 34 ∧ isSpace first = false := by
    rcases opens with rfl | digit
    · decide
    · exact (ne_of_isDigit digit).2
  obtain ⟨noObject, noArray, noString, visible⟩ := apart
  simp only [value, skipSpace_cons visible, noObject, noArray, noString,
    opens, ↓reduceIte, read]

end NumberRules

section StringRules

/-- The code of one character is read back as its unit, whatever follows. -/
structure IsCharacter (unit : Nat) (code : List UInt8) : Prop where
  reads : ∀ later, character (code ++ later) = some (unit, later)
  opens : ∃ byte rest, code = byte :: rest ∧ byte ≠ 34

/-- A byte that needs no escape stands for itself. -/
theorem isCharacter_plain
    {byte : UInt8}
    (printable : ¬ byte < 0x20)
    (noQuote : byte ≠ 34)
    (noBackslash : byte ≠ 92) :
    IsCharacter byte.toNat [byte] where
  reads later := by
    simp [character, printable, noQuote, noBackslash]
  opens := ⟨byte, [], rfl, noQuote⟩

/-- A two-character escape stands for its unit. -/
theorem isCharacter_short
    {escape : UInt8}
    {unit : Nat}
    (short : shortEscape? escape = some unit) :
    IsCharacter unit [92, escape] where
  reads later := by
    have noUnicode : escape ≠ 117 := by
      rintro rfl
      have unknown : shortEscape? 117 = none := rfl
      rw [unknown] at short
      exact absurd short (by simp)
    simp [character, noUnicode, short]
  opens := ⟨92, [escape], rfl, by decide⟩

/-- A `\u` escape stands for the unit with its four digits. -/
theorem isCharacter_hex4
    {unit : Nat}
    (fits : unit < 65536) :
    IsCharacter unit (92 :: 117 :: Numeral.hex4 unit) where
  reads later := by
    have digit :
        ∀ place, Numeral.hexValue? (Numeral.digit (place % 16)) =
          some (place % 16) :=
      fun place => Numeral.hexValue?_digit (Nat.mod_lt place (by decide))
    simp [character, hexUnit, Numeral.hex4, digit,
      Numeral.hex4_digits fits]
  opens := ⟨92, 117 :: Numeral.hex4 unit, rfl, by decide⟩

/-- The text of a string: its characters' codes between quotes. -/
def quote
    {Symbol : Type}
    (code : Symbol → List UInt8)
    (symbols : List Symbol) : List UInt8 :=
  34 :: (symbols.flatMap code ++ [34])

variable
  {Symbol : Type}
  {unit : Symbol → Nat}
  {code : Symbol → List UInt8}
  (characters : ∀ symbol, IsCharacter (unit symbol) (code symbol))

include characters

/-- Every character takes at least one byte. -/
theorem length_le_length_flatMap (symbols : List Symbol) :
    symbols.length ≤ (symbols.flatMap code).length := by
  induction symbols with
  | nil =>
      exact Nat.le_refl _
  | cons symbol rest inductionHypothesis =>
      rcases (characters symbol).opens with ⟨byte, bytes, shape, _⟩
      simp only [List.flatMap_cons, List.length_append, List.length_cons,
        shape]
      omega

/-- The characters before a closing quote. -/
theorem stringBody_flatMap
    {fuel : Nat}
    {symbols : List Symbol}
    (enough : symbols.length < fuel)
    (later : List UInt8) :
    stringBody fuel (symbols.flatMap code ++ 34 :: later) =
      some (symbols.map unit, later) := by
  induction symbols generalizing fuel with
  | nil =>
      cases fuel with
      | zero =>
          exact absurd enough (Nat.not_lt_zero _)
      | succ fuel =>
          rfl
  | cons symbol rest inductionHypothesis =>
      cases fuel with
      | zero =>
          exact absurd enough (Nat.not_lt_zero _)
      | succ fuel =>
          have tail :=
            inductionHypothesis (Nat.lt_of_succ_lt_succ enough)
          have head :=
            (characters symbol).reads (rest.flatMap code ++ 34 :: later)
          rcases (characters symbol).opens with
            ⟨byte, bytes, shape, noQuote⟩
          rw [shape] at head
          rw [List.flatMap_cons, List.append_assoc, shape,
            List.cons_append]
          rw [List.cons_append] at head
          simp only [stringBody, noQuote, ↓reduceIte, head, tail,
            Option.bind_eq_bind, Option.bind_some, List.map_cons]

/-- The characters of a string are fewer than the bytes after its quote. -/
theorem stringBody_quote
    (symbols : List Symbol)
    (later : List UInt8) :
    stringBody ((symbols.flatMap code ++ 34 :: later).length + 1)
        (symbols.flatMap code ++ 34 :: later) =
      some (symbols.map unit, later) := by
  refine stringBody_flatMap characters ?_ later
  have shorter := length_le_length_flatMap characters symbols
  rw [List.length_append]
  omega

theorem quoted_quote
    (symbols : List Symbol)
    (later : List UInt8) :
    quoted (quote code symbols ++ later) =
      some (symbols.map unit, later) := by
  have body := stringBody_quote characters symbols later
  simpa [quoted, quote] using body

theorem value_quote
    (fuel : Nat)
    (symbols : List Symbol)
    (later : List UInt8) :
    value (fuel + 1) (quote code symbols ++ later) =
      some (.string (symbols.map unit), later) := by
  have body := stringBody_quote characters symbols later
  have visible : isSpace 34 = false := rfl
  have noObject : (34 : UInt8) ≠ 123 := by decide
  have noArray : (34 : UInt8) ≠ 91 := by decide
  rw [quote, List.cons_append, List.append_assoc, List.singleton_append]
  simp only [value, skipSpace_cons visible, noObject, noArray,
    ↓reduceIte, body, Option.bind_eq_bind, Option.bind_some]

end StringRules

section ListRules

variable
  {Entry Item : Type}
  {close : UInt8}
  {item : Parser Item}
  {text : Entry → List UInt8}
  {result : Entry → Item}

/-- Every item takes at least its comma. -/
theorem length_le_length_commas
    (text : Entry → List UInt8)
    (entries : List Entry) :
    entries.length ≤
      (entries.flatMap fun entry => 44 :: text entry).length := by
  induction entries with
  | nil =>
      exact Nat.le_refl _
  | cons entry rest inductionHypothesis =>
      simp only [List.flatMap_cons, List.length_append, List.length_cons]
      omega

/-- Items with commas between them. -/
theorem separated_items
    (closing : close = 93 ∨ close = 125)
    {first : Entry}
    {rest : List Entry}
    (reads :
      ∀ entry ∈ first :: rest, ∀ later, Delimits later →
        item (text entry ++ later) = some (result entry, later))
    {fuel : Nat}
    (enough : rest.length < fuel)
    (later : List UInt8) :
    separated close item fuel
        (text first ++
          ((rest.flatMap fun entry => 44 :: text entry) ++
            close :: later)) =
      some (result first :: rest.map result, later) := by
  have visible : isSpace close = false := by
    rcases closing with rfl | rfl
    · rfl
    · rfl
  induction rest generalizing first fuel with
  | nil =>
      cases fuel with
      | zero =>
          exact absurd enough (Nat.not_lt_zero _)
      | succ fuel =>
          have closes : Delimits (close :: later) :=
            delimits_cons (Or.inr (by
              rcases closing with rfl | rfl
              · exact Or.inl rfl
              · exact Or.inr (Or.inl rfl))) later
          have head := reads first List.mem_cons_self _ closes
          simp only [separated, List.flatMap_nil, List.nil_append, head,
            Option.bind_eq_bind, Option.bind_some,
            skipSpace_cons visible, ↓reduceIte, List.map_nil]
  | cons second others inductionHypothesis =>
      cases fuel with
      | zero =>
          exact absurd enough (Nat.not_lt_zero _)
      | succ fuel =>
          have goesOn :
              Delimits
                (44 :: (text second ++
                  ((others.flatMap fun entry => 44 :: text entry) ++
                    close :: later))) :=
            delimits_cons (Or.inl rfl) _
          have head := reads first List.mem_cons_self _ goesOn
          have tail :=
            inductionHypothesis
              (fun entry member =>
                reads entry (List.mem_cons_of_mem first member))
              (Nat.lt_of_succ_lt_succ enough)
          have comma : isSpace 44 = false := rfl
          have notClose : (44 : UInt8) ≠ close := by
            rcases closing with rfl | rfl
            · decide
            · decide
          simp only [separated, List.flatMap_cons, List.cons_append,
            List.append_assoc, head, Option.bind_eq_bind,
            Option.bind_some, skipSpace_cons comma, notClose,
            ↓reduceIte, tail, List.map_cons]

end ListRules

section ObjectRules

/-- A member as it is printed: its name, and its value's text. -/
structure Field (Symbol : Type) where
  name : List Symbol
  text : List UInt8
  value : Json

variable {Symbol : Type}

/-- The text of a member. -/
def Field.print
    (code : Symbol → List UInt8)
    (field : Field Symbol) : List UInt8 :=
  quote code field.name ++ 58 :: field.text

/-- The member that is read back. -/
def Field.result
    (unit : Symbol → Nat)
    (field : Field Symbol) : List Nat × Json :=
  (field.name.map unit, field.value)

/-- The text of an object with at least one member. -/
def objectText
    (code : Symbol → List UInt8)
    (first : Field Symbol)
    (rest : List (Field Symbol)) : List UInt8 :=
  123 :: (first.print code ++
    ((rest.flatMap fun field => 44 :: field.print code) ++ [125]))

variable
  {unit : Symbol → Nat}
  {code : Symbol → List UInt8}
  (characters : ∀ symbol, IsCharacter (unit symbol) (code symbol))

include characters

/-- A printed member is read back when its value is. -/
theorem member_print
    {fuel : Nat}
    {field : Field Symbol}
    {later : List UInt8}
    (read :
      Json.value fuel (field.text ++ later) = some (field.value, later)) :
    member (Json.value fuel) (field.print code ++ later) =
      some (field.result unit, later) := by
  have name :=
    quoted_quote characters field.name (58 :: (field.text ++ later))
  have opens :
      skipSpace
          (quote code field.name ++ 58 :: (field.text ++ later)) =
        quote code field.name ++ 58 :: (field.text ++ later) :=
    skipSpace_cons rfl _
  have colon : isSpace 58 = false := rfl
  rw [Field.print, List.append_assoc, List.cons_append]
  simp only [member, opens, name, Option.bind_eq_bind, Option.bind_some,
    skipSpace_cons colon, ↓reduceIte, read, Field.result]

/-- A printed object is read back when the values of its members are. -/
theorem value_objectText
    {fuel : Nat}
    {first : Field Symbol}
    {rest : List (Field Symbol)}
    (reads :
      ∀ field ∈ first :: rest, ∀ later, Delimits later →
        Json.value fuel (field.text ++ later) =
          some (field.value, later))
    (later : List UInt8) :
    Json.value (fuel + 1) (objectText code first rest ++ later) =
      some (.object ((first :: rest).map (Field.result unit)), later) := by
  have items :
      ∀ {enough : Nat}, rest.length < enough →
        separated 125 (member (Json.value fuel)) enough
            (first.print code ++
              ((rest.flatMap fun field => 44 :: field.print code) ++
                125 :: later)) =
          some ((first :: rest).map (Field.result unit), later) :=
    fun bound =>
      separated_items (Or.inr rfl)
        (fun field member later delimits =>
          member_print characters (reads field member later delimits))
        bound later
  have opens :
      (skipSpace
          (first.print code ++
            ((rest.flatMap fun field => 44 :: field.print code) ++
              125 :: later))).head? ≠ some 125 := by
    rw [Field.print, quote, List.cons_append, List.cons_append,
      skipSpace_cons rfl]
    simp
  have longer :
      rest.length <
        (first.print code ++
            ((rest.flatMap fun field => 44 :: field.print code) ++
              125 :: later)).length + 1 := by
    have shorter :=
      length_le_length_commas (fun field => field.print code) rest
    simp only [List.length_append]
    omega
  have visible : isSpace 123 = false := rfl
  rw [objectText, List.cons_append]
  simp only [List.append_assoc, List.singleton_append, Json.value,
    skipSpace_cons visible, ↓reduceIte, bracketed, opens, items longer,
    Option.bind_eq_bind, Option.bind_some]

end ObjectRules

section Bytes

variable
  {good : UInt8 → Prop}
  {Symbol : Type}
  {code : Symbol → List UInt8}

/-- The bytes of a quoted string are quotes and bytes of its characters. -/
theorem forall_mem_quote
    (quotes : good 34)
    {symbols : List Symbol}
    (codes : ∀ symbol ∈ symbols, ∀ byte ∈ code symbol, good byte) :
    ∀ byte ∈ quote code symbols, good byte := by
  intro byte member
  simp only [quote, List.mem_cons, List.mem_append, List.mem_flatMap,
    List.not_mem_nil, or_false] at member
  rcases member with rfl | ⟨symbol, among, within⟩ | rfl
  · exact quotes
  · exact codes symbol among byte within
  · exact quotes

/-- The bytes of an object are punctuation and bytes of its members. -/
theorem forall_mem_objectText
    {first : Field Symbol}
    {rest : List (Field Symbol)}
    (punctuation : ∀ byte ∈ [34, 44, 58, 123, 125], good byte)
    (codes : ∀ symbol, ∀ byte ∈ code symbol, good byte)
    (texts : ∀ field ∈ first :: rest, ∀ byte ∈ field.text, good byte) :
    ∀ byte ∈ objectText code first rest, good byte := by
  have printed :
      ∀ field ∈ first :: rest, ∀ byte ∈ field.print code, good byte := by
    intro field member byte within
    simp only [Field.print, List.mem_append, List.mem_cons] at within
    rcases within with name | rfl | value
    · exact
        forall_mem_quote (punctuation 34 (by simp))
          (fun symbol _ => codes symbol) byte name
    · exact punctuation 58 (by simp)
    · exact texts field member byte value
  intro byte within
  simp only [objectText, List.mem_cons, List.mem_append, List.mem_flatMap,
    List.not_mem_nil, or_false] at within
  rcases within with rfl | head | ⟨field, member, rfl | tail⟩ | rfl
  · exact punctuation 123 (by simp)
  · exact printed first List.mem_cons_self byte head
  · exact punctuation 44 (by simp)
  · exact printed field (List.mem_cons_of_mem first member) byte tail
  · exact punctuation 125 (by simp)

end Bytes

end Json

end FailurePlayground
