import FailurePlayground.Headless
import FailurePlayground.Lib.Json

namespace FailurePlayground

/-!
# Reading `--json` output back

The line of an event is the text of an object with six members followed by a
newline, and nothing in it but that newline is a control character.
-/

section Characters

/-- Not a control character. -/
def Printable (byte : UInt8) : Prop :=
  ¬ byte < 0x20

instance (byte : UInt8) : Decidable (Printable byte) :=
  inferInstanceAs (Decidable ¬ _)

theorem printable_digit {value : Nat} :
    value < 16 → Printable (Numeral.digit value) := by
  revert value
  decide

theorem printable_of_isDigit
    {byte : UInt8}
    (digit : Numeral.isDigit byte = true) :
    Printable byte := by
  intro control
  simp only [Numeral.isDigit, Bool.and_eq_true, decide_eq_true_eq] at digit
  exact absurd (UInt8.lt_of_le_of_lt digit.1 control) (by decide)

/-- A byte is escaped with two characters, as a code unit, or not at all. -/
theorem jsonEscapeByte_cases (c : UInt8) :
    (∃ escape,
      jsonEscapeByte c = [92, escape] ∧
        Json.shortEscape? escape = some c.toNat ∧ Printable escape) ∨
      jsonEscapeByte c = 92 :: 117 :: Numeral.hex4 c.toNat ∨
      (jsonEscapeByte c = [c] ∧ c ≠ 34 ∧ c ≠ 92 ∧ Printable c) := by
  by_cases quote : c = 34
  · subst quote
    exact Or.inl ⟨34, by decide⟩
  by_cases backslash : c = 92
  · subst backslash
    exact Or.inl ⟨92, by decide⟩
  by_cases newline : c = 10
  · subst newline
    exact Or.inl ⟨110, by decide⟩
  by_cases carriage : c = 13
  · subst carriage
    exact Or.inl ⟨114, by decide⟩
  by_cases tab : c = 9
  · subst tab
    exact Or.inl ⟨116, by decide⟩
  by_cases control : c < 0x20
  · right
    left
    simp only [jsonEscapeByte, quote, backslash, newline, carriage, tab,
      control, ↓reduceIte]
    rfl
  · right
    right
    simp only [jsonEscapeByte, quote, backslash, newline, carriage, tab,
      control, ↓reduceIte]
    exact ⟨trivial, quote, backslash, control⟩

/-- What `json_escape` writes for a byte is a character with its value. -/
theorem isCharacter_jsonEscapeByte (c : UInt8) :
    Json.IsCharacter c.toNat (jsonEscapeByte c) := by
  rcases jsonEscapeByte_cases c with
    ⟨escape, shape, short, _⟩ | shape | ⟨shape, noQuote, noBackslash, plain⟩
  · rw [shape]
    exact Json.isCharacter_short short
  · rw [shape]
    exact Json.isCharacter_hex4 (Nat.lt_trans c.toNat_lt (by decide))
  · rw [shape]
    exact Json.isCharacter_plain plain noQuote noBackslash

/-- Escaping leaves no control character. -/
theorem printable_jsonEscapeByte (c : UInt8) :
    ∀ byte ∈ jsonEscapeByte c, Printable byte := by
  have backslash : Printable 92 := by decide
  have digit : ∀ place, Printable (Numeral.digit (place % 16)) :=
    fun place => printable_digit (Nat.mod_lt place (by decide))
  rcases jsonEscapeByte_cases c with
    ⟨escape, shape, _, plain⟩ | shape | ⟨shape, _, _, plain⟩
  · simp only [shape, List.forall_mem_cons]
    exact ⟨backslash, plain, List.forall_mem_nil _⟩
  · have u : Printable 117 := by decide
    simp only [shape, Numeral.hex4, List.forall_mem_cons]
    exact ⟨backslash, u, digit _, digit _, digit _, digit _,
      List.forall_mem_nil _⟩
  · simp only [shape, List.forall_mem_cons]
    exact ⟨plain, List.forall_mem_nil _⟩

theorem printable_jsonQuoted (string : List UInt8) :
    ∀ byte ∈ jsonQuoted string, Printable byte :=
  Json.forall_mem_quote (by decide +kernel)
    fun symbol _ => printable_jsonEscapeByte symbol

theorem printable_signed (number : Int) :
    ∀ byte ∈ Numeral.signed number, Printable byte :=
  Numeral.forall_mem_signed (by decide)
    fun _ digit => printable_of_isDigit digit

end Characters

section Members

variable (event : PgEvent)

/-- The strings a record's members hold. -/
def PgEvent.string (field : StringField) : List UInt8 :=
  cStringOf (field.bytes event)

/-- A member with a string. -/
def stringMember (name : String) (string : List UInt8) :
    Json.Field UInt8 where
  name := Bytes.ascii name
  text := jsonQuoted string
  value := .string (string.map UInt8.toNat)

/-- A member with an integer. -/
def integerMember (name : String) (number : Int) : Json.Field UInt8 where
  name := Bytes.ascii name
  text := Numeral.signed number
  value := .number number 0

/-- The first member of an event's object. -/
def kindMember : Json.Field UInt8 :=
  stringMember "kind" (pgEventKindName event.kind)

/-- The other members of an event's object. -/
def otherMembers : List (Json.Field UInt8) :=
  [integerMember "ts_ns" event.tsNs.toNat,
    integerMember "thread" event.threadTag.toNat,
    stringMember "key" (event.string .key),
    integerMember "num" event.num.toInt,
    stringMember "text" (event.string .text)]

/-- The line of an event without its newline. -/
def jsonText : List UInt8 :=
  Json.objectText jsonEscapeByte (kindMember event) (otherMembers event)

/-- The object a reader gets for an event. -/
def jsonObject : Json :=
  .object
    ((kindMember event :: otherMembers event).map
      (Json.Field.result UInt8.toNat))

/-- A natural number is printed alike as unsigned and as signed. -/
theorem signed_natCast (number : Nat) :
    Numeral.signed number = Numeral.decimal number := by
  simp [Numeral.signed]

/-- The line of an event is its object's text and a newline. -/
theorem jsonLineOf_eq :
    jsonLineOf event (event.string .key) (event.string .text) =
      jsonText event ++ [10] := by
  have kind :
      Bytes.ascii "\x7b\"kind\":" =
        123 :: (Json.quote jsonEscapeByte (Bytes.ascii "kind") ++
          [58]) := by
    decide +kernel
  have tsNs :
      Bytes.ascii ",\"ts_ns\":" =
        44 :: (Json.quote jsonEscapeByte (Bytes.ascii "ts_ns") ++
          [58]) := by
    decide +kernel
  have thread :
      Bytes.ascii ",\"thread\":" =
        44 :: (Json.quote jsonEscapeByte (Bytes.ascii "thread") ++
          [58]) := by
    decide +kernel
  have key :
      Bytes.ascii ",\"key\":" =
        44 :: (Json.quote jsonEscapeByte (Bytes.ascii "key") ++
          [58]) := by
    decide +kernel
  have num :
      Bytes.ascii ",\"num\":" =
        44 :: (Json.quote jsonEscapeByte (Bytes.ascii "num") ++
          [58]) := by
    decide +kernel
  have text :
      Bytes.ascii ",\"text\":" =
        44 :: (Json.quote jsonEscapeByte (Bytes.ascii "text") ++
          [58]) := by
    decide +kernel
  have ends : Bytes.ascii "\x7d\n" = [125, 10] := by decide
  simp only [jsonLineOf, kind, tsNs, thread, key, num, text, ends,
    jsonText, Json.objectText, kindMember, otherMembers,
    Json.Field.print, stringMember, integerMember, signed_natCast,
    List.flatMap_cons, List.flatMap_nil, List.cons_append,
    List.append_assoc, List.nil_append, List.append_nil]

/-- Every member of an event's object is a string or an integer. -/
theorem members_cases
    {field : Json.Field UInt8}
    (member : field ∈ kindMember event :: otherMembers event) :
    (∃ name string, field = stringMember name string) ∨
      ∃ name number, field = integerMember name number := by
  simp only [kindMember, otherMembers, List.mem_cons, List.not_mem_nil,
    or_false] at member
  rcases member with rfl | rfl | rfl | rfl | rfl | rfl
  · exact Or.inl ⟨_, _, rfl⟩
  · exact Or.inr ⟨_, _, rfl⟩
  · exact Or.inr ⟨_, _, rfl⟩
  · exact Or.inl ⟨_, _, rfl⟩
  · exact Or.inr ⟨_, _, rfl⟩
  · exact Or.inl ⟨_, _, rfl⟩

/-- A JSON parser consumes the text of an event and returns its object. -/
theorem parseValue_jsonText (later : List UInt8) :
    Json.parseValue (jsonText event ++ later) =
      some (jsonObject event, later) := by
  have nonempty : (jsonText event ++ later).length ≠ 0 := by
    simp [jsonText, Json.objectText]
  rcases Nat.exists_eq_succ_of_ne_zero nonempty with ⟨fuel, length⟩
  rw [Json.parseValue, length]
  refine Json.value_objectText isCharacter_jsonEscapeByte ?_ later
  intro field member rest delimits
  rcases members_cases event member with
    ⟨name, string, rfl⟩ | ⟨name, number, rfl⟩
  · exact Json.value_quote isCharacter_jsonEscapeByte fuel string rest
  · exact Json.value_signed fuel number delimits

/-- The text of an event contains no control character. -/
theorem printable_jsonText :
    ∀ byte ∈ jsonText event, Printable byte := by
  refine Json.forall_mem_objectText (by decide +kernel)
    printable_jsonEscapeByte ?_
  intro field member
  rcases members_cases event member with
    ⟨name, string, rfl⟩ | ⟨name, number, rfl⟩
  · exact printable_jsonQuoted string
  · exact printable_signed number

/-- The text of an event contains no newline. -/
theorem no_newline_jsonText :
    ∀ byte ∈ jsonText event, (byte == 10) = false := by
  intro byte member
  rw [beq_eq_false_iff_ne]
  rintro rfl
  exact absurd (printable_jsonText event 10 member) (by decide)

end Members

section Reader

/-- What a reader of a line learns. -/
structure JsonEvent where
  kind : List UInt8
  tsNs : Nat
  thread : Nat
  key : List UInt8
  num : Int
  text : List UInt8
  deriving Repr, DecidableEq

/-- The value of the first member with a name. -/
def member? (members : List (List Nat × Json)) (name : String) :
    Option Json :=
  (members.find? fun member =>
    member.1 = (Bytes.ascii name).map UInt8.toNat).map Prod.snd

/-- The bytes of a string all of whose units are bytes. -/
def bytes? : Json → Option (List UInt8)
  | .string units =>
      if units.all (· < 256) then
        some (units.map UInt8.ofNat)
      else
        none
  | .null | .bool _ | .number _ _ | .array _ | .object _ => none

/-- The integer a number without a fraction stands for. -/
def integer? : Json → Option Int
  | .number mantissa exponent =>
      if exponent = 0 then some mantissa else none
  | .null | .bool _ | .string _ | .array _ | .object _ => none

/-- The event an object describes. -/
def JsonEvent.ofJson? : Json → Option JsonEvent
  | .object members => do
      let kind ← (member? members "kind").bind bytes?
      let tsNs ← (member? members "ts_ns").bind integer?
      let thread ← (member? members "thread").bind integer?
      let key ← (member? members "key").bind bytes?
      let num ← (member? members "num").bind integer?
      let text ← (member? members "text").bind bytes?
      some {
        kind := kind
        tsNs := tsNs.toNat
        thread := thread.toNat
        key := key
        num := num
        text := text }
  | .null | .bool _ | .number _ _ | .string _ | .array _ => none

/-- What the record of an event holds. -/
def JsonEvent.ofEvent (event : PgEvent) : JsonEvent where
  kind := pgEventKindName event.kind
  tsNs := event.tsNs.toNat
  thread := event.threadTag.toNat
  key := event.string .key
  num := event.num.toInt
  text := event.string .text

/-- Split the output into its lines and read each one. -/
def decodeLines (output : List UInt8) : Option (List JsonEvent) :=
  (output.splitOn 10).dropLast.mapM fun line =>
    (Json.parse line).bind JsonEvent.ofJson?

theorem bytes?_string (string : List UInt8) :
    bytes? (.string (string.map UInt8.toNat)) = some string := by
  have small :
      (string.map UInt8.toNat).all (· < 256) = true := by
    rw [List.all_map, List.all_eq_true]
    exact fun byte _ => decide_eq_true byte.toNat_lt
  have inverse : UInt8.ofNat ∘ UInt8.toNat = id :=
    funext fun _ => UInt8.ofNat_toNat
  simp only [bytes?, small, ↓reduceIte, List.map_map, inverse, List.map_id]

/-- A reader gets the values of the event back from its object. -/
theorem ofJson?_jsonObject (event : PgEvent) :
    JsonEvent.ofJson? (jsonObject event) =
      some (JsonEvent.ofEvent event) := by
  let members :=
    (kindMember event :: otherMembers event).map
      (Json.Field.result UInt8.toNat)
  have kind :
      member? members "kind" =
        some (.string ((pgEventKindName event.kind).map UInt8.toNat)) :=
    rfl
  have tsNs :
      member? members "ts_ns" = some (.number event.tsNs.toNat 0) := rfl
  have thread :
      member? members "thread" =
        some (.number event.threadTag.toNat 0) := rfl
  have key :
      member? members "key" =
        some (.string ((event.string .key).map UInt8.toNat)) := rfl
  have num :
      member? members "num" = some (.number event.num.toInt 0) := rfl
  have text :
      member? members "text" =
        some (.string ((event.string .text).map UInt8.toNat)) := rfl
  show JsonEvent.ofJson? (.object members) = _
  simp only [JsonEvent.ofJson?, kind, tsNs, thread, key, num, text,
    Option.bind_eq_bind, Option.bind_some, bytes?_string, integer?,
    ↓reduceIte, Int.toNat_natCast, JsonEvent.ofEvent]

/-- A reader of one line gets the event. -/
theorem parse_jsonText (event : PgEvent) :
    (Json.parse (jsonText event)).bind JsonEvent.ofJson? =
      some (JsonEvent.ofEvent event) := by
  have read := parseValue_jsonText event []
  rw [List.append_nil] at read
  simp only [Json.parse, read, Option.bind_eq_bind, Option.bind_some,
    Json.skipSpace, List.dropWhile_nil, List.isEmpty_nil, ↓reduceIte,
    ofJson?_jsonObject]

/-- Every event is one line of the output. -/
theorem splitOn_lines (events : List PgEvent) :
    (events.flatMap fun event => jsonText event ++ [10]).splitOn 10 =
      events.map jsonText ++ [[]] := by
  induction events with
  | nil =>
      rfl
  | cons event rest inductionHypothesis =>
      rw [List.splitOn_eq_splitOnP] at inductionHypothesis ⊢
      rw [List.flatMap_cons, List.append_assoc, List.singleton_append,
        List.splitOnP_append_cons_of_forall_mem
          (no_newline_jsonText event) 10 rfl,
        inductionHypothesis, List.map_cons, List.cons_append]

/-- The events are recovered from the lines. -/
theorem decodeLines_lines (events : List PgEvent) :
    decodeLines (events.flatMap fun event => jsonText event ++ [10]) =
      some (events.map JsonEvent.ofEvent) := by
  rw [decodeLines, splitOn_lines, List.dropLast_concat]
  induction events with
  | nil =>
      rfl
  | cons event rest inductionHypothesis =>
      rw [List.map_cons, List.mapM_cons, parse_jsonText,
        inductionHypothesis]
      rfl

/-- There are as many newlines as events. -/
theorem count_newlines (events : List PgEvent) :
    (events.flatMap fun event => jsonText event ++ [10]).count 10 =
      events.length := by
  induction events with
  | nil =>
      rfl
  | cons event rest inductionHypothesis =>
      have none : (jsonText event).count 10 = 0 :=
        List.count_eq_zero.mpr fun member =>
          absurd (no_newline_jsonText event 10 member) (by decide)
      rw [List.flatMap_cons, List.count_append, List.count_append, none,
        inductionHypothesis, List.count_singleton_self, List.length_cons,
        Nat.zero_add, Nat.add_comm]

end Reader

section Printing

variable
  {event : PgEvent}
  (beyond : Nat → UInt8)
  {fuel : Nat}

/-- An event whose strings end inside its record is printed as its text. -/
theorem result_jsonLine
    (terminated : ∀ field : StringField, 0 ∈ field.bytes event)
    (enough : pgEventTextLen ≤ fuel) :
    (jsonLine event (event.memory beyond) fuel).result =
      some (jsonText event ++ [10]) := by
  have key :=
    event.result_cString_memory beyond .key (terminated .key)
      (Nat.le_trans (by decide) enough)
  have text :=
    event.result_cString_memory beyond .text (terminated .text) enough
  rw [jsonLine_eq, Traced.result_bind_eq_some key,
    Traced.result_bind_eq_some text, Traced.result_pure,
    ← jsonLineOf_eq]
  rfl

/-- The output is the concatenation of the lines. -/
theorem result_jsonOutput
    {events : List PgEvent}
    (terminated :
      ∀ event ∈ events, ∀ field : StringField, 0 ∈ field.bytes event)
    (enough : pgEventTextLen ≤ fuel) :
    (jsonOutput fuel beyond events).result =
      some (events.flatMap fun event => jsonText event ++ [10]) := by
  induction events with
  | nil =>
      rfl
  | cons event rest inductionHypothesis =>
      have line :=
        result_jsonLine beyond (terminated event List.mem_cons_self)
          enough
      have lines :=
        inductionHypothesis fun other member =>
          terminated other (List.mem_cons_of_mem event member)
      rw [jsonOutput, Traced.result_bind_eq_some line,
        Traced.result_bind_eq_some lines, Traced.result_pure,
        List.flatMap_cons]

/-- Different kinds have different names. -/
theorem pgEventKindName_injective
    {first second : UInt32}
    (firstKnown : first ≤ 9)
    (secondKnown : second ≤ 9)
    (same : pgEventKindName first = pgEventKindName second) :
    first = second := by
  have apart :
      ∀ one < 10, ∀ other < 10,
        pgEventKindName (UInt32.ofNat one) =
            pgEventKindName (UInt32.ofNat other) →
          one = other := by
    decide +kernel
  have firstSmall : first.toNat < 10 :=
    Nat.lt_succ_of_le (UInt32.le_iff_toNat_le.mp firstKnown)
  have secondSmall : second.toNat < 10 :=
    Nat.lt_succ_of_le (UInt32.le_iff_toNat_le.mp secondKnown)
  rw [← first.ofNat_toNat, ← second.ofNat_toNat] at same
  exact UInt32.toNat.inj
    (apart first.toNat firstSmall second.toNat secondSmall same)

end Printing

/--
With `--json` every event of a known kind with terminated strings is one line
free of other control characters, a JSON parser that is given the line and
whatever follows consumes the line's object and returns the event's values,
and the events of a run are recovered from the lines of its output.
-/
theorem jsonLinesDecodable
    (beyond : Nat → UInt8)
    (fuel : Nat)
    (enough : pgEventTextLen ≤ fuel)
    (events : List PgEvent)
    (known : ∀ event ∈ events, event.kind ≤ 9)
    (terminated :
      ∀ event ∈ events, ∀ field : StringField, 0 ∈ field.bytes event) :
    (∀ event ∈ events,
      ∃ text,
        (jsonLine event (event.memory beyond) fuel).result =
            some (text ++ [10]) ∧
          (∀ byte ∈ text, ¬ byte < 0x20) ∧
          ∃ object,
            (∀ later,
              Json.parseValue (text ++ [10] ++ later) =
                some (object, 10 :: later)) ∧
              JsonEvent.ofJson? object =
                some (JsonEvent.ofEvent event)) ∧
      (∃ output,
        (jsonOutput fuel beyond events).result = some output ∧
          output.count 10 = events.length ∧
          decodeLines output = some (events.map JsonEvent.ofEvent)) ∧
      ∀ event ∈ events, ∀ other ∈ events,
        pgEventKindName event.kind = pgEventKindName other.kind →
          event.kind = other.kind := by
  refine ⟨fun event member => ?_, ?_, fun event member other among =>
    pgEventKindName_injective (known event member) (known other among)⟩
  · refine ⟨jsonText event,
      result_jsonLine beyond (terminated event member) enough,
      printable_jsonText event, jsonObject event, fun later => ?_,
      ofJson?_jsonObject event⟩
    rw [List.append_assoc, List.singleton_append]
    exact parseValue_jsonText event (10 :: later)
  · exact ⟨_, result_jsonOutput beyond terminated enough,
      count_newlines events, decodeLines_lines events⟩

/-- A log event with a quote, a newline, a control byte and a high byte. -/
def escapedLog : PgEvent :=
  { PgEvent.ofKind .log with
    tsNs := 1500
    num := -7
    key := cArray pgEventKeyLen (Bytes.ascii "a\\b")
    text := cArray pgEventTextLen [34, 10, 1, 0xff] }

theorem jsonLinesDecodable_escapedLog :
    ∃ output,
      (jsonOutput 192 (fun _ => 65) [escapedLog, escapedLog]).result =
          some output ∧
        decodeLines output =
          some ([escapedLog, escapedLog].map JsonEvent.ofEvent) := by
  have known :
      ∀ event ∈ [escapedLog, escapedLog], event.kind ≤ 9 := by
    decide
  have ends : ∀ field : StringField, 0 ∈ field.bytes escapedLog := by
    intro field
    cases field with
    | key =>
        decide +kernel
    | text =>
        decide +kernel
  have terminated :
      ∀ event ∈ [escapedLog, escapedLog], ∀ field : StringField,
        0 ∈ field.bytes event := by
    intro event member
    simp only [List.mem_cons, List.not_mem_nil, or_false, or_self]
      at member
    exact member ▸ ends
  obtain ⟨output, printed, _, decoded⟩ :=
    (jsonLinesDecodable (fun _ => 65) 192 (by decide) _ known
      terminated).2.1
  exact ⟨output, printed, decoded⟩

end FailurePlayground
