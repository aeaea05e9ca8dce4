import Mathlib.Data.List.TakeWhile
import FailurePlayground.Consumers
import FailurePlayground.EmitHelpers
import FailurePlayground.JsonLines
import FailurePlayground.Lib.Utf8

namespace FailurePlayground

/-!
# When `--json` prints JSON

The helpers cut strings by the byte, and `json_escape` passes every byte from
`0x80` on through.  A line is a JSON text when the strings that were cut are
still UTF-8.
-/

/-- A JSON text: the grammar, in UTF-8. -/
structure Json.ValidText (text : List UInt8) : Prop where
  encoded : Utf8.Valid text
  parses : (Json.parse text).isSome = true

/-- A call of a helper, on some thread and at some time. -/
structure HelperCall where
  emit : Emit
  gThreadTag : UInt32
  nowNs : UInt64

/-- The record that the call writes. -/
def HelperCall.record (ctx : PgRunctx) (call : HelperCall) : PgEvent :=
  pgEmitCopy ctx call.gThreadTag call.nowNs call.emit.event

/-- What is left of the strings of a call is UTF-8. -/
def Emit.Clean (emit : Emit) : Prop :=
  ∀ field, Utf8.Valid (emit.kept field)

section Escaped

/-- A byte of ASCII. -/
def IsAscii (byte : UInt8) : Prop :=
  byte < 0x80

instance (byte : UInt8) : Decidable (IsAscii byte) :=
  inferInstanceAs (Decidable (_ < _))

theorem ascii_digit {value : Nat} :
    value < 16 → IsAscii (Numeral.digit value) := by
  revert value
  decide

theorem ascii_hex4 (value : Nat) :
    ∀ byte ∈ Numeral.hex4 value, IsAscii byte := by
  have digit : ∀ place, IsAscii (Numeral.digit (place % 16)) :=
    fun place => ascii_digit (Nat.mod_lt place (by decide))
  simp only [Numeral.hex4, List.forall_mem_cons]
  exact ⟨digit _, digit _, digit _, digit _, List.forall_mem_nil _⟩

/-- ASCII is escaped in ASCII, and no byte is dropped. -/
theorem jsonEscapeByte_ascii
    (byte : UInt8)
    (ascii : byte < 0x80) :
    jsonEscapeByte byte ≠ [] ∧
      ∀ other ∈ jsonEscapeByte byte, IsAscii other := by
  have short :
      ∀ escape : UInt8, IsAscii escape →
        [92, escape] ≠ [] ∧ ∀ other ∈ [92, escape], IsAscii other := by
    intro escape plain
    simp only [List.forall_mem_cons]
    exact
      ⟨List.cons_ne_nil _ _, by decide, plain, List.forall_mem_nil _⟩
  unfold jsonEscapeByte
  split_ifs
  · exact short 34 (by decide)
  · exact short 92 (by decide)
  · exact short 110 (by decide)
  · exact short 114 (by decide)
  · exact short 116 (by decide)
  · refine ⟨List.cons_ne_nil _ _, ?_⟩
    rw [List.forall_mem_append]
    exact ⟨by decide +kernel, ascii_hex4 _⟩
  · rw [List.forall_mem_singleton]
    exact ⟨List.cons_ne_nil _ _, ascii⟩

/-- Other bytes are passed through. -/
theorem jsonEscapeByte_other
    (byte : UInt8)
    (high : ¬ byte < 0x80) :
    jsonEscapeByte byte = [byte] := by
  have no : ∀ plain : UInt8, plain < 0x80 → byte ≠ plain := by
    rintro plain below rfl
    exact high below
  have control : ¬ byte < 0x20 := fun below =>
    high (UInt8.lt_trans below (by decide))
  simp only [jsonEscapeByte, no 34 (by decide), no 92 (by decide),
    no 10 (by decide), no 13 (by decide), no 9 (by decide), control,
    ↓reduceIte]

/-- Escaping keeps UTF-8 what it is, and everything else as well. -/
theorem valid_escaped_iff (string : List UInt8) :
    Utf8.Valid (string.flatMap jsonEscapeByte) ↔ Utf8.Valid string :=
  Utf8.valid_flatMap_iff
    (fun byte ascii => (jsonEscapeByte_ascii byte ascii).1)
    (fun byte ascii => (jsonEscapeByte_ascii byte ascii).2)
    jsonEscapeByte_other string

/-- A quoted string is UTF-8 when it was. -/
theorem valid_jsonQuoted_append_iff
    (string others : List UInt8) :
    Utf8.Valid (jsonQuoted string ++ others) ↔
      Utf8.Valid string ∧ Utf8.Valid others := by
  have shape :
      jsonQuoted string ++ others =
        [34] ++ (string.flatMap jsonEscapeByte ++ 34 :: others) := by
    have quote : Bytes.ascii "\"" = [34] := by decide +kernel
    simp only [jsonQuoted, quote, List.append_assoc, List.cons_append,
      List.nil_append]
  rw [shape, Utf8.valid_ascii_append_iff (by decide +kernel),
    Utf8.valid_append_cons_iff (by decide), valid_escaped_iff]

theorem ascii_jsonQuoted
    {string : List UInt8}
    (ascii : ∀ byte ∈ string, IsAscii byte) :
    ∀ byte ∈ jsonQuoted string, IsAscii byte :=
  Json.forall_mem_quote (by decide +kernel) fun byte among =>
    (jsonEscapeByte_ascii byte (ascii byte among)).2

theorem ascii_of_isDigit
    {byte : UInt8}
    (digit : Numeral.isDigit byte = true) :
    IsAscii byte := by
  simp only [Numeral.isDigit, Bool.and_eq_true, decide_eq_true_eq] at digit
  exact UInt8.lt_of_le_of_lt digit.2 (by decide)

theorem ascii_decimal (number : Nat) :
    ∀ byte ∈ Numeral.decimal number, IsAscii byte :=
  fun _ member => ascii_of_isDigit (Numeral.isDigit_of_mem_decimal member)

theorem ascii_signed (number : Int) :
    ∀ byte ∈ Numeral.signed number, IsAscii byte :=
  Numeral.forall_mem_signed (by decide) fun _ digit => ascii_of_isDigit digit

theorem ascii_pgEventKindName (kind : UInt32) :
    ∀ byte ∈ pgEventKindName kind, IsAscii byte := by
  unfold pgEventKindName
  split <;> decide +kernel

end Escaped

section Line

variable (event : PgEvent)

/-- The line of an event is UTF-8 when its strings are. -/
theorem valid_jsonText_iff :
    Utf8.Valid (jsonText event) ↔
      ∀ field, Utf8.Valid (event.string field) := by
  have newline :
      Utf8.Valid (jsonText event ++ [10]) ↔
        Utf8.Valid (jsonText event) := by
    rw [Utf8.valid_append_cons_iff (by decide)]
    exact and_iff_left ⟨[], rfl⟩
  have front :
      ∀ byte ∈
        Bytes.ascii "\x7b\"kind\":" ++
          jsonQuoted (pgEventKindName event.kind) ++
          Bytes.ascii ",\"ts_ns\":" ++
          Numeral.decimal event.tsNs.toNat ++
          Bytes.ascii ",\"thread\":" ++
          Numeral.decimal event.threadTag.toNat ++
          Bytes.ascii ",\"key\":", IsAscii byte := by
    simp only [List.forall_mem_append]
    exact
      ⟨⟨⟨⟨⟨⟨by decide +kernel,
        ascii_jsonQuoted (ascii_pgEventKindName event.kind)⟩,
        by decide +kernel⟩, ascii_decimal _⟩, by decide +kernel⟩,
        ascii_decimal _⟩, by decide +kernel⟩
  have middle :
      ∀ byte ∈
        Bytes.ascii ",\"num\":" ++ Numeral.signed event.num.toInt ++
          Bytes.ascii ",\"text\":", IsAscii byte := by
    simp only [List.forall_mem_append]
    exact ⟨⟨by decide +kernel, ascii_signed _⟩, by decide +kernel⟩
  have parts :
      jsonLineOf event (event.string .key) (event.string .text) =
        (Bytes.ascii "\x7b\"kind\":" ++
          jsonQuoted (pgEventKindName event.kind) ++
          Bytes.ascii ",\"ts_ns\":" ++
          Numeral.decimal event.tsNs.toNat ++
          Bytes.ascii ",\"thread\":" ++
          Numeral.decimal event.threadTag.toNat ++
          Bytes.ascii ",\"key\":") ++
          (jsonQuoted (event.string .key) ++
            ((Bytes.ascii ",\"num\":" ++
              Numeral.signed event.num.toInt ++
              Bytes.ascii ",\"text\":") ++
              (jsonQuoted (event.string .text) ++
                Bytes.ascii "\x7d\n"))) := by
    simp only [jsonLineOf, List.append_assoc]
  have ends : Utf8.Valid (Bytes.ascii "\x7d\n") := by
    decide +kernel
  rw [← newline, ← jsonLineOf_eq, parts,
    Utf8.valid_ascii_append_iff front, valid_jsonQuoted_append_iff,
    Utf8.valid_ascii_append_iff middle, valid_jsonQuoted_append_iff]
  constructor
  · rintro ⟨key, text, _⟩ field
    cases field with
    | key =>
        exact key
    | text =>
        exact text
  · intro valid
    exact ⟨valid .key, valid .text, ends⟩

/-- A line always has the form of a JSON text. -/
theorem parse_jsonText_isSome :
    (Json.parse (jsonText event)).isSome = true := by
  cases parsed : Json.parse (jsonText event) with
  | none =>
      have read := parse_jsonText event
      rw [parsed] at read
      exact absurd read (by simp)
  | some object =>
      rfl

/-- A line is a JSON text exactly when the strings are UTF-8. -/
theorem validText_jsonText_iff :
    Json.ValidText (jsonText event) ↔
      ∀ field, Utf8.Valid (event.string field) := by
  rw [← valid_jsonText_iff]
  exact
    ⟨fun valid => valid.encoded,
      fun encoded => ⟨encoded, parse_jsonText_isSome event⟩⟩

end Line

section Calls

variable
  (ctx : PgRunctx)
  (call : HelperCall)

/-- On an open descriptor a call writes its record. -/
theorem HelperCall.writes
    (fdOpen : ¬ ctx.eventFdW < 0)
    (gRunctx : Option PgRunctx) :
    pgEmit (some ctx) gRunctx call.gThreadTag call.nowNs
        (some call.emit.event) =
      .writing (call.record ctx).encode :=
  pgEmit_open fdOpen gRunctx call.gThreadTag call.nowNs call.emit.event

/-- Stamping changes no string. -/
theorem HelperCall.bytes_record (field : StringField) :
    field.bytes (call.record ctx) = field.bytes call.emit.event := by
  cases field with
  | key | text =>
      rfl

/-- The strings of a record are what is left of the strings of the call. -/
theorem HelperCall.string_record (field : StringField) :
    (call.record ctx).string field = call.emit.kept field := by
  rw [PgEvent.string, call.bytes_record, call.emit.cStringOf_bytes]

/-- No helper emits `PG_EV_DONE`. -/
theorem HelperCall.kind_record :
    (call.record ctx).kind ≠ PgEventKind.done.code := by
  have kind : (call.record ctx).kind = call.emit.kind.code :=
    call.emit.kind_event
  rw [kind]
  exact call.emit.code_ne_done

/-- All records of the calls are printed. -/
theorem printed_records (calls : List HelperCall) :
    Consumers.printed (calls.map (HelperCall.record ctx)) =
      calls.map (HelperCall.record ctx) := by
  induction calls with
  | nil =>
      rfl
  | cons call rest inductionHypothesis =>
      have accepted : headerAccepted (call.record ctx) = true :=
        headerAccepted_pgEmitCopy ctx _ _ _
      rw [List.map_cons,
        Consumers.printed_accepted accepted (call.kind_record ctx),
        inductionHypothesis]

/--
A string that was UTF-8 still is after the cut exactly when it fits or the
first byte cut off starts a character.
-/
theorem Emit.valid_kept_iff
    (emit : Emit)
    (field : StringField)
    (valid : Utf8.Valid (emit.given field))
    (noNul : 0 ∉ emit.given field) :
    Utf8.Valid (emit.kept field) ↔
      ∀ inside : field.width - 1 < (emit.given field).length,
        ¬ Utf8.IsContinuation (emit.given field)[field.width - 1] := by
  have whole :
      emit.kept field = (emit.given field).take (field.width - 1) := by
    rw [Emit.kept, cStringOf, List.takeWhile_eq_self_iff]
    intro byte member
    refine decide_eq_true fun nul => noNul ?_
    exact nul ▸ List.mem_of_mem_take member
  rw [whole]
  rcases Nat.lt_or_ge (field.width - 1) (emit.given field).length with
    longer | fits
  · rw [valid.take_iff longer]
    exact ⟨fun starts _ => starts, fun starts => starts longer⟩
  · rw [List.take_of_length_le fits]
    exact
      iff_of_true valid fun inside =>
        absurd inside (Nat.not_lt.mpr fits)

end Calls

/--
After any calls of the helpers every line that `run_headless --json` prints
for them is a JSON text exactly when what the helpers leave of every string is
UTF-8.
-/
theorem jsonOutput_valid_iff
    (ctx : PgRunctx)
    (calls : List HelperCall)
    (labels : List Consumers.Label)
    (state : Consumers.State)
    (ran :
      (Consumers.State.start .runHeadless
        (calls.map (HelperCall.record ctx))).run? labels = some state)
    (left : state.parent = .left)
    (beyond : Nat → UInt8)
    (fuel : Nat)
    (enough : pgEventTextLen ≤ fuel) :
    (∀ event ∈ state.shown,
      ∃ text,
        (jsonLine event (event.memory beyond) fuel).result =
            some (text ++ [10]) ∧
          Json.ValidText text) ↔
      ∀ call ∈ calls, call.emit.Clean := by
  have shown : state.shown = calls.map (HelperCall.record ctx) :=
    (Consumers.headless_complete ran left).trans
      (printed_records ctx calls)
  have line (call : HelperCall) :
      (∃ text,
        (jsonLine (call.record ctx) ((call.record ctx).memory beyond)
            fuel).result =
            some (text ++ [10]) ∧
          Json.ValidText text) ↔
        call.emit.Clean := by
    have terminated (field : StringField) :
        0 ∈ field.bytes (call.record ctx) := by
      rw [call.bytes_record]
      exact call.emit.terminated field
    have clean :
        Json.ValidText (jsonText (call.record ctx)) ↔
          call.emit.Clean := by
      simp only [validText_jsonText_iff, call.string_record, Emit.Clean]
    rw [result_jsonLine beyond terminated enough, ← clean]
    constructor
    · rintro ⟨text, same, valid⟩
      rw [Option.some.injEq, List.append_cancel_right_eq] at same
      exact same ▸ valid
    · intro valid
      exact ⟨_, rfl, valid⟩
  rw [shown, List.forall_mem_map]
  exact forall₂_congr fun call _ => line call

/-- The writing end in the examples. -/
def childCtx : PgRunctx where
  eventFdW := 3
  threadTag := 0
  startNs := 0

/-- The child writes one record and ends; the parent prints it. -/
def oneLineRun : List Consumers.Label :=
  [.childWrites, .childCloses, .callsPoll, .read 256, .callsPoll, .readEof]

/-- A message with a character of two bytes. -/
def accentedLog : HelperCall where
  emit := .logf (Bytes.ascii "caf" ++ [0xC3, 0xA9])
  gThreadTag := 0
  nowNs := 5

theorem jsonOutput_valid_iff_accentedLog :
    ∃ state,
      (Consumers.State.start .runHeadless
          ([accentedLog].map (HelperCall.record childCtx))).run?
            oneLineRun = some state ∧
        ∀ event ∈ state.shown,
          ∃ text,
            (jsonLine event (event.memory fun _ => 0) 192).result =
                some (text ++ [10]) ∧
              Json.ValidText text := by
  have ends :
      ((Consumers.State.start .runHeadless
          ([accentedLog].map (HelperCall.record childCtx))).run?
            oneLineRun).any
        (fun state => state.parent = .left) = true := by
    decide +kernel
  obtain ⟨state, ran, left⟩ := (Option.any_eq_true _ _).mp ends
  have clean : ∀ call ∈ [accentedLog], call.emit.Clean := by
    intro call member field
    rw [List.mem_singleton.mp member]
    cases field with
    | key =>
        decide +kernel
    | text =>
        decide +kernel
  exact
    ⟨state, ran,
      (jsonOutput_valid_iff childCtx [accentedLog] oneLineRun state ran
        (of_decide_eq_true left) (fun _ => 0) 192 (by decide)).mpr clean⟩

/-- The message that `uc_run` logs when it reads freed memory. -/
def poisonedLog : HelperCall where
  emit :=
    .logf (Bytes.ascii
        "after free:  secret=0xdede refcount=-555819298 name=\"" ++
      List.replicate 16 0xDE ++ Bytes.ascii "\"")
  gThreadTag := 0
  nowNs := 5

/-- Its line is not UTF-8, so it is not a JSON text. -/
theorem poisoned_line_invalid :
    ∃ state,
      (Consumers.State.start .runHeadless
          ([poisonedLog].map (HelperCall.record childCtx))).run?
            oneLineRun = some state ∧
        state.parent = .left ∧
        ¬ ∀ event ∈ state.shown,
          ∃ text,
            (jsonLine event (event.memory fun _ => 0) 192).result =
                some (text ++ [10]) ∧
              Json.ValidText text := by
  have ends :
      ((Consumers.State.start .runHeadless
          ([poisonedLog].map (HelperCall.record childCtx))).run?
            oneLineRun).any
        (fun state => state.parent = .left) = true := by
    decide +kernel
  obtain ⟨state, ran, left⟩ := (Option.any_eq_true _ _).mp ends
  have shown : state.shown = [poisonedLog.record childCtx] :=
    (Consumers.headless_complete ran (of_decide_eq_true left)).trans
      (printed_records childCtx [poisonedLog])
  refine ⟨state, ran, of_decide_eq_true left, ?_⟩
  intro valid
  obtain ⟨text, line, validText⟩ :=
    valid (poisonedLog.record childCtx)
      (by rw [shown]; exact List.mem_singleton_self _)
  have terminated (field : StringField) :
      0 ∈ field.bytes (poisonedLog.record childCtx) := by
    rw [poisonedLog.bytes_record]
    exact poisonedLog.emit.terminated field
  rw [result_jsonLine _ terminated (by decide), Option.some.injEq,
    List.append_cancel_right_eq] at line
  have cut := (validText_jsonText_iff _).mp (line ▸ validText) .text
  rw [poisonedLog.string_record] at cut
  exact absurd cut (by decide +kernel)

end FailurePlayground
