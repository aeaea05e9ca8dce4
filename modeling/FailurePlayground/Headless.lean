import FailurePlayground.EventStrings
import FailurePlayground.Lib.Numeral
import FailurePlayground.Runner

namespace FailurePlayground

/-!
# The lines of `run_headless`

Every event becomes one line on standard output, as text or, with `--json`, as
an object.  Both read `key` and `text` through their pointers.
-/

/-- The enumerator with a given value. -/
def PgEventKind.ofCode? (code : UInt32) : Option PgEventKind :=
  [PgEventKind.log, .counter, .gauge, .phase, .expect, .actual, .sutFault,
    .done, .childCrash, .watchdog].find? fun kind => kind.code = code

/-- `pg_event_kind_name`. -/
def pgEventKindName (kind : UInt32) : List UInt8 :=
  match PgEventKind.ofCode? kind with
  | some .log => Bytes.ascii "log"
  | some .counter => Bytes.ascii "counter"
  | some .gauge => Bytes.ascii "gauge"
  | some .phase => Bytes.ascii "phase"
  | some .expect => Bytes.ascii "expect"
  | some .actual => Bytes.ascii "actual"
  | some .sutFault => Bytes.ascii "sut_fault"
  | some .done => Bytes.ascii "done"
  | some .childCrash => Bytes.ascii "child_crash"
  | some .watchdog => Bytes.ascii "watchdog"
  | none => Bytes.ascii "?"

/-- What `json_escape` writes for one byte. -/
def jsonEscapeByte (c : UInt8) : List UInt8 :=
  if c = 34 then
    Bytes.ascii "\\\""
  else if c = 92 then
    Bytes.ascii "\\\\"
  else if c = 10 then
    Bytes.ascii "\\n"
  else if c = 13 then
    Bytes.ascii "\\r"
  else if c = 9 then
    Bytes.ascii "\\t"
  else if c < 0x20 then
    Bytes.ascii "\\u" ++ Numeral.hex4 c.toNat
  else
    [c]

/-- What `json_escape` writes for a string. -/
def jsonQuoted (string : List UInt8) : List UInt8 :=
  Bytes.ascii "\"" ++ string.flatMap jsonEscapeByte ++ Bytes.ascii "\""

section Reading

variable {Object : Type} (contents : Object → Nat → UInt8) (object : Object)

/-- The loop of `json_escape`. -/
def jsonEscapeLoop : (fuel s : Nat) → Traced Object (List UInt8)
  | 0, _ => .outOfFuel
  | fuel + 1, s => do
      let c ← loadByte contents object s
      if c = 0 then
        pure []
      else
        let rest ← jsonEscapeLoop fuel (s + 1)
        pure (jsonEscapeByte c ++ rest)

/-- `json_escape` of a pointer. -/
def jsonEscape (fuel : Nat) : Traced Object (List UInt8) := do
  let escaped ← jsonEscapeLoop contents object fuel 0
  pure (Bytes.ascii "\"" ++ escaped ++ Bytes.ascii "\"")

/-- The loop escapes the bytes that `%s` would print. -/
theorem jsonEscapeLoop_eq (fuel s : Nat) :
    jsonEscapeLoop contents object fuel s =
      cString contents object fuel s >>= fun string =>
        pure (string.flatMap jsonEscapeByte) := by
  induction fuel generalizing s with
  | zero =>
      rfl
  | succ fuel inductionHypothesis =>
      rw [jsonEscapeLoop, cString, Traced.bind_assoc]
      refine congrArg _ (funext fun c => ?_)
      split
      · rw [Traced.pure_bind, List.flatMap_nil]
      · rw [inductionHypothesis, Traced.bind_assoc, Traced.bind_assoc]
        simp only [Traced.pure_bind, List.flatMap_cons]

/-- `json_escape` quotes the string its pointer leads to. -/
theorem jsonEscape_eq (fuel : Nat) :
    jsonEscape contents object fuel =
      cString contents object fuel 0 >>= fun string =>
        pure (jsonQuoted string) := by
  rw [jsonEscape, jsonEscapeLoop_eq, Traced.bind_assoc]
  simp only [Traced.pure_bind, jsonQuoted]

end Reading

section Lines

variable
  (event : PgEvent)
  (contents : StringField → Nat → UInt8)
  (fuel : Nat)

/-- The line `run_headless --json` prints for an event. -/
def jsonLine : Traced StringField (List UInt8) := do
  let key ← jsonEscape contents .key fuel
  let text ← jsonEscape contents .text fuel
  pure
    (Bytes.ascii "\x7b\"kind\":" ++ jsonQuoted (pgEventKindName event.kind) ++
      Bytes.ascii ",\"ts_ns\":" ++ Numeral.decimal event.tsNs.toNat ++
      Bytes.ascii ",\"thread\":" ++ Numeral.decimal event.threadTag.toNat ++
      Bytes.ascii ",\"key\":" ++ key ++
      Bytes.ascii ",\"num\":" ++ Numeral.signed event.num.toInt ++
      Bytes.ascii ",\"text\":" ++ text ++
      Bytes.ascii "\x7d\n")

/-- The same line, from the strings that `key` and `text` hold. -/
def jsonLineOf (key text : List UInt8) : List UInt8 :=
  Bytes.ascii "\x7b\"kind\":" ++ jsonQuoted (pgEventKindName event.kind) ++
    Bytes.ascii ",\"ts_ns\":" ++ Numeral.decimal event.tsNs.toNat ++
    Bytes.ascii ",\"thread\":" ++ Numeral.decimal event.threadTag.toNat ++
    Bytes.ascii ",\"key\":" ++ jsonQuoted key ++
    Bytes.ascii ",\"num\":" ++ Numeral.signed event.num.toInt ++
    Bytes.ascii ",\"text\":" ++ jsonQuoted text ++
    Bytes.ascii "\x7d\n"

/-- The line quotes the strings its pointers lead to. -/
theorem jsonLine_eq :
    jsonLine event contents fuel =
      (do
        let key ← cString contents .key fuel 0
        let text ← cString contents .text fuel 0
        pure (jsonLineOf event key text)) := by
  simp only [jsonLine, jsonEscape_eq, Traced.bind_assoc, Traced.pure_bind,
    jsonLineOf]

/-- The output of `run_headless --json` for the events it is handed. -/
def jsonOutput (beyond : Nat → UInt8) :
    List PgEvent → Traced StringField (List UInt8)
  | [] => pure []
  | event :: rest => do
      let line ← jsonLine event (event.memory beyond) fuel
      let lines ← jsonOutput beyond rest
      pure (line ++ lines)

/--
The line `run_headless` prints for an event without `--json`; `tsec` is the
`%9.3f` rendering of a timestamp in seconds.
-/
def textLine (tsec : UInt64 → List UInt8) :
    Traced StringField (List UInt8) := do
  let key ← cString contents .key fuel 0
  let text ← cString contents .text fuel 0
  pure
    (tsec event.tsNs ++ Bytes.ascii "  " ++
      Numeral.padRight 8 (pgEventKindName event.kind) ++
      Bytes.ascii "  t=" ++
      Numeral.padRight 2 (Numeral.decimal event.threadTag.toNat) ++
      Bytes.ascii "  " ++ Numeral.padRight 16 key ++
      Bytes.ascii "  num=" ++
      Numeral.padRight 10 (Numeral.signed event.num.toInt) ++
      Bytes.ascii "  " ++ text ++ Bytes.ascii "\n")

end Lines

end FailurePlayground
