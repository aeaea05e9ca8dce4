import FailurePlayground.EventStrings
import FailurePlayground.Runner

namespace FailurePlayground

/-!
# The emit helpers

Scenarios report through helpers that fill in one event and pass it to
`pg_emit`.  Strings are cut to the arrays they are printed into, which are zero
before.
-/

/-- `s ? s : ""`. -/
def orEmpty (string : Option (List UInt8)) : List UInt8 :=
  string.getD []

section Helpers

/-- The event `pg_logf` emits for a formatted line. -/
def pgLogf (line : List UInt8) : PgEvent :=
  { PgEvent.ofKind .log with text := cArray pgEventTextLen line }

/-- The event `pg_phase` emits. -/
def pgPhase (name : Option (List UInt8)) : PgEvent :=
  { PgEvent.ofKind .phase with
    text := cArray pgEventTextLen (orEmpty name) }

/-- The event `emit_kv` emits. -/
def emitKv
    (k : PgEventKind)
    (key : Option (List UInt8))
    (v : Int64) : PgEvent :=
  { PgEvent.ofKind k with
    num := v
    key := cArray pgEventKeyLen (orEmpty key) }

/-- The event `pg_count` emits. -/
def pgCount : Option (List UInt8) → Int64 → PgEvent :=
  emitKv .counter

/-- The event `pg_gauge` emits. -/
def pgGauge : Option (List UInt8) → Int64 → PgEvent :=
  emitKv .gauge

/-- The event `pg_expect` emits. -/
def pgExpect : Option (List UInt8) → Int64 → PgEvent :=
  emitKv .expect

/-- The event `pg_actual` emits. -/
def pgActual : Option (List UInt8) → Int64 → PgEvent :=
  emitKv .actual

/-- The event `pg_sut_fault` emits. -/
def pgSutFault (what : Option (List UInt8)) : PgEvent :=
  { PgEvent.ofKind .sutFault with
    text := cArray pgEventTextLen (orEmpty what) }

end Helpers

/-- A call of one of the helpers. -/
inductive Emit where
  | logf (line : List UInt8)
  | phase (name : Option (List UInt8))
  | count (key : Option (List UInt8)) (v : Int64)
  | gauge (key : Option (List UInt8)) (v : Int64)
  | expect (key : Option (List UInt8)) (v : Int64)
  | actual (key : Option (List UInt8)) (v : Int64)
  | sutFault (what : Option (List UInt8))
  deriving Repr, DecidableEq

namespace Emit

/-- The event a helper passes to `pg_emit`. -/
def event : Emit → PgEvent
  | .logf line => pgLogf line
  | .phase name => pgPhase name
  | .count key v => pgCount key v
  | .gauge key v => pgGauge key v
  | .expect key v => pgExpect key v
  | .actual key v => pgActual key v
  | .sutFault what => pgSutFault what

/-- The kind of event a helper emits. -/
def kind : Emit → PgEventKind
  | .logf _ => .log
  | .phase _ => .phase
  | .count _ _ => .counter
  | .gauge _ _ => .gauge
  | .expect _ _ => .expect
  | .actual _ _ => .actual
  | .sutFault _ => .sutFault

/-- The string a helper is given for a member. -/
def given : Emit → StringField → List UInt8
  | .logf line, .text => line
  | .phase name, .text => orEmpty name
  | .sutFault what, .text => orEmpty what
  | .count key _, .key | .gauge key _, .key
  | .expect key _, .key | .actual key _, .key => orEmpty key
  | .logf _, .key | .phase _, .key | .sutFault _, .key => []
  | .count _ _, .text | .gauge _ _, .text
  | .expect _ _, .text | .actual _ _, .text => []

/-- The string that is left of it in the member. -/
def kept (emit : Emit) (field : StringField) : List UInt8 :=
  cStringOf ((emit.given field).take (field.width - 1))

end Emit

section Arrays

/-- The array that `snprintf` leaves: what fits, then NULs. -/
theorem toList_cArray (width : Nat) (string : List UInt8) :
    (cArray width string).toList =
      string.take (width - 1) ++
        List.replicate (width - (string.take (width - 1)).length) 0 := by
  have short : (string.take (width - 1)).length ≤ width := by
    rw [List.length_take]
    omega
  apply List.ext_getElem
  · rw [Vector.length_toList, List.length_append, List.length_replicate]
    omega
  · intro index _ bound
    simp only [cArray, Vector.toList_ofFn, List.getElem_ofFn]
    rcases Nat.lt_or_ge index (string.take (width - 1)).length with
      inside | behind
    · rw [List.getElem_append_left inside, List.getD_eq_getElem _ _ inside]
    · rw [List.getElem_append_right behind, List.getElem_replicate,
        List.getD_eq_default _ _ behind]

/-- An array always ends its string. -/
theorem zero_mem_cArray
    {width : Nat}
    (positive : 0 < width)
    (string : List UInt8) :
    0 ∈ (cArray width string).toList := by
  rw [toList_cArray]
  apply List.mem_append_right
  refine List.mem_replicate.mpr ⟨?_, rfl⟩
  rw [List.length_take]
  omega

/-- The string an array holds is the one it was given, cut. -/
theorem cStringOf_cArray (width : Nat) (string : List UInt8) :
    cStringOf (cArray width string).toList =
      cStringOf (string.take (width - 1)) := by
  have nuls (number : Nat) :
      (List.replicate number (0 : UInt8)).takeWhile (· ≠ 0) = [] := by
    cases number with
    | zero =>
        rfl
    | succ number =>
        simp [List.replicate_succ]
  rw [toList_cArray]
  unfold cStringOf
  rw [List.takeWhile_append]
  split
  · rename_i whole
    rw [nuls, List.append_nil,
      (List.takeWhile_sublist _).eq_of_length whole]
  · rfl

end Arrays

namespace Emit

theorem kind_event (emit : Emit) : emit.event.kind = emit.kind.code := by
  cases emit with
  | logf | phase | count | gauge | expect | actual | sutFault =>
      rfl

/-- No helper of a scenario emits `PG_EV_DONE`. -/
theorem code_ne_done (emit : Emit) :
    emit.kind.code ≠ PgEventKind.done.code := by
  cases emit with
  | logf | phase | count | gauge | expect | actual | sutFault =>
      simp only [kind]
      decide

/-- What a helper leaves in a member is its string, cut and ended. -/
theorem bytes_event (emit : Emit) (field : StringField) :
    field.bytes emit.event =
      (cArray field.width (emit.given field)).toList := by
  have blank (width : Nat) :
      (Vector.replicate width (0 : UInt8)).toList =
        (cArray width []).toList := by
    rw [toList_cArray]
    simp
  cases field with
  | key =>
      cases emit with
      | logf | phase | sutFault =>
          exact blank pgEventKeyLen
      | count | gauge | expect | actual =>
          rfl
  | text =>
      cases emit with
      | logf | phase | sutFault =>
          rfl
      | count | gauge | expect | actual =>
          exact blank pgEventTextLen

/-- The strings of an emitted event end inside their members. -/
theorem terminated (emit : Emit) (field : StringField) :
    0 ∈ field.bytes emit.event := by
  rw [emit.bytes_event]
  apply zero_mem_cArray
  cases field with
  | key | text =>
      decide

/-- The string of a member of an emitted event. -/
theorem cStringOf_bytes (emit : Emit) (field : StringField) :
    cStringOf (field.bytes emit.event) = emit.kept field := by
  rw [emit.bytes_event, cStringOf_cArray, kept]

end Emit

end FailurePlayground
