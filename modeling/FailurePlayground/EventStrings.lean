import Mathlib.Data.List.GetD
import FailurePlayground.Event
import FailurePlayground.Lib.CString

namespace FailurePlayground

/-!
# The strings of a record

The parent reads `key` and `text` of a received record as C strings.  A
pointer into either one walks on through the rest of the record, and then
through whatever memory follows it, until it meets a NUL.
-/

/-- The two members the parent reads as strings. -/
inductive StringField where
  | key
  | text
  deriving Repr, DecidableEq

namespace StringField

/-- `offsetof` the member. -/
def offset : StringField → Nat
  | .key => 32
  | .text => 64

/-- `sizeof` the member. -/
def width : StringField → Nat
  | .key => pgEventKeyLen
  | .text => pgEventTextLen

/-- The member's bytes. -/
def bytes (event : PgEvent) : StringField → List UInt8
  | .key => event.key.toList
  | .text => event.text.toList

@[simp] theorem length_bytes
    (event : PgEvent)
    (field : StringField) :
    (field.bytes event).length = field.width := by
  cases field with
  | key =>
      exact Vector.length_toList
  | text =>
      exact Vector.length_toList

/-- The member's bytes in the memory image of a record. -/
theorem bytes_eq_field
    (event : PgEvent)
    (field : StringField) :
    field.bytes event =
      PgEvent.field event.encode field.offset field.width := by
  have image := PgEvent.length_encode event
  cases field with
  | key =>
      have key :
          (PgEvent.decode event.encode).key.toList =
            PgEvent.field event.encode 32 pgEventKeyLen :=
        PgEvent.toList_arrayField (by rw [image]; decide)
      rw [PgEvent.decode_encode] at key
      exact key
  | text =>
      have text :
          (PgEvent.decode event.encode).text.toList =
            PgEvent.field event.encode 64 pgEventTextLen :=
        PgEvent.toList_arrayField (by rw [image]; decide)
      rw [PgEvent.decode_encode] at text
      exact text

end StringField

/-- The NUL-terminated string an array of `char` holds. -/
def cStringOf (array : List UInt8) : List UInt8 :=
  array.takeWhile (· ≠ 0)

namespace PgEvent

/--
What a pointer into a member reads at an offset: the record's memory image,
then the memory that follows it.
-/
def memory
    (event : PgEvent)
    (beyond : Nat → UInt8)
    (field : StringField)
    (offset : Nat) : UInt8 :=
  let address := field.offset + offset
  if address < pgEventSize then
    event.encode.getD address 0
  else
    beyond (address - pgEventSize)

variable
  (event : PgEvent)
  (beyond : Nat → UInt8)
  (field : StringField)

/-- Within a member a pointer reads the member's bytes. -/
theorem memory_eq_bytes
    {offset : Nat}
    (inside : offset < field.width) :
    event.memory beyond field offset =
      (field.bytes event).getD offset 0 := by
  have within : field.offset + offset < pgEventSize := by
    cases field with
    | key =>
        exact Nat.lt_of_lt_of_le
          (Nat.add_lt_add_left (m := pgEventKeyLen) inside 32) (by decide)
    | text =>
        exact Nat.add_lt_add_left (m := pgEventTextLen) inside 64
  rw [memory, if_pos within, field.bytes_eq_field, PgEvent.field]
  simp only [List.getD_eq_getElem?_getD, List.getElem?_take_of_lt inside,
    List.getElem?_drop]

/-- A member is terminated when its bytes contain a NUL. -/
theorem terminated_memory_iff :
    Terminated (event.memory beyond) field field.width ↔
      0 ∈ field.bytes event := by
  constructor
  · rintro ⟨offset, inside, nul⟩
    rw [event.memory_eq_bytes beyond field inside,
      List.getD_eq_getElem _ _ (by rw [field.length_bytes]; exact inside)]
      at nul
    exact nul ▸ List.getElem_mem _
  · intro present
    obtain ⟨offset, bound, nul⟩ := List.getElem_of_mem present
    have inside : offset < field.width := by
      rw [← field.length_bytes event]
      exact bound
    refine ⟨offset, inside, ?_⟩
    rw [event.memory_eq_bytes beyond field inside,
      List.getD_eq_getElem _ _ bound, nul]

/-- A terminated member read with enough fuel gives its string. -/
theorem result_cString_memory
    (terminated : 0 ∈ field.bytes event)
    {fuel : Nat}
    (enough : field.width ≤ fuel) :
    (cString (event.memory beyond) field fuel 0).result =
      some (cStringOf (field.bytes event)) := by
  refine result_cString terminated (fun index bound => ?_) ?_
  · rw [Nat.zero_add]
    rw [field.length_bytes] at bound
    exact event.memory_eq_bytes beyond field bound
  · rw [field.length_bytes]
    exact enough

end PgEvent

end FailurePlayground
