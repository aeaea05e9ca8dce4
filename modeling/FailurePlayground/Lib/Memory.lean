import Mathlib.Tactic.Ring
import Mathlib.Data.List.Basic

namespace FailurePlayground

/-!
# Byte memory with an access log

A memory is a total map from addresses to bytes together with the addresses
read and written so far.  The log makes containment a statement about a run:
an operation stays inside a region exactly when every address it appends to
the log lies there.
-/

/-- The bytes of an address space and the accesses made to it, oldest first. -/
structure Memory where
  byte : Nat → UInt8
  reads : List Nat
  writes : List Nat

namespace Memory

/-- A memory with the given contents that nothing has accessed yet. -/
def ofBytes (contents : Nat → UInt8) : Memory where
  byte := contents
  reads := []
  writes := []

/-- The little-endian 32-bit word at an address, without logging a read. -/
def word32 (memory : Memory) (address : Nat) : Nat :=
  (memory.byte address).toNat +
    256 * (memory.byte (address + 1)).toNat +
    256 ^ 2 * (memory.byte (address + 2)).toNat +
    256 ^ 3 * (memory.byte (address + 3)).toNat

/-- Record that `count` bytes starting at `address` were read. -/
def noteReads (memory : Memory) (address count : Nat) : Memory :=
  { memory with reads := memory.reads ++ List.range' address count }

/-- Load one byte. -/
def load8 (memory : Memory) (address : Nat) : UInt8 × Memory :=
  (memory.byte address, memory.noteReads address 1)

/-- Load one little-endian 32-bit word. -/
def load32 (memory : Memory) (address : Nat) : Nat × Memory :=
  (memory.word32 address, memory.noteReads address 4)

/-- Overwrite `count` bytes starting at `address` with indexed contents. -/
def writeRange
    (memory : Memory)
    (address count : Nat)
    (contents : Nat → UInt8) : Memory where
  byte := fun query =>
    if address ≤ query ∧ query < address + count then
      contents (query - address)
    else
      memory.byte query
  reads := memory.reads
  writes := memory.writes ++ List.range' address count

/-- Store one byte. -/
def store8 (memory : Memory) (address : Nat) (value : UInt8) : Memory :=
  memory.writeRange address 1 fun _ => value

/-- Store one little-endian 32-bit word. -/
def store32 (memory : Memory) (address value : Nat) : Memory :=
  memory.writeRange address 4 fun index =>
    UInt8.ofNat (value / 256 ^ index)

/-- Set `count` bytes to one value, as `memset` does. -/
def fill (memory : Memory) (address : Nat) (value : UInt8) (count : Nat) :
    Memory :=
  memory.writeRange address count fun _ => value

section Frame

variable (memory : Memory) (address count : Nat)

@[simp] theorem byte_ofBytes (contents : Nat → UInt8) :
    (ofBytes contents).byte = contents := rfl

@[simp] theorem byte_noteReads :
    (memory.noteReads address count).byte = memory.byte := rfl

@[simp] theorem reads_noteReads :
    (memory.noteReads address count).reads =
      memory.reads ++ List.range' address count := rfl

@[simp] theorem writes_noteReads :
    (memory.noteReads address count).writes = memory.writes := rfl

@[simp] theorem word32_noteReads (query : Nat) :
    (memory.noteReads address count).word32 query =
      memory.word32 query := rfl

@[simp] theorem load8_fst :
    (memory.load8 address).1 = memory.byte address := rfl

@[simp] theorem load8_snd :
    (memory.load8 address).2 = memory.noteReads address 1 := rfl

@[simp] theorem load32_fst :
    (memory.load32 address).1 = memory.word32 address := rfl

@[simp] theorem load32_snd :
    (memory.load32 address).2 = memory.noteReads address 4 := rfl

@[simp] theorem reads_writeRange (contents : Nat → UInt8) :
    (memory.writeRange address count contents).reads =
      memory.reads := rfl

@[simp] theorem writes_writeRange (contents : Nat → UInt8) :
    (memory.writeRange address count contents).writes =
      memory.writes ++ List.range' address count := rfl

/-- Every logged read meets a predicate after a read of a range. -/
theorem forall_reads_noteReads (inside : Nat → Prop) :
    (∀ query ∈ (memory.noteReads address count).reads, inside query) ↔
      (∀ query ∈ memory.reads, inside query) ∧
        ∀ index, index < count → inside (address + index) := by
  constructor
  · intro every
    refine ⟨fun query member => every query ?_, fun index bound => ?_⟩
    · exact List.mem_append_left _ member
    · refine every _ (List.mem_append_right _ ?_)
      exact List.mem_range'_1.mpr ⟨by omega, by omega⟩
  · rintro ⟨earlier, range⟩ query member
    rcases List.mem_append.mp member with old | new
    · exact earlier query old
    · obtain ⟨lower, upper⟩ := List.mem_range'_1.mp new
      have here := range (query - address) (by omega)
      rwa [Nat.add_sub_cancel' lower] at here

/-- Every logged write meets a predicate after a write of a range. -/
theorem forall_writes_writeRange
    (inside : Nat → Prop)
    (contents : Nat → UInt8) :
    (∀ query ∈ (memory.writeRange address count contents).writes,
        inside query) ↔
      (∀ query ∈ memory.writes, inside query) ∧
        ∀ index, index < count → inside (address + index) :=
  forall_reads_noteReads
    ⟨memory.byte, memory.writes, []⟩ address count inside

/-- Bytes inside a written range take the new contents. -/
theorem byte_writeRange_inside
    {contents : Nat → UInt8}
    {index : Nat}
    (inside : index < count) :
    (memory.writeRange address count contents).byte (address + index) =
      contents index := by
  simp [writeRange, inside]

/-- Bytes outside a written range keep their contents. -/
theorem byte_writeRange_outside
    {contents : Nat → UInt8}
    {query : Nat}
    (outside : query < address ∨ address + count ≤ query) :
    (memory.writeRange address count contents).byte query =
      memory.byte query := by
  have notInside :
      ¬ (address ≤ query ∧ query < address + count) := by
    omega
  simp [writeRange, notInside]

/-- A word depends only on its four bytes. -/
theorem word32_congr
    {first second : Memory}
    {address : Nat}
    (same :
      ∀ index, index < 4 →
        first.byte (address + index) = second.byte (address + index)) :
    first.word32 address = second.word32 address := by
  have byte0 := same 0 (by omega)
  have byte1 := same 1 (by omega)
  have byte2 := same 2 (by omega)
  have byte3 := same 3 (by omega)
  simp only [Nat.add_zero] at byte0
  simp [word32, byte0, byte1, byte2, byte3]

/-- A word is below `2 ^ 32`. -/
theorem word32_lt : memory.word32 address < 2 ^ 32 := by
  have byte0 := (memory.byte address).toNat_lt
  have byte1 := (memory.byte (address + 1)).toNat_lt
  have byte2 := (memory.byte (address + 2)).toNat_lt
  have byte3 := (memory.byte (address + 3)).toNat_lt
  unfold word32
  omega

/-- A stored word is read back. -/
theorem word32_store32
    {value : Nat}
    (bounded : value < 2 ^ 32) :
    (memory.store32 address value).word32 address = value := by
  have stored :
      ∀ index, index < 4 →
        (memory.store32 address value).byte (address + index) =
          UInt8.ofNat (value / 256 ^ index) :=
    fun index inside =>
      byte_writeRange_inside memory address 4 inside
  have byte0 := stored 0 (by omega)
  simp only [Nat.add_zero, Nat.pow_zero, Nat.div_one] at byte0
  simp only [word32, byte0, stored 1 (by omega), stored 2 (by omega),
    stored 3 (by omega), UInt8.toNat_ofNat']
  omega

end Frame

end Memory

end FailurePlayground
