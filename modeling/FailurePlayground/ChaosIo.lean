import Mathlib.Logic.Function.Basic
import Mathlib.Data.UInt

namespace FailurePlayground.ChaosIo

/-!
# The wrapped file descriptors

A table of 64 slots, guarded by one mutex, holds the knobs of every chaos
descriptor.  `chaos_io_write` enters it twice: once to check the quota and cut
the request down, and once after the write to account for it.
-/

/-- `io_slot_t`. -/
structure IoSlot where
  fd : Int
  inUse : Bool
  quota : UInt64
  bytesWritten : UInt64
  partialMax : UInt64
  fsyncDelayNs : UInt64
  deriving Repr, DecidableEq

/-- `IO_SLOTS_MAX`. -/
def ioSlotsMax : Nat := 64

/-- `g_slots`. -/
abbrev Slots := Fin ioSlotsMax → IoSlot

/-- A slot after `memset`. -/
def zeroSlot : IoSlot where
  fd := 0
  inUse := false
  quota := 0
  bytesWritten := 0
  partialMax := 0
  fsyncDelayNs := 0

/-- `find_locked`: the first slot in use for a descriptor. -/
def findLocked (slots : Slots) (fd : Int) : Option (Fin ioSlotsMax) :=
  (List.finRange ioSlotsMax).find? fun index =>
    (slots index).inUse && (slots index).fd == fd

/-- `alloc_locked`: the first free slot, cleared for a descriptor. -/
def allocLocked (slots : Slots) (fd : Int) : Option Slots :=
  ((List.finRange ioSlotsMax).find? fun index =>
      !(slots index).inUse).map fun index =>
    Function.update slots index
      { zeroSlot with inUse := true, fd := fd }

/-- Change the slot of a descriptor, when there is one. -/
def updateSlot
    (slots : Slots)
    (fd : Int)
    (change : IoSlot → IoSlot) : Slots :=
  match findLocked slots fd with
  | some index =>
      Function.update slots index (change (slots index))
  | none =>
      slots

/-- `chaos_io_set_quota`. -/
def chaosIoSetQuota (slots : Slots) (fd : Int) (bytes : UInt64) : Slots :=
  updateSlot slots fd fun slot => { slot with quota := bytes }

/-- `chaos_io_set_partial`. -/
def chaosIoSetPartial
    (slots : Slots)
    (fd : Int)
    (maxChunk : UInt64) : Slots :=
  updateSlot slots fd fun slot => { slot with partialMax := maxChunk }

/-- The cut that `partial_max` makes; zero disables it. -/
def cutPartial (slot : IoSlot) (want : UInt64) : UInt64 :=
  if slot.partialMax > 0 ∧ want > slot.partialMax then
    slot.partialMax
  else
    want

/--
The first critical section of `chaos_io_write`: the bytes to request from the
kernel, or nothing when the quota is used up (`ENOSPC`).
-/
def chaosIoWriteCheck
    (slots : Slots)
    (fd : Int)
    (n : UInt64) : Option UInt64 :=
  match findLocked slots fd with
  | none =>
      some n
  | some index =>
      let slot := slots index
      if slot.quota > 0 then
        if slot.bytesWritten ≥ slot.quota then
          none
        else
          let rem := slot.quota - slot.bytesWritten
          some (cutPartial slot (if n > rem then rem else n))
      else
        some (cutPartial slot n)

/-- The second critical section, entered when the kernel took `w > 0` bytes. -/
def chaosIoWriteAccount
    (slots : Slots)
    (fd : Int)
    (w : UInt64) : Slots :=
  updateSlot slots fd fun slot =>
    { slot with bytesWritten := slot.bytesWritten + w }

end FailurePlayground.ChaosIo
