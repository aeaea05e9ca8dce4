import Mathlib.Data.UInt
import Mathlib.Tactic.Ring
import FailurePlayground.Lib.Memory

namespace FailurePlayground.Arena

/-!
# The redzone arena

A bump allocator over one mapped region.  Each block is laid out as

```text
block_hdr (8B) | pre-redzone (16B) | user data (round8 size) | post-redzone (16B)
```

and the walk of `chaosArenaCheck` and the poisoning of `chaosArenaFree` follow
the sizes stored in those headers.  Sizes and offsets are `size_t`: natural
numbers reduced modulo `2 ^ 64` wherever the source could wrap.  Addresses
inside the region never wrap because the region lies in user space.
-/

def arenaMagicLive : Nat := 0xA11A11AA
def arenaMagicFree : Nat := 0xFEEDFEED
def redzoneSize : Nat := 16
def redzoneByte : UInt8 := 0xCD
def poisonByte : UInt8 := 0xDE

/-- `sizeof(block_hdr_t)`: the magic word followed by the stored size. -/
def blockHdrSize : Nat := 8

/-- The flag `CHAOS_ARENA_REDZONES`. -/
def chaosArenaRedzones : UInt32 := 0x1

/-- Reduce a `size_t` computation. -/
def sizeT (value : Nat) : Nat :=
  value % 2 ^ 64

/-- Round a `size_t` up to a multiple of eight, wrapping as the source does. -/
def round8 (n : Nat) : Nat :=
  sizeT (n + 7) / 8 * 8

/-- Header, both redzones and rounded user data of one block. -/
def blockTotal (userSize : Nat) : Nat :=
  sizeT (blockHdrSize + redzoneSize + round8 userSize + redzoneSize)

/--
An arena descriptor.  The region lies below `2 ^ 63`, where every user-space
mapping lies; `used` never leaves the region and stays a multiple of eight.
-/
structure ChaosArena where
  base : Nat
  total : Nat
  used : Nat
  flags : UInt32
  basePositive : 0 < base
  inUserSpace : base + total ≤ 2 ^ 63
  usedFits : used ≤ total
  usedAligned : used % 8 = 0

/-- A fresh arena is aligned. -/
theorem usedAligned_zero : 0 % 8 = 0 :=
  Nat.zero_mod 8

namespace ChaosArena

/-- The `CHAOS_ARENA_REDZONES` bit is set. -/
def redzones (arena : ChaosArena) : Bool :=
  arena.flags &&& chaosArenaRedzones != 0

/-- The half-open region `[base, base + total)` owned by the arena. -/
def Inside (arena : ChaosArena) (address : Nat) : Prop :=
  arena.base ≤ address ∧ address < arena.base + arena.total

end ChaosArena

/-- The address `mmap` chose for a region of the requested size. -/
structure Mapping (bytes : Nat) where
  base : Nat
  basePositive : 0 < base
  inUserSpace : base + bytes ≤ 2 ^ 63

/--
Create an arena.  `descriptor` says whether `calloc` returned one, `mapped`
what `mmap` returned; the region starts zero-filled.
-/
def chaosArenaCreate
    (bytes : UInt64)
    (flags : UInt32)
    (descriptor : Bool)
    (mapped : Option (Mapping bytes.toNat)) :
    Option ChaosArena :=
  if bytes < 4096 then
    none
  else if !descriptor then
    none
  else
    mapped.map fun mapping => {
      base := mapping.base
      total := bytes.toNat
      used := 0
      flags := flags
      basePositive := mapping.basePositive
      inUserSpace := mapping.inUserSpace
      usedFits := Nat.zero_le _
      usedAligned := usedAligned_zero
    }

theorem round8_mod (n : Nat) : round8 n % 8 = 0 := by
  unfold round8
  omega

theorem blockTotal_mod (n : Nat) : blockTotal n % 8 = 0 := by
  have rounded := round8_mod n
  unfold blockTotal sizeT blockHdrSize redzoneSize
  omega

/-- Growing by one block keeps `used` a multiple of eight, wrapping or not. -/
theorem used_add_blockTotal_mod (arena : ChaosArena) (n : Nat) :
    sizeT (arena.used + blockTotal n) % 8 = 0 := by
  have aligned := arena.usedAligned
  have total := blockTotal_mod n
  unfold sizeT
  omega

/-- What `chaosArenaAlloc` leaves: the returned pointer, `none` for `NULL`. -/
structure Allocation where
  user : Option Nat
  arena : ChaosArena
  memory : Memory

/-- Bump-allocate `n` bytes. -/
def chaosArenaAlloc
    (arena : ChaosArena)
    (n : UInt64)
    (memory : Memory) : Allocation :=
  let need := blockTotal n.toNat
  if fits : sizeT (arena.used + need) ≤ arena.total then
    let p := arena.base + arena.used
    let memory := memory.store32 p arenaMagicLive
    let memory := memory.store32 (p + 4) (n.toNat % 2 ^ 32)
    let pre := p + blockHdrSize
    let user := pre + redzoneSize
    let post := sizeT (user + round8 n.toNat)
    let memory :=
      if arena.redzones then
        (memory.fill pre redzoneByte redzoneSize).fill
          post redzoneByte redzoneSize
      else
        memory
    { user := some user
      arena := { arena with
        used := sizeT (arena.used + need)
        usedFits := fits
        usedAligned := used_add_blockTotal_mod arena n.toNat }
      memory := memory }
  else
    { user := none
      arena := arena
      memory := memory }

/-- The header address computed from a user pointer, wrapping below address 24. -/
def headerOf (u : Nat) : Nat :=
  sizeT (u + 2 ^ 64 - redzoneSize - blockHdrSize)

/-- Free a block: the return code and the memory afterwards. -/
def chaosArenaFree
    (arena : ChaosArena)
    (u : Nat)
    (memory : Memory) : Int × Memory :=
  if u = 0 then
    (-1, memory)
  else
    let h := headerOf u
    if h < arena.base ∨ arena.base + arena.total ≤ h then
      (-1, memory)
    else
      let (magic, memory) := memory.load32 h
      if magic = arenaMagicFree then
        (-1, memory)
      else if magic ≠ arenaMagicLive then
        (-1, memory)
      else
        let memory := memory.store32 h arenaMagicFree
        let (size, memory) := memory.load32 (h + 4)
        (0, memory.fill u poisonByte size)

/--
Scan up to `remaining` redzone bytes, stopping at the first byte that differs
from `redzoneByte`.
-/
def redzoneCorrupted : Nat → Nat → Memory → Bool × Memory
  | 0, _, memory =>
      (false, memory)
  | remaining + 1, address, memory =>
      let (value, memory) := memory.load8 address
      if value ≠ redzoneByte then
        (true, memory)
      else
        redzoneCorrupted remaining (address + 1) memory

/--
The walk of `chaosArenaCheck` from offset `off`.  The source loops without a
bound; `none` means that `fuel` iterations did not suffice.
-/
def checkFrom (arena : ChaosArena) :
    Nat → Nat → Int → Memory → Option (Int × Memory)
  | 0, _, _, _ =>
      none
  | fuel + 1, off, corrupted, memory =>
      if off < arena.used then
        let h := arena.base + off
        let (magic, memory) := memory.load32 h
        if magic ≠ arenaMagicLive ∧ magic ≠ arenaMagicFree then
          some (-1, memory)
        else
          let (size, memory) := memory.load32 (h + 4)
          let pad := round8 size
          let blksz := blockHdrSize + redzoneSize + pad + redzoneSize
          let pre := h + blockHdrSize
          let post := pre + redzoneSize + pad
          let (preHit, memory) := redzoneCorrupted redzoneSize pre memory
          let (postHit, memory) := redzoneCorrupted redzoneSize post memory
          checkFrom arena fuel (sizeT (off + blksz))
            (corrupted + (if preHit then 1 else 0) +
              (if postHit then 1 else 0))
            memory
      else
        some (corrupted, memory)

/-- Verify the redzones of every block reached from offset 0. -/
def chaosArenaCheck
    (arena : ChaosArena)
    (memory : Memory) : Option (Int × Memory) :=
  if arena.redzones then
    checkFrom arena (arena.used + 1) 0 0 memory
  else
    some (0, memory)

/-- One byte of a redzone scan. -/
theorem redzoneCorrupted_succ
    (remaining address : Nat)
    (memory : Memory) :
    redzoneCorrupted (remaining + 1) address memory =
      if memory.byte address = redzoneByte then
        redzoneCorrupted remaining (address + 1)
          (memory.noteReads address 1)
      else
        (true, memory.noteReads address 1) := by
  by_cases intact : memory.byte address = redzoneByte
  · simp [redzoneCorrupted, intact]
  · simp [redzoneCorrupted, intact]

/-- A user-space offset advanced by one stored block does not wrap. -/
theorem sizeT_advance
    {arena : ChaosArena}
    {off size : Nat}
    (below : off < arena.used)
    (bounded : size < 2 ^ 32) :
    sizeT (off +
        (blockHdrSize + redzoneSize + round8 size + redzoneSize)) =
      off + 40 + round8 size := by
  have usedFits := arena.usedFits
  have space := arena.inUserSpace
  unfold round8 sizeT blockHdrSize redzoneSize
  omega

/-- The memory after the two header loads of the check. -/
def headerLoads (memory : Memory) (header : Nat) : Memory :=
  (memory.noteReads header 4).noteReads (header + 4) 4

section CheckFrom

variable
  {arena : ChaosArena}
  {fuel off : Nat}
  {corrupted : Int}
  {memory : Memory}

/-- The walk ends at `used`. -/
theorem checkFrom_done
    (ended : arena.used ≤ off) :
    checkFrom arena (fuel + 1) off corrupted memory =
      some (corrupted, memory) := by
  simp [checkFrom, Nat.not_lt.mpr ended]

/-- An unknown magic word ends the walk with -1. -/
theorem checkFrom_wrecked
    (below : off < arena.used)
    (notLive : memory.word32 (arena.base + off) ≠ arenaMagicLive)
    (notFree : memory.word32 (arena.base + off) ≠ arenaMagicFree) :
    checkFrom arena (fuel + 1) off corrupted memory =
      some (-1, memory.noteReads (arena.base + off) 4) := by
  simp [checkFrom, below, notLive, notFree]

/-- A known magic word makes the walk scan two redzones and move on. -/
theorem checkFrom_block
    (below : off < arena.used)
    (known :
      memory.word32 (arena.base + off) = arenaMagicLive ∨
        memory.word32 (arena.base + off) = arenaMagicFree) :
    checkFrom arena (fuel + 1) off corrupted memory =
      let size := memory.word32 (arena.base + off + 4)
      let pre :=
        redzoneCorrupted 16 (arena.base + off + 8)
          (headerLoads memory (arena.base + off))
      let post :=
        redzoneCorrupted 16 (arena.base + off + 24 + round8 size) pre.2
      checkFrom arena fuel (off + 40 + round8 size)
        (corrupted + (if pre.1 then 1 else 0) +
          (if post.1 then 1 else 0))
        post.2 := by
  have accepted :
      ¬ (memory.word32 (arena.base + off) ≠ arenaMagicLive ∧
        memory.word32 (arena.base + off) ≠ arenaMagicFree) := by
    rintro ⟨notLive, notFree⟩
    exact known.elim notLive notFree
  have advance :=
    sizeT_advance below
      (memory.word32_lt (arena.base + off + 4))
  have postAddress :
      arena.base + off + 8 + 16 +
          round8 (memory.word32 (arena.base + off + 4)) =
        arena.base + off + 24 +
          round8 (memory.word32 (arena.base + off + 4)) := by
    omega
  simp only [checkFrom, below, ↓reduceIte, Memory.load32_fst,
    Memory.load32_snd, accepted, Memory.word32_noteReads, advance]
  simp only [blockHdrSize, redzoneSize, postAddress]
  rfl

end CheckFrom

end FailurePlayground.Arena
