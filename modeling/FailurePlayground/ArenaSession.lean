import FailurePlayground.ArenaLayout
import FailurePlayground.Lib.Transition

namespace FailurePlayground.Arena

/-!
# Client sessions over one arena

A session is an arena together with everything its client was handed: the
returned pointers, the sizes asked for, and whether `chaosArenaFree` has been
called on each.  Clients may free any returned pointer any number of times and
may write any byte of a returned block, live or freed.
-/

/-- One client action; a block is named by its position in allocation order. -/
inductive ArenaOp where
  | alloc (n : UInt64)
  | free (index : Nat)
  | write (index offset : Nat) (value : UInt8)
  deriving Repr, DecidableEq

/-- An arena, its memory and the pointers returned so far. -/
structure Session where
  arena : ChaosArena
  memory : Memory
  returned : List Returned

namespace Session

/-- A fresh arena has returned nothing. -/
def start (arena : ChaosArena) (memory : Memory) : Session where
  arena := arena
  memory := memory
  returned := []

/-- Run one client action; a write outside `[u, u + n)` is not an action. -/
def step? (session : Session) : ArenaOp → Option Session
  | .alloc n =>
      let allocation :=
        chaosArenaAlloc session.arena n session.memory
      some {
        arena := allocation.arena
        memory := allocation.memory
        returned :=
          match allocation.user with
          | none => session.returned
          | some user =>
              session.returned ++ [⟨user, n.toNat, false⟩]
      }
  | .free index =>
      session.returned[index]?.map fun block => {
        arena := session.arena
        memory :=
          (chaosArenaFree session.arena block.user session.memory).2
        returned :=
          session.returned.set index { block with freed := true }
      }
  | .write index offset value =>
      session.returned[index]?.bind fun block =>
        if offset < block.size then
          some { session with
            memory := session.memory.store8 (block.user + offset) value }
        else
          none

/-- Run a finite list of client actions. -/
abbrev run? : Session → List ArenaOp → Option Session :=
  Transition.run? step?

/--
The representation invariant: a redzone arena below four gigabytes whose used
bytes are exactly the returned blocks, back to back.
-/
structure Valid (session : Session) : Prop where
  redzones : session.arena.redzones = true
  small : session.arena.total < 2 ^ 32
  laid :
    Laid session.arena.base session.memory 0
      session.returned session.arena.used

end Session

section Alloc

variable
  {arena : ChaosArena}
  {n : UInt64}
  {memory : Memory}

/-- A request below `2 ^ 32` makes no `size_t` computation wrap. -/
theorem alloc_no_wrap
    (bounded : n.toNat < 2 ^ 32) :
    sizeT (arena.used + blockTotal n.toNat) =
      arena.used + blockBytes n.toNat := by
  have total : blockTotal n.toNat = blockBytes n.toNat :=
    blockTotal_eq (by omega)
  have fits := arena.usedFits
  have space := arena.inUserSpace
  rw [total]
  unfold sizeT blockBytes
  omega

/-- A failed allocation changes neither the arena nor the memory. -/
theorem alloc_none
    (failed : (chaosArenaAlloc arena n memory).user = none) :
    (chaosArenaAlloc arena n memory).arena = arena ∧
      (chaosArenaAlloc arena n memory).memory = memory := by
  unfold chaosArenaAlloc at failed ⊢
  by_cases fits :
      sizeT (arena.used + blockTotal n.toNat) ≤ arena.total
  · simp [fits] at failed
  · simp [fits]

/-- The memory after a successful redzone allocation that does not wrap. -/
def allocMemory (arena : ChaosArena) (n : Nat) (memory : Memory) : Memory :=
  let p := arena.base + arena.used
  (((memory.store32 p arenaMagicLive).store32 (p + 4) n).fill
      (p + 8) redzoneByte 16).fill
    (p + 24 + (n + 7) / 8 * 8) redzoneByte 16

/-- A successful allocation below `2 ^ 32` bytes, spelled out. -/
theorem alloc_some
    (redzones : arena.redzones = true)
    (bounded : n.toNat < 2 ^ 32)
    {user : Nat}
    (succeeded : (chaosArenaAlloc arena n memory).user = some user) :
    user = arena.base + arena.used + 24 ∧
      arena.used + blockBytes n.toNat ≤ arena.total ∧
      (chaosArenaAlloc arena n memory).memory =
        allocMemory arena n.toNat memory ∧
      (chaosArenaAlloc arena n memory).arena.base = arena.base ∧
      (chaosArenaAlloc arena n memory).arena.total = arena.total ∧
      (chaosArenaAlloc arena n memory).arena.flags = arena.flags ∧
      (chaosArenaAlloc arena n memory).arena.used =
        arena.used + blockBytes n.toNat := by
  have noWrap :
      sizeT (arena.used + blockTotal n.toNat) =
        arena.used + blockBytes n.toNat :=
    alloc_no_wrap bounded
  have rounded : round8 n.toNat = (n.toNat + 7) / 8 * 8 :=
    round8_eq (by omega)
  have space := arena.inUserSpace
  by_cases fits :
      sizeT (arena.used + blockTotal n.toNat) ≤ arena.total
  · have room : arena.used + blockBytes n.toNat ≤ arena.total := by
      rw [← noWrap]
      exact fits
    have sizeKept : n.toNat % 2 ^ 32 = n.toNat :=
      Nat.mod_eq_of_lt bounded
    have post :
        sizeT
          (arena.base + arena.used + blockHdrSize + redzoneSize +
            round8 n.toNat) =
          arena.base + arena.used + 24 + (n.toNat + 7) / 8 * 8 := by
      rw [rounded]
      unfold sizeT blockHdrSize redzoneSize
      unfold blockBytes at room
      omega
    simp only [chaosArenaAlloc, fits, ↓reduceDIte,
      Option.some.injEq] at succeeded
    refine ⟨succeeded.symm, room, ?_, ?_, ?_, ?_, ?_⟩
    · simp only [chaosArenaAlloc, fits, ↓reduceDIte, redzones,
        ↓reduceIte, post, sizeKept]
      rfl
    · simp [chaosArenaAlloc, fits]
    · simp [chaosArenaAlloc, fits]
    · simp [chaosArenaAlloc, fits]
    · simp only [chaosArenaAlloc, fits, ↓reduceDIte]
      exact noWrap
  · simp [chaosArenaAlloc, fits] at succeeded

end Alloc

/-- Allocation touches no byte below the new block. -/
theorem allocMemory_below
    {arena : ChaosArena}
    {n address : Nat}
    {memory : Memory}
    (below : address < arena.base + arena.used) :
    (allocMemory arena n memory).byte address = memory.byte address := by
  unfold allocMemory Memory.fill Memory.store32
  rw [Memory.byte_writeRange_outside _ _ _ (by omega),
    Memory.byte_writeRange_outside _ _ _ (by omega),
    Memory.byte_writeRange_outside _ _ _ (by omega),
    Memory.byte_writeRange_outside _ _ _ (by omega)]

/-- Allocation builds a live block at the old end of the used bytes. -/
theorem allocMemory_blockAt
    {arena : ChaosArena}
    {n : Nat}
    {memory : Memory}
    (bounded : n < 2 ^ 32) :
    BlockAt arena.base (allocMemory arena n memory) arena.used
      ⟨arena.base + arena.used + 24, n, false⟩ where
  userAddress := rfl
  sizeBounded := bounded
  magic := by
    have kept :
        (allocMemory arena n memory).word32 (arena.base + arena.used) =
          (memory.store32 (arena.base + arena.used)
            arenaMagicLive).word32 (arena.base + arena.used) := by
      apply Memory.word32_congr
      intro index inside
      unfold allocMemory Memory.fill Memory.store32
      rw [Memory.byte_writeRange_outside _ _ _ (by omega),
        Memory.byte_writeRange_outside _ _ _ (by omega),
        Memory.byte_writeRange_outside _ _ _ (by omega)]
    rw [kept]
    exact Memory.word32_store32 _ _ (by decide)
  storedSize := by
    have kept :
        (allocMemory arena n memory).word32
            (arena.base + arena.used + 4) =
          ((memory.store32 (arena.base + arena.used)
            arenaMagicLive).store32
              (arena.base + arena.used + 4) n).word32
                (arena.base + arena.used + 4) := by
      apply Memory.word32_congr
      intro index inside
      unfold allocMemory Memory.fill
      rw [Memory.byte_writeRange_outside _ _ _ (by omega),
        Memory.byte_writeRange_outside _ _ _ (by omega)]
    rw [kept]
    exact Memory.word32_store32 _ _ bounded
  preRedzone := by
    intro index inside
    unfold allocMemory Memory.fill
    rw [Memory.byte_writeRange_outside _ _ _ (by omega),
      Memory.byte_writeRange_inside _ _ _ inside]
  postRedzone := by
    intro index inside
    unfold allocMemory Memory.fill
    rw [Memory.byte_writeRange_inside _ _ _ inside]

section Free

variable
  {arena : ChaosArena}
  {memory : Memory}
  {off : Nat}
  {block : Returned}

/-- The header of a laid block is found from its user pointer. -/
theorem BlockAt.headerOf_user
    (here : BlockAt arena.base memory off block)
    (room : off < arena.total) :
    headerOf block.user = arena.base + off := by
  have address := here.userAddress
  have space := arena.inUserSpace
  unfold headerOf sizeT redzoneSize blockHdrSize
  omega

/-- The memory left by the first free of a block. -/
def freeMemory (block : Returned) (memory : Memory) : Memory :=
  ((((memory.noteReads (block.user - 24) 4).store32
      (block.user - 24) arenaMagicFree).noteReads
        (block.user - 24 + 4) 4).fill
          block.user poisonByte block.size)

/-- A free that finds a live header poisons as many bytes as it stores. -/
theorem free_of_header
    (header : headerOf block.user = block.user - 24)
    (above : arena.base + 24 ≤ block.user)
    (room : block.user - 24 < arena.base + arena.total)
    (magic : memory.word32 (block.user - 24) = arenaMagicLive)
    (storedSize : memory.word32 (block.user - 20) = block.size) :
    chaosArenaFree arena block.user memory =
      (0, freeMemory block memory) := by
  have base := arena.basePositive
  have nonNull : block.user ≠ 0 := by omega
  have inRegion :
      ¬ (block.user - 24 < arena.base ∨
        arena.base + arena.total ≤ block.user - 24) := by
    omega
  have sizeKept :
      ((memory.noteReads (block.user - 24) 4).store32
        (block.user - 24) arenaMagicFree).word32
          (block.user - 24 + 4) = block.size := by
    have sizeAddress : block.user - 24 + 4 = block.user - 20 := by omega
    rw [← storedSize, sizeAddress]
    apply Memory.word32_congr
    intro index inside
    unfold Memory.store32
    rw [Memory.byte_writeRange_outside _ _ _ (by omega)]
    rfl
  have distinct : arenaMagicLive ≠ arenaMagicFree := by decide
  simp only [chaosArenaFree, nonNull, ↓reduceIte, header, inRegion,
    Memory.load32_fst, Memory.load32_snd, magic, distinct,
    ne_eq, not_true_eq_false, sizeKept, freeMemory]

/-- Freeing a block that was not freed before poisons it and returns 0. -/
theorem free_live
    (here : BlockAt arena.base memory off block)
    (room : off < arena.total)
    (live : block.freed = false) :
    chaosArenaFree arena block.user memory =
      (0, freeMemory block memory) := by
  have address := here.userAddress
  have header := here.headerOf_user room
  have headerAddress : block.user - 24 = arena.base + off := by omega
  have sizeAddress : block.user - 20 = arena.base + off + 4 := by omega
  have magic : memory.word32 (arena.base + off) = arenaMagicLive := by
    rw [here.magic, live]
    rfl
  refine free_of_header ?_ ?_ ?_ ?_ ?_
  · rw [header, headerAddress]
  · omega
  · omega
  · rw [headerAddress, magic]
  · rw [sizeAddress, here.storedSize]

/-- Freeing a block again returns -1 and leaves every byte alone. -/
theorem free_freed
    (here : BlockAt arena.base memory off block)
    (room : off < arena.total)
    (freed : block.freed = true) :
    (chaosArenaFree arena block.user memory).1 = -1 ∧
      (chaosArenaFree arena block.user memory).2.byte = memory.byte := by
  have address := here.userAddress
  have header := here.headerOf_user room
  have base := arena.basePositive
  have nonNull : block.user ≠ 0 := by omega
  have inRegion :
      ¬ (arena.base + off < arena.base ∨
        arena.base + arena.total ≤ arena.base + off) := by
    omega
  have magic : memory.word32 (arena.base + off) = arenaMagicFree := by
    rw [here.magic, freed]
    rfl
  simp only [chaosArenaFree, nonNull, ↓reduceIte, header, inRegion,
    Memory.load32_fst, Memory.load32_snd, magic]
  exact ⟨trivial, rfl⟩

/-- Poisoning writes only the magic word and the user bytes. -/
theorem freeMemory_outside
    {address : Nat}
    (outsideMagic :
      address < block.user - 24 ∨ block.user - 20 ≤ address)
    (outsideUser :
      address < block.user ∨ block.user + block.size ≤ address)
    (header : 24 ≤ block.user) :
    (freeMemory block memory).byte address = memory.byte address := by
  unfold freeMemory Memory.fill Memory.store32
  rw [Memory.byte_writeRange_outside _ _ _ (by omega)]
  rw [Memory.byte_noteReads]
  rw [Memory.byte_writeRange_outside _ _ _ (by omega)]
  rfl

/-- Poisoning sets every user byte. -/
theorem freeMemory_user
    {index : Nat}
    (inside : index < block.size) :
    (freeMemory block memory).byte (block.user + index) = poisonByte := by
  unfold freeMemory Memory.fill
  exact Memory.byte_writeRange_inside _ _ _ inside

/-- Poisoning leaves the freed magic word in the header. -/
theorem freeMemory_magic
    {base : Nat}
    (above : base + 24 ≤ block.user) :
    (freeMemory block memory).word32 (block.user - 24) =
      arenaMagicFree := by
  have kept :
      (freeMemory block memory).word32 (block.user - 24) =
        ((memory.noteReads (block.user - 24) 4).store32
          (block.user - 24) arenaMagicFree).word32
            (block.user - 24) := by
    apply Memory.word32_congr
    intro index inside
    unfold freeMemory Memory.fill
    rw [Memory.byte_writeRange_outside _ _ _ (by omega),
      Memory.byte_noteReads]
  rw [kept]
  exact Memory.word32_store32 _ _ (by decide)

/-- A freed block is still a block, with the other magic word. -/
theorem freeMemory_blockAt
    (here : BlockAt arena.base memory off block) :
    BlockAt arena.base (freeMemory block memory) off
      { block with freed := true } := by
  have address := here.userAddress
  have outside :
      ∀ query,
        arena.base + off + 4 ≤ query →
        (query < block.user ∨ block.user + block.size ≤ query) →
        (freeMemory block memory).byte query = memory.byte query :=
    fun query lower outsideUser =>
      freeMemory_outside (by omega) outsideUser (by omega)
  exact {
    userAddress := address
    sizeBounded := here.sizeBounded
    magic := by
      have headerAddress : block.user - 24 = arena.base + off := by
        omega
      have above : arena.base + 24 ≤ block.user := by omega
      rw [← headerAddress]
      exact freeMemory_magic above
    storedSize := by
      rw [← here.storedSize]
      apply Memory.word32_congr
      intro index inside
      exact outside _ (by omega) (by omega)
    preRedzone := by
      intro index inside
      rw [outside _ (by omega) (by omega)]
      exact here.preRedzone index inside
    postRedzone := by
      intro index inside
      have rounded : block.size ≤ (block.size + 7) / 8 * 8 := by omega
      rw [outside _ (by omega) (by simp only; omega)]
      exact here.postRedzone index inside
  }

end Free

/-- The layout survives any change of the rounded user data of one block. -/
theorem Laid.user_changed
    {base off stop : Nat}
    {before after : Memory}
    {blocks : List Returned}
    {block : Returned}
    (laid : Laid base before off blocks stop)
    (member : block ∈ blocks)
    (frame :
      ∀ address,
        address < block.user ∨
          block.user + (block.size + 7) / 8 * 8 ≤ address →
        after.byte address = before.byte address) :
    Laid base after off blocks stop := by
  obtain ⟨index, found⟩ := List.mem_iff_getElem?.mp member
  obtain ⟨place, _, _, here⟩ := laid.getElem? found
  have sameList : blocks.set index block = blocks := by
    obtain ⟨inRange, entry⟩ := List.getElem?_eq_some_iff.mp found
    rw [← entry]
    exact List.set_getElem_self inRange
  rw [← sameList]
  refine laid.set found rfl ?_ ?_
  · intro start blockHere
    have address := blockHere.userAddress
    apply blockHere.congr
    · intro query lower upper
      exact frame query (Or.inl (by omega))
    · intro query lower upper
      exact frame query (Or.inr (by omega))
  · intro query outside
    have address := here.userAddress
    unfold blockBytes at outside
    exact frame query (by omega)

namespace Session

/-- Every block of a valid session lies inside the used bytes. -/
theorem Valid.blockAt
    {session : Session}
    (valid : session.Valid)
    {index : Nat}
    {block : Returned}
    (found : session.returned[index]? = some block) :
    ∃ off,
      off + blockBytes block.size ≤ session.arena.used ∧
        BlockAt session.arena.base session.memory off block := by
  obtain ⟨off, _, upper, here⟩ := valid.laid.getElem? found
  exact ⟨off, upper, here⟩

/-- Allocation keeps the representation invariant. -/
theorem Valid.alloc
    {session next : Session}
    {n : UInt64}
    (valid : session.Valid)
    (bounded : n.toNat < 2 ^ 32)
    (stepped : session.step? (.alloc n) = some next) :
    next.Valid := by
  simp only [step?, Option.some.injEq] at stepped
  subst stepped
  cases outcome :
      (chaosArenaAlloc session.arena n session.memory).user with
  | none =>
      obtain ⟨sameArena, sameMemory⟩ := alloc_none outcome
      simp only [sameArena, sameMemory]
      exact ⟨valid.redzones, valid.small, valid.laid⟩
  | some user =>
      obtain ⟨address, room, memoryAfter, sameBase, sameTotal,
          sameFlags, usedAfter⟩ :=
        alloc_some valid.redzones bounded outcome
      refine ⟨?_, ?_, ?_⟩
      · simpa [ChaosArena.redzones, sameFlags] using valid.redzones
      · simpa [sameTotal] using valid.small
      · simp only [sameBase, memoryAfter, usedAfter, address]
        have earlier :
            Laid session.arena.base
              (allocMemory session.arena n.toNat session.memory) 0
              session.returned session.arena.used :=
          valid.laid.congr fun _ _ upper => allocMemory_below upper
        exact earlier.append
          (.cons (allocMemory_blockAt bounded) (.nil _))

/-- Freeing any returned pointer keeps the representation invariant. -/
theorem Valid.free
    {session next : Session}
    {index : Nat}
    (valid : session.Valid)
    (stepped : session.step? (.free index) = some next) :
    next.Valid := by
  simp only [step?, Option.map_eq_some_iff] at stepped
  obtain ⟨block, found, rfl⟩ := stepped
  obtain ⟨off, upper, here⟩ := valid.blockAt found
  have address := here.userAddress
  have usedFits := session.arena.usedFits
  have room : off < session.arena.total := by
    unfold blockBytes at upper
    omega
  refine ⟨valid.redzones, valid.small, ?_⟩
  cases status : block.freed with
  | false =>
      simp only [free_live here room status]
      refine valid.laid.set found rfl ?_ ?_
      · intro start blockHere
        exact freeMemory_blockAt blockHere
      · intro query outside
        unfold blockBytes at outside
        exact freeMemory_outside (by omega) (by omega) (by omega)
  | true =>
      obtain ⟨_, sameBytes⟩ := free_freed here room status
      refine valid.laid.set found rfl ?_ ?_
      · intro start blockHere
        have unchanged : { block with freed := true } = block := by
          rw [← status]
        rw [unchanged]
        apply blockHere.congr
        · intro query _ _
          rw [sameBytes]
        · intro query _ _
          rw [sameBytes]
      · intro query _
        rw [sameBytes]

/-- A write inside a returned block keeps the representation invariant. -/
theorem Valid.write
    {session next : Session}
    {index offset : Nat}
    {value : UInt8}
    (valid : session.Valid)
    (stepped : session.step? (.write index offset value) = some next) :
    next.Valid := by
  simp only [step?, Option.bind_eq_some_iff] at stepped
  obtain ⟨block, found, guarded⟩ := stepped
  by_cases inside : offset < block.size
  · simp only [inside, ↓reduceIte, Option.some.injEq] at guarded
    subst guarded
    have member := List.mem_of_getElem? found
    refine
      ⟨valid.redzones, valid.small, valid.laid.user_changed member ?_⟩
    intro query outside
    have kept :
        (session.memory.store8 (block.user + offset) value).byte query =
          session.memory.byte query :=
      Memory.byte_writeRange_outside _ _ _ (by omega)
    exact kept
  · simp [inside] at guarded

/-- A fresh redzone arena satisfies the representation invariant. -/
theorem valid_start
    {bytes : UInt64}
    {flags : UInt32}
    {descriptor : Bool}
    {mapped : Option (Mapping bytes.toNat)}
    {arena : ChaosArena}
    (created :
      chaosArenaCreate bytes flags descriptor mapped = some arena)
    (redzones : flags &&& chaosArenaRedzones ≠ 0)
    (small : bytes.toNat < 2 ^ 32)
    (memory : Memory) :
    (start arena memory).Valid := by
  unfold chaosArenaCreate at created
  by_cases tiny : bytes < 4096
  · simp [tiny] at created
  · cases descriptor with
    | false =>
        simp [tiny] at created
    | true =>
        simp only [tiny, ↓reduceIte, Bool.not_true, Bool.false_eq_true,
          Option.map_eq_some_iff] at created
        obtain ⟨mapping, _, rfl⟩ := created
        exact ⟨by simpa [ChaosArena.redzones, start] using redzones,
          small, .nil 0⟩

/-- The requests of an action list all stay below `2 ^ 32` bytes. -/
def RequestsBounded (ops : List ArenaOp) : Prop :=
  ∀ n, ArenaOp.alloc n ∈ ops → n.toNat < 2 ^ 32

/-- Every run of a valid session is valid. -/
theorem Valid.run
    {session final : Session}
    {ops : List ArenaOp}
    (valid : session.Valid)
    (bounded : RequestsBounded ops)
    (ran : session.run? ops = some final) :
    final.Valid := by
  have preserved :
      ∀ {current : Session} {op : ArenaOp} {next : Session},
        current.Valid →
        op ∈ ops →
        current.step? op = some next →
        next.Valid := by
    intro current op next currentValid member stepped
    cases op with
    | alloc n =>
        exact currentValid.alloc (bounded n member) stepped
    | free index =>
        exact currentValid.free stepped
    | write index offset value =>
        exact currentValid.write stepped
  exact
    Transition.run?_invariant_of_eachStep preserved ran
      (Transition.eachStep_of_forall (fun _ member => member) session)
      valid

end Session

end FailurePlayground.Arena
