import FailurePlayground.ArenaScan

namespace FailurePlayground.Arena

/-!
# Linear overruns

A client writes one contiguous range that starts inside a block or runs into
it, over whatever lies there: redzones, headers and neighbouring blocks.  The
blocks before the range lead the scan to the first block it touches, and that
block shows the damage before its header can mislead anyone.
-/

/-- A contiguous write none of whose bytes is `redzoneByte`. -/
structure Overrun where
  start : Nat
  length : Nat
  contents : Nat → UInt8
  foreign : ∀ index, contents index ≠ redzoneByte

namespace Overrun

/-- The write covers an address. -/
def Covers (overrun : Overrun) (address : Nat) : Prop :=
  overrun.start ≤ address ∧ address < overrun.start + overrun.length

instance (overrun : Overrun) (address : Nat) :
    Decidable (overrun.Covers address) :=
  inferInstanceAs (Decidable (_ ∧ _))

/-- The bytes of the region after the write. -/
def apply (overrun : Overrun) (memory : Memory) : Nat → UInt8 :=
  (memory.writeRange overrun.start overrun.length overrun.contents).byte

variable {overrun : Overrun} {memory : Memory} {address : Nat}

/-- A covered byte is no longer a redzone byte. -/
theorem apply_covered
    (covered : overrun.Covers address) :
    overrun.apply memory address ≠ redzoneByte := by
  obtain ⟨lower, upper⟩ := covered
  have written :
      (memory.writeRange overrun.start overrun.length
          overrun.contents).byte
            (overrun.start + (address - overrun.start)) =
        overrun.contents (address - overrun.start) :=
    Memory.byte_writeRange_inside _ _ _ (by omega)
  rw [Nat.add_sub_cancel' lower] at written
  unfold apply
  rw [written]
  exact overrun.foreign _

/-- Every other byte is as it was. -/
theorem apply_outside
    (outside :
      address < overrun.start ∨
        overrun.start + overrun.length ≤ address) :
    overrun.apply memory address = memory.byte address :=
  Memory.byte_writeRange_outside memory overrun.start overrun.length
    outside

end Overrun

/-- The first byte past the rounded user data of a block. -/
def Returned.roundedEnd (block : Returned) : Nat :=
  block.user + (block.size + 7) / 8 * 8

/-- The block of a layout that an offset of its byte range falls into. -/
theorem Laid.split_at
    {base off stop offset : Nat}
    {memory : Memory}
    {blocks : List Returned}
    (laid : Laid base memory off blocks stop)
    (lower : off ≤ offset)
    (upper : offset < stop) :
    ∃ first hit rest start,
      blocks = first ++ hit :: rest ∧
        Laid base memory off first start ∧
        BlockAt base memory start hit ∧
        Laid base memory (start + blockBytes hit.size) rest stop ∧
        start ≤ offset ∧ offset < start + blockBytes hit.size := by
  induction laid with
  | nil off =>
      omega
  | @cons off stop block rest here later inductionHypothesis =>
      by_cases inHere : offset < off + blockBytes block.size
      · exact ⟨[], block, rest, off, rfl, .nil off, here, later,
          lower, inHere⟩
      · obtain ⟨first, hit, others, start, shape, laidFirst, hitHere,
            laidRest, startLower, startUpper⟩ :=
          inductionHypothesis (Nat.le_of_not_lt inHere) upper
        refine ⟨block :: first, hit, others, start, ?_,
          .cons here laidFirst, hitHere, laidRest, startLower,
          startUpper⟩
        rw [shape, List.cons_append]

/-- Every block of a layout has its place there. -/
theorem Laid.blockAt_of_mem
    {base off stop : Nat}
    {memory : Memory}
    {blocks : List Returned}
    {block : Returned}
    (laid : Laid base memory off blocks stop)
    (member : block ∈ blocks) :
    ∃ start,
      off ≤ start ∧
        start + blockBytes block.size ≤ stop ∧
        BlockAt base memory start block := by
  obtain ⟨index, found⟩ := List.mem_iff_getElem?.mp member
  exact laid.getElem? found

/-- Every block of a layout has a known magic word. -/
theorem Laid.known
    {base off stop : Nat}
    {memory : Memory}
    {blocks : List Returned}
    {block : Returned}
    (laid : Laid base memory off blocks stop)
    (member : block ∈ blocks) :
    KnownMagic memory.byte (block.user - 24) := by
  obtain ⟨start, _, _, here⟩ := laid.blockAt_of_mem member
  have address := here.userAddress
  have header : block.user - 24 = base + start := by omega
  have magic : wordAt memory.byte (base + start) = magicOf block.freed :=
    here.magic
  unfold KnownMagic
  rw [header, magic]
  cases block.freed with
  | false =>
      exact Or.inl rfl
  | true =>
      exact Or.inr rfl

/--
A write that starts in a block damages the redzone before its user data or,
with the header left alone, the redzone behind.
-/
theorem BlockAt.damaged
    {base start : Nat}
    {memory : Memory}
    {hit : Returned}
    {overrun : Overrun}
    (here : BlockAt base memory start hit)
    (early :
      overrun.start < base + start + 24 →
        overrun.Covers (base + start + 23))
    (late :
      base + start + 24 ≤ overrun.start →
        ∃ index, index < 16 ∧
          overrun.Covers (hit.roundedEnd + index)) :
    Damaged (overrun.apply memory) (base + start + 8) ∨
      Damaged (overrun.apply memory)
        (base + start + 24 +
          round8 (wordAt (overrun.apply memory) (base + start + 4))) := by
  have address := here.userAddress
  have bounded := here.sizeBounded
  by_cases inFront : overrun.start < base + start + 24
  · exact
      Or.inl ⟨15, by decide, overrun.apply_covered (early inFront)⟩
  · have behind := Nat.le_of_not_lt inFront
    have stored :
        wordAt (overrun.apply memory) (base + start + 4) = hit.size := by
      rw [← here.storedSize]
      apply Memory.word32_congr
      intro index inside
      exact overrun.apply_outside (Or.inl (by omega))
    obtain ⟨index, inside, covered⟩ := late behind
    have rounded : round8 hit.size = (hit.size + 7) / 8 * 8 :=
      round8_eq (by omega)
    have place :
        base + start + 24 + round8 hit.size = hit.roundedEnd := by
      unfold Returned.roundedEnd
      omega
    rw [stored, place]
    exact Or.inr ⟨index, inside, overrun.apply_covered covered⟩

/-- The walk's count only grows, unless it gives up. -/
theorem checkFrom_mono
    {arena : ChaosArena}
    {fuel off : Nat}
    {corrupted answer : Int}
    {memory after : Memory}
    (ran :
      checkFrom arena fuel off corrupted memory = some (answer, after)) :
    answer = -1 ∨ corrupted ≤ answer := by
  induction fuel generalizing off corrupted memory with
  | zero =>
      simp [checkFrom] at ran
  | succ fuel inductionHypothesis =>
      by_cases below : off < arena.used
      · by_cases known :
            memory.word32 (arena.base + off) = arenaMagicLive ∨
              memory.word32 (arena.base + off) = arenaMagicFree
        · rw [checkFrom_block below known] at ran
          rcases inductionHypothesis ran with gaveUp | grown
          · exact Or.inl gaveUp
          · refine Or.inr (Int.le_trans ?_ grown)
            split
            · split
              · omega
              · omega
            · split
              · omega
              · omega
        · rw [checkFrom_wrecked below (fun live => known (Or.inl live))
            (fun free => known (Or.inr free))] at ran
          simp only [Option.some.injEq, Prod.mk.injEq] at ran
          exact Or.inl ran.1.symm
      · rw [checkFrom_done (Nat.le_of_not_lt below)] at ran
        simp only [Option.some.injEq, Prod.mk.injEq] at ran
        exact Or.inr (Int.le_of_eq ran.1)

/-- A damaged redzone where the header points is never forgotten. -/
theorem checkFrom_damaged
    {arena : ChaosArena}
    {fuel off : Nat}
    {corrupted answer : Int}
    {memory after : Memory}
    (below : off < arena.used)
    (damage :
      Damaged memory.byte (arena.base + off + 8) ∨
        Damaged memory.byte
          (arena.base + off + 24 +
            round8 (memory.word32 (arena.base + off + 4))))
    (counting : 0 ≤ corrupted)
    (ran :
      checkFrom arena (fuel + 1) off corrupted memory =
        some (answer, after)) :
    answer = -1 ∨ 0 < answer := by
  by_cases known :
      memory.word32 (arena.base + off) = arenaMagicLive ∨
        memory.word32 (arena.base + off) = arenaMagicFree
  · have preBytes :
        (redzoneCorrupted 16 (arena.base + off + 8)
          (headerLoads memory (arena.base + off))).2.byte =
            memory.byte :=
      (redzoneCorrupted_hit 16 (arena.base + off + 8)
        (headerLoads memory (arena.base + off))).2
    have headerBytes :
        (headerLoads memory (arena.base + off)).byte = memory.byte := rfl
    rw [checkFrom_block below known] at ran
    simp only [redzoneCorrupted_count, preBytes, headerBytes] at ran
    rcases checkFrom_mono ran with gaveUp | grown
    · exact Or.inl gaveUp
    · refine Or.inr ?_
      rcases damage with preHit | postHit
      · simp only [preHit, ↓reduceIte] at grown
        omega
      · simp only [postHit, ↓reduceIte] at grown
        omega
  · rw [checkFrom_wrecked below (fun live => known (Or.inl live))
      (fun free => known (Or.inr free))] at ran
    simp only [Option.some.injEq, Prod.mk.injEq] at ran
    exact Or.inl ran.1.symm

/-- A write into a block that also covers a byte just outside it. -/
structure RunsOut
    (session : Session)
    (block : Returned)
    (overrun : Overrun) : Prop where
  inRegion :
    session.arena.base ≤ overrun.start ∧
      overrun.start + overrun.length ≤
        session.arena.base + session.arena.total
  touches :
    ∃ address,
      block.user ≤ address ∧ address < block.user + block.size ∧
        overrun.Covers address
  leaves :
    overrun.Covers (block.user - 1) ∨
      overrun.Covers (block.user + block.size)

/-- The scan after the write answers -1 or a positive count. -/
def Detected (session : Session) (overrun : Overrun) : Prop :=
  ∃ answer,
    checkAnswer session.arena (overrun.apply session.memory) =
        some answer ∧
      (answer = -1 ∨ 0 < answer)

namespace Session

variable
  {session next : Session}
  {op : ClientOp}
  {block : Returned}
  {overrun : Overrun}

/-- The scan always ends with an answer. -/
theorem Valid.answers
    (valid : session.Valid)
    (contents : Nat → UInt8) :
    ∃ answer after,
      checkFrom session.arena (session.arena.used + 1) 0 0
          (Memory.ofBytes contents) = some (answer, after) ∧
        checkAnswer session.arena contents = some answer := by
  have enough : session.arena.used ≤ 0 + 40 * session.arena.used := by
    omega
  have ends :
      ∃ answer after,
        checkFrom session.arena (session.arena.used + 1) 0 0
          (Memory.ofBytes contents) = some (answer, after) ∧ _ :=
    checkFrom_reads rfl enough
  obtain ⟨answer, after, ran, _⟩ := ends
  refine ⟨answer, after, ran, ?_⟩
  simp only [checkAnswer, chaosArenaCheck, valid.redzones, ↓reduceIte,
    ran, Option.map_some]

/-- Damage behind an intact stretch of blocks is reported. -/
theorem Valid.reports
    {contents : Nat → UInt8}
    {first : List Returned}
    {start : Nat}
    (valid : session.Valid)
    (intact :
      Laid session.arena.base (Memory.ofBytes contents) 0 first start)
    (below : start < session.arena.used)
    (damage :
      Damaged contents (session.arena.base + start + 8) ∨
        Damaged contents
          (session.arena.base + start + 24 +
            round8 (wordAt contents
              (session.arena.base + start + 4)))) :
    ∃ answer,
      checkAnswer session.arena contents = some answer ∧
        (answer = -1 ∨ 0 < answer) := by
  have sized :
      Sized session.arena.base (Memory.ofBytes contents).byte 0 first
        start :=
    intact.sized fun _ _ => rfl
  have length := sized.length_le
  obtain ⟨answer, final, ran, answered⟩ := valid.answers contents
  obtain ⟨reached, sameBytes, passed⟩ :=
    checkFrom_sized (session.arena.used - first.length + 1) 0 sized
      (Nat.le_of_lt below) fun _ earlier => intact.known earlier
  have fuel :
      session.arena.used - first.length + 1 + first.length =
        session.arena.used + 1 := by
    omega
  rw [fuel, ran] at passed
  refine ⟨answer, answered, ?_⟩
  refine checkFrom_damaged below ?_ (by omega) passed.symm
  have sameWord :
      reached.word32 (session.arena.base + start + 4) =
        wordAt contents (session.arena.base + start + 4) :=
    Memory.word32_congr fun index _ => congrFun sameBytes _
  rw [sameBytes, sameWord]
  exact damage

/--
The scan reaches the block a write starts in, and finds one of its redzones
damaged.
-/
theorem Valid.detects
    (valid : session.Valid)
    (member : block ∈ session.returned)
    (out : RunsOut session block overrun)
    (reaches :
      overrun.Covers (block.user - 1) ∨
        overrun.Covers block.roundedEnd) :
    Detected session overrun := by
  obtain ⟨touched, low, high, coveredLow, coveredHigh⟩ := out.touches
  obtain ⟨place, _, placeUpper, here⟩ := valid.laid.blockAt_of_mem member
  have address := here.userAddress
  have regionLow := out.inRegion.1
  obtain ⟨first, hit, rest, start, shape, laidFirst, hitHere, laidRest,
      startLower, startUpper⟩ :=
    valid.laid.split_at (Nat.zero_le (overrun.start - session.arena.base))
      (by unfold blockBytes at placeUpper; omega)
  have restForward := laidRest.start_le_stop
  have hitAddress := hitHere.userAddress
  -- The block meant by the client is the one hit first, or a later one.
  have later :
      block = hit ∨ start + blockBytes hit.size + 24 ≤
        touched - session.arena.base := by
    rw [shape] at member
    rcases List.mem_append.mp member with before | same | after
    · obtain ⟨spot, _, spotUpper, spotHere⟩ :=
        laidFirst.blockAt_of_mem before
      have spotAddress := spotHere.userAddress
      unfold blockBytes at spotUpper
      omega
    · exact Or.inl rfl
    · rename_i inRest
      obtain ⟨spot, spotLower, _, spotHere⟩ :=
        laidRest.blockAt_of_mem inRest
      have spotAddress := spotHere.userAddress
      exact Or.inr (by omega)
  have intact :
      Laid session.arena.base
        (Memory.ofBytes (overrun.apply session.memory)) 0 first start :=
    laidFirst.congr fun query _ upper =>
      overrun.apply_outside (Or.inl (by omega))
  refine valid.reports intact (by unfold blockBytes at restForward; omega)
    (hitHere.damaged ?_ ?_)
  · intro inFront
    refine ⟨by omega, ?_⟩
    rcases later with rfl | beyond
    · omega
    · unfold blockBytes at beyond
      omega
  · intro behind
    rcases later with rfl | beyond
    · have atEnd : overrun.Covers block.roundedEnd :=
        reaches.resolve_left fun front => by
          have frontLow := front.1
          omega
      exact ⟨0, by decide, atEnd⟩
    · refine ⟨15, by decide, ?_, ?_⟩
      · unfold blockBytes at startUpper
        unfold Returned.roundedEnd
        omega
      · unfold blockBytes at beyond
        unfold Returned.roundedEnd
        omega

/-- A write that stays in the rounded user data of a block goes unseen. -/
theorem Valid.misses
    (valid : session.Valid)
    (member : block ∈ session.returned)
    (out : RunsOut session block overrun)
    (short :
      ¬ (overrun.Covers (block.user - 1) ∨
        overrun.Covers block.roundedEnd)) :
    ¬ Detected session overrun := by
  obtain ⟨touched, low, high, coveredLow, coveredHigh⟩ := out.touches
  have rounded : block.user + block.size ≤ block.roundedEnd := by
    unfold Returned.roundedEnd
    omega
  have unchanged :
      Laid session.arena.base
        (Memory.ofBytes (overrun.apply session.memory)) 0
        session.returned session.arena.used := by
    refine valid.laid.user_changed member ?_
    unfold Overrun.Covers at short
    intro query outside
    rw [← Returned.roundedEnd] at outside
    exact overrun.apply_outside (by omega)
  have written :
      Session.Valid { session with
        memory := Memory.ofBytes (overrun.apply session.memory) } :=
    ⟨valid.redzones, valid.small, unchanged⟩
  obtain ⟨after, ran, _⟩ := written.law.clean
  rintro ⟨answer, answered, found⟩
  rw [checkAnswer, ran, Option.map_some, Option.some.injEq] at answered
  rw [← answered] at found
  have zero : ¬ ((0 : Int) = -1 ∨ (0 : Int) < 0) := by decide
  exact zero found

/--
A client whose requests stay below `2 ^ 32` and that frees no pointer with a
forged header.
-/
def Modest (session : Session) : ClientOp → Prop
  | .alloc n => n.toNat < 2 ^ 32
  | .free p => session.Unforged p.toNat
  | .write _ _ _ => True

instance (session : Session) : (op : ClientOp) →
    Decidable (session.Modest op)
  | .alloc n => inferInstanceAs (Decidable (n.toNat < 2 ^ 32))
  | .free p => inferInstanceAs (Decidable (session.Unforged p.toNat))
  | .write _ _ _ => inferInstanceAs (Decidable True)

/-- A modest client keeps the representation invariant. -/
theorem Valid.modestStep
    (valid : session.Valid)
    (modest : session.Modest op)
    (stepped : session.clientStep? op = some next) :
    next.Valid := by
  cases op with
  | alloc n =>
      exact valid.alloc modest stepped
  | free p =>
      exact valid.freeAny modest stepped
  | write index offset value =>
      exact valid.write stepped

end Session

/-- Three blocks, the first freed and the second written. -/
def threeBlocks : List ClientOp :=
  [.alloc 13, .alloc 24, .alloc 5, .free 65560, .write 1 23 0x58]

/-- A write from the second block over the header of the third. -/
def longOverrun : Overrun where
  start := 65620
  length := 60
  contents := fun _ => 0x58
  foreign := fun _ => by decide

/-- One block whose size is not a multiple of eight. -/
def oddBlock : List ClientOp :=
  [.alloc 13]

/-- A write of the last byte of that block and of the byte after it. -/
def shortOverrun : Overrun where
  start := 65572
  length := 2
  contents := fun _ => 0x58
  foreign := fun _ => by decide

end FailurePlayground.Arena
