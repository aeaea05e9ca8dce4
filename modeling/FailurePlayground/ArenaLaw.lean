import FailurePlayground.ArenaSession

namespace FailurePlayground.Arena

/-!
# The arena law over whole runs

Every state a client can reach by allocating, freeing and writing inside its
own blocks satisfies one law: the stored sizes lead a walk over exactly the
returned blocks, the blocks are disjoint and inside the region, a free poisons
once and refuses afterwards, and the redzone check is clean.
-/

/-- The walk that follows stored sizes from one offset to another. -/
inductive Walk (base : Nat) (memory : Memory) :
    Nat → List Nat → Nat → Prop where
  | done (off : Nat) :
      Walk base memory off [] off
  | step
      {off stop : Nat}
      {rest : List Nat}
      (later :
        Walk base memory
          (off + blockTotal (memory.word32 (base + off + 4))) rest stop) :
      Walk base memory off (off :: rest) stop

/-- The first byte past a returned block. -/
def Returned.stop (block : Returned) : Nat :=
  block.user - 24 + blockBytes block.size

/-- What a client may rely on in a state of a session. -/
structure Law (session : Session) : Prop where
  /-- Stored sizes lead from offset 0 over the returned blocks to `used`. -/
  walk :
    Walk session.arena.base session.memory 0
      (session.returned.map fun block =>
        block.user - 24 - session.arena.base)
      session.arena.used
  /-- Blocks never overlap. -/
  disjoint :
    session.returned.Pairwise fun first second =>
      first.stop ≤ second.user - 24
  /-- Every block, header included, lies in `[base, base + total)`. -/
  inside :
    ∀ block ∈ session.returned,
      24 ≤ block.user ∧
        session.arena.base ≤ block.user - 24 ∧
        block.stop ≤ session.arena.base + session.arena.total
  /-- User pointers are 8-byte aligned relative to the region. -/
  aligned :
    ∀ block ∈ session.returned,
      (block.user - session.arena.base) % 8 = 0
  /-- The first free succeeds, poisons the block and frames the rest. -/
  firstFree :
    ∀ block ∈ session.returned, block.freed = false →
      (chaosArenaFree session.arena block.user session.memory).1 = 0 ∧
        (∀ index, index < block.size →
          (chaosArenaFree session.arena block.user
            session.memory).2.byte (block.user + index) = poisonByte) ∧
        ∀ address,
          (address < block.user - 24 ∨ block.user - 20 ≤ address) →
          (address < block.user ∨ block.user + block.size ≤ address) →
          (chaosArenaFree session.arena block.user
            session.memory).2.byte address = session.memory.byte address
  /-- Every later free is refused and changes nothing. -/
  laterFree :
    ∀ block ∈ session.returned, block.freed = true →
      (chaosArenaFree session.arena block.user session.memory).1 = -1 ∧
        (chaosArenaFree session.arena block.user
          session.memory).2.byte = session.memory.byte
  /-- The redzone check terminates, finds nothing and changes nothing. -/
  clean :
    ∃ after,
      chaosArenaCheck session.arena session.memory = some (0, after) ∧
        after.byte = session.memory.byte
  /-- An allocation that returns `NULL` changes nothing. -/
  failedAlloc :
    ∀ n, (chaosArenaAlloc session.arena n session.memory).user = none →
      (chaosArenaAlloc session.arena n session.memory).arena =
          session.arena ∧
        (chaosArenaAlloc session.arena n session.memory).memory =
          session.memory

/-- Scanning an intact redzone finds nothing and changes nothing. -/
theorem redzoneCorrupted_intact
    {remaining address : Nat}
    {memory : Memory}
    (intact :
      ∀ index, index < remaining →
        memory.byte (address + index) = redzoneByte) :
    (redzoneCorrupted remaining address memory).1 = false ∧
      (redzoneCorrupted remaining address memory).2.byte =
        memory.byte := by
  induction remaining generalizing address memory with
  | zero =>
      exact ⟨rfl, rfl⟩
  | succ remaining inductionHypothesis =>
      have first : memory.byte address = redzoneByte :=
        intact 0 (Nat.zero_lt_succ remaining)
      have later :
          ∀ index, index < remaining →
            (memory.noteReads address 1).byte (address + 1 + index) =
              redzoneByte := by
        intro index inside
        rw [Memory.byte_noteReads, Nat.add_right_comm]
        exact intact (index + 1) (by omega)
      obtain ⟨notHit, sameBytes⟩ := inductionHypothesis later
      rw [redzoneCorrupted_succ, if_pos first]
      exact ⟨notHit, sameBytes⟩

/-- A layout depends only on the bytes of the memory. -/
theorem Laid.of_sameBytes
    {base off stop : Nat}
    {before after : Memory}
    {blocks : List Returned}
    (laid : Laid base before off blocks stop)
    (same : after.byte = before.byte) :
    Laid base after off blocks stop :=
  laid.congr fun address _ _ => by rw [same]

/-- The check walks a layout to its end without finding a hit. -/
theorem checkFrom_laid
    {arena : ChaosArena}
    {memory : Memory}
    {blocks : List Returned}
    {off fuel : Nat}
    {corrupted : Int}
    (laid : Laid arena.base memory off blocks arena.used)
    (enough : blocks.length < fuel) :
    ∃ after,
      checkFrom arena fuel off corrupted memory =
          some (corrupted, after) ∧
        after.byte = memory.byte := by
  induction blocks generalizing off fuel memory with
  | nil =>
      cases laid
      cases fuel with
      | zero =>
          omega
      | succ fuel =>
          exact ⟨memory, by simp [checkFrom], rfl⟩
  | cons block rest inductionHypothesis =>
      cases laid with
      | cons here later =>
          cases fuel with
          | zero =>
              omega
          | succ fuel =>
              have forward := later.start_le_stop
              have usedFits := arena.usedFits
              have space := arena.inUserSpace
              have bounded := here.sizeBounded
              have notDone : off < arena.used := by
                unfold blockBytes at forward
                omega
              have known :
                  memory.word32 (arena.base + off) = arenaMagicLive ∨
                    memory.word32 (arena.base + off) =
                      arenaMagicFree := by
                rw [here.magic]
                cases block.freed with
                | false => exact Or.inl rfl
                | true => exact Or.inr rfl
              have rounded :
                  round8 block.size = (block.size + 7) / 8 * 8 :=
                round8_eq (by omega)
              have preIntact :
                  ∀ index, index < 16 →
                    (headerLoads memory (arena.base + off)).byte
                        (arena.base + off + 8 + index) =
                      redzoneByte :=
                here.preRedzone
              obtain ⟨preClean, preBytes⟩ :=
                redzoneCorrupted_intact preIntact
              have postIntact :
                  ∀ index, index < 16 →
                    (redzoneCorrupted 16 (arena.base + off + 8)
                      (headerLoads memory (arena.base + off))).2.byte
                        (arena.base + off + 24 +
                          (block.size + 7) / 8 * 8 + index) =
                      redzoneByte := by
                intro index inside
                rw [preBytes]
                exact here.postRedzone index inside
              obtain ⟨postClean, postBytes⟩ :=
                redzoneCorrupted_intact postIntact
              have sameBytes := postBytes.trans preBytes
              obtain ⟨after, ranRest, afterBytes⟩ :=
                inductionHypothesis
                  (later.of_sameBytes sameBytes)
                  (Nat.lt_of_succ_lt_succ enough)
              refine ⟨after, ?_, afterBytes.trans sameBytes⟩
              rw [checkFrom_block notDone known]
              simp only [here.storedSize, rounded, preClean, postClean,
                Bool.false_eq_true, ↓reduceIte, Int.add_zero]
              rw [← ranRest, blockBytes, ← Nat.add_assoc]

namespace Session.Valid

variable {session : Session} (valid : session.Valid)

include valid

/-- Every returned block of a valid session lies inside the used bytes. -/
theorem blockAt_of_mem
    {block : Returned}
    (member : block ∈ session.returned) :
    ∃ off,
      off + blockBytes block.size ≤ session.arena.used ∧
        BlockAt session.arena.base session.memory off block := by
  obtain ⟨index, found⟩ := List.mem_iff_getElem?.mp member
  exact valid.blockAt found

/-- The stored sizes lead the walk over the returned blocks. -/
theorem walk :
    Walk session.arena.base session.memory 0
      (session.returned.map fun block =>
        block.user - 24 - session.arena.base)
      session.arena.used := by
  have general :
      ∀ {off stop : Nat} {blocks : List Returned},
        Laid session.arena.base session.memory off blocks stop →
        Walk session.arena.base session.memory off
          (blocks.map fun block =>
            block.user - 24 - session.arena.base) stop := by
    intro off stop blocks laid
    induction laid with
    | nil off =>
        exact .done off
    | @cons off stop block rest here later inductionHypothesis =>
        have address := here.userAddress
        have bounded := here.sizeBounded
        have header :
            block.user - 24 - session.arena.base = off := by
          omega
        have advance :
            blockTotal
                (session.memory.word32
                  (session.arena.base + off + 4)) =
              blockBytes block.size := by
          rw [here.storedSize]
          exact blockTotal_eq (by omega)
        rw [List.map_cons, header]
        refine .step ?_
        rw [advance]
        exact inductionHypothesis
  exact general valid.laid

/-- Later blocks of a layout start where earlier ones have ended. -/
theorem disjoint :
    session.returned.Pairwise fun first second =>
      first.stop ≤ second.user - 24 := by
  have general :
      ∀ {off stop : Nat} {blocks : List Returned},
        Laid session.arena.base session.memory off blocks stop →
        blocks.Pairwise fun first second =>
          first.stop ≤ second.user - 24 := by
    intro off stop blocks laid
    induction laid with
    | nil off =>
        exact .nil
    | @cons off stop block rest here later inductionHypothesis =>
        refine .cons ?_ inductionHypothesis
        intro other member
        obtain ⟨index, found⟩ := List.mem_iff_getElem?.mp member
        obtain ⟨start, lower, _, otherHere⟩ := later.getElem? found
        have address := here.userAddress
        have otherAddress := otherHere.userAddress
        unfold Returned.stop
        omega
  exact general valid.laid

/-- Every valid session obeys the arena law. -/
theorem law : Law session where
  walk := valid.walk
  disjoint := valid.disjoint
  inside := by
    intro block member
    obtain ⟨off, upper, here⟩ := valid.blockAt_of_mem member
    have address := here.userAddress
    have usedFits := session.arena.usedFits
    unfold Returned.stop
    omega
  aligned := by
    intro block member
    obtain ⟨index, found⟩ := List.mem_iff_getElem?.mp member
    have general :
        ∀ {off stop index : Nat} {blocks : List Returned},
          Laid session.arena.base session.memory off blocks stop →
          off % 8 = 0 →
          blocks[index]? = some block →
          (block.user - session.arena.base) % 8 = 0 := by
      intro off stop index blocks laid
      induction laid generalizing index with
      | nil off =>
          intro _ absent
          simp at absent
      | @cons off stop head rest here later inductionHypothesis =>
          intro aligned found
          cases index with
          | zero =>
              simp only [List.getElem?_cons_zero,
                Option.some.injEq] at found
              subst found
              have address := here.userAddress
              omega
          | succ index =>
              simp only [List.getElem?_cons_succ] at found
              refine inductionHypothesis ?_ found
              unfold blockBytes
              omega
    exact general valid.laid rfl found
  firstFree := by
    intro block member live
    obtain ⟨off, upper, here⟩ := valid.blockAt_of_mem member
    have address := here.userAddress
    have usedFits := session.arena.usedFits
    have room : off < session.arena.total := by
      unfold blockBytes at upper
      omega
    rw [free_live here room live]
    refine ⟨rfl, fun index inside => freeMemory_user inside, ?_⟩
    intro query outsideMagic outsideUser
    exact freeMemory_outside outsideMagic outsideUser (by omega)
  laterFree := by
    intro block member freed
    obtain ⟨off, upper, here⟩ := valid.blockAt_of_mem member
    have usedFits := session.arena.usedFits
    have room : off < session.arena.total := by
      unfold blockBytes at upper
      omega
    exact free_freed here room freed
  clean := by
    have lengths := valid.laid.length_le
    have enough : session.returned.length < session.arena.used + 1 := by
      omega
    obtain ⟨after, ran, sameBytes⟩ :=
      checkFrom_laid valid.laid enough
    refine ⟨after, ?_, sameBytes⟩
    simp only [chaosArenaCheck, valid.redzones, ↓reduceIte]
    exact ran
  failedAlloc := by
    intro n failed
    exact alloc_none failed

end Session.Valid

/--
The arena law holds after every finite sequence of allocations below `2 ^ 32`
bytes, frees of returned pointers and writes inside returned blocks.
-/
theorem arenaLaw
    {bytes : UInt64}
    {flags : UInt32}
    {descriptor : Bool}
    {mapped : Option (Mapping bytes.toNat)}
    {arena : ChaosArena}
    (created :
      chaosArenaCreate bytes flags descriptor mapped = some arena)
    (redzones : flags &&& chaosArenaRedzones ≠ 0)
    (small : bytes.toNat < 2 ^ 32)
    (memory : Memory)
    {ops : List ArenaOp}
    (bounded : Session.RequestsBounded ops)
    {session : Session}
    (ran : (Session.start arena memory).run? ops = some session) :
    Law session := by
  have fresh : (Session.start arena memory).Valid :=
    Session.valid_start created redzones small memory
  exact (fresh.run bounded ran).law

/-- A one-page redzone arena mapped at address 65536. -/
def onePageArena : ChaosArena where
  base := 65536
  total := 4096
  used := 0
  flags := 1
  basePositive := by decide
  inUserSpace := by decide
  usedFits := by decide
  usedAligned := usedAligned_zero

/-- `onePageArena` is what `chaosArenaCreate` returns for one page. -/
theorem onePageArena_created :
    chaosArenaCreate 4096 1 true
        (some ⟨65536, by decide, by decide⟩) =
      some onePageArena := rfl

/-- The law on a run that mixes odd sizes, a double free and writes. -/
theorem arenaLaw_mixedRun :
    ∃ session,
      (Session.start onePageArena (Memory.ofBytes fun _ => 0)).run?
          [.alloc 13, .write 0 12 7, .free 0, .alloc 0, .free 0,
            .write 0 3 9, .alloc 4000, .free 1] = some session ∧
        Law session := by
  obtain ⟨session, ran⟩ :
      ∃ session,
        (Session.start onePageArena (Memory.ofBytes fun _ => 0)).run?
          [.alloc 13, .write 0 12 7, .free 0, .alloc 0, .free 0,
            .write 0 3 9, .alloc 4000, .free 1] = some session :=
    ⟨_, rfl⟩
  have bounded :
      Session.RequestsBounded
        [.alloc 13, .write 0 12 7, .free 0, .alloc 0, .free 0,
          .write 0 3 9, .alloc 4000, .free 1] := by
    intro n member
    simp only [List.mem_cons, ArenaOp.alloc.injEq, reduceCtorEq,
      false_or, or_false, List.not_mem_nil] at member
    rcases member with rfl | rfl | rfl <;> decide
  exact ⟨session, ran,
    arenaLaw onePageArena_created (by decide) (by decide) _
      bounded ran⟩

end FailurePlayground.Arena
