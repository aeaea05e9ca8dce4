import FailurePlayground.ArenaLaw

namespace FailurePlayground.Arena

/-!
# Containment under corruption

The client may overwrite anything inside the region, headers included.  The
walk of `chaosArenaCheck` and the poisoning of `chaosArenaFree` then follow
whatever sizes the region holds.  This module states when both still stay
inside `[base, base + total)`: containment is a property of the stored sizes,
and neither function checks them.
-/

/-- `chaosArenaCheck` terminates and reads only bytes of the region. -/
def CheckContained (arena : ChaosArena) (contents : Nat → UInt8) : Prop :=
  ∃ result after,
    chaosArenaCheck arena (Memory.ofBytes contents) =
        some (result, after) ∧
      ∀ address ∈ after.reads, arena.Inside address

/-- `chaosArenaFree` on one pointer touches only bytes of the region. -/
def FreeContained
    (arena : ChaosArena)
    (user : Nat)
    (contents : Nat → UInt8) : Prop :=
  (∀ address ∈
      (chaosArenaFree arena user (Memory.ofBytes contents)).2.reads,
    arena.Inside address) ∧
  ∀ address ∈
      (chaosArenaFree arena user (Memory.ofBytes contents)).2.writes,
    arena.Inside address

/-- The check and every free of a returned pointer stay inside the region. -/
def Contained (session : Session) (contents : Nat → UInt8) : Prop :=
  CheckContained session.arena contents ∧
    ∀ block ∈ session.returned,
      FreeContained session.arena block.user contents

/-- The word stored at an address of the given contents. -/
def wordAt (contents : Nat → UInt8) (address : Nat) : Nat :=
  (Memory.ofBytes contents).word32 address

/-- The magic word at a header is one the check accepts. -/
def KnownMagic (contents : Nat → UInt8) (header : Nat) : Prop :=
  wordAt contents header = arenaMagicLive ∨
    wordAt contents header = arenaMagicFree

/--
A redzone scan starting at `start` meets a damaged byte, or its sixteenth
byte, before it leaves the region.
-/
def ScanFits
    (arena : ChaosArena)
    (contents : Nat → UInt8)
    (count start : Nat) : Prop :=
  ∀ index, index < count →
    (∀ earlier, earlier < index →
      contents (start + earlier) = redzoneByte) →
    start + index < arena.base + arena.total

/-- The offset to which the stored size at `off` leads. -/
def nextOffset
    (arena : ChaosArena)
    (contents : Nat → UInt8)
    (off : Nat) : Nat :=
  off + 40 + round8 (wordAt contents (arena.base + off + 4))

/-- Offsets to which following stored sizes leads below `used`. -/
inductive HeaderReached
    (arena : ChaosArena)
    (contents : Nat → UInt8) :
    Nat → Nat → Prop where
  | here (off : Nat) :
      HeaderReached arena contents off off
  | later
      {start off : Nat}
      (below : start < arena.used)
      (known : KnownMagic contents (arena.base + start))
      (rest :
        HeaderReached arena contents
          (nextOffset arena contents start) off) :
      HeaderReached arena contents start off

/-- Both redzones located by the stored size at `off` can be scanned. -/
def RedzonesFit
    (arena : ChaosArena)
    (contents : Nat → UInt8)
    (off : Nat) : Prop :=
  ScanFits arena contents 16 (arena.base + off + 8) ∧
    ScanFits arena contents 16
      (arena.base + off + 24 +
        round8 (wordAt contents (arena.base + off + 4)))

/-- Every header reached from `start` has redzones inside the region. -/
def WalkFits
    (arena : ChaosArena)
    (contents : Nat → UInt8)
    (start : Nat) : Prop :=
  ∀ off,
    HeaderReached arena contents start off →
    off < arena.used →
    KnownMagic contents (arena.base + off) →
    RedzonesFit arena contents off

/--
The header behind a user pointer starts past the region, or is inside it and,
when live, stores a size that ends inside the region.
-/
def PoisonFits
    (arena : ChaosArena)
    (user : Nat)
    (contents : Nat → UInt8) : Prop :=
  arena.base + arena.total ≤ user - 24 ∨
    user - 20 ≤ arena.base + arena.total ∧
      (wordAt contents (user - 24) = arenaMagicLive →
        user - 16 ≤ arena.base + arena.total ∧
          (wordAt contents (user - 20) = 0 ∨
            user + wordAt contents (user - 20) ≤
              arena.base + arena.total))

/-- The stored sizes keep the walk and the poisoning inside the region. -/
def StoredSizesFit (session : Session) (contents : Nat → UInt8) : Prop :=
  (session.arena.redzones = true →
      WalkFits session.arena contents 0) ∧
    ∀ block ∈ session.returned,
      PoisonFits session.arena block.user contents

/-- A window that starts inside lies inside exactly when it ends there. -/
theorem inside_window_iff
    {arena : ChaosArena}
    {start count : Nat}
    (lower : arena.base ≤ start) :
    (∀ index, index < count → arena.Inside (start + index)) ↔
      count = 0 ∨ start + count ≤ arena.base + arena.total := by
  constructor
  · intro inside
    by_cases empty : count = 0
    · exact Or.inl empty
    · have last := (inside (count - 1) (by omega)).2
      exact Or.inr (by omega)
  · intro fits index bound
    exact ⟨by omega, by omega⟩

/-- The bytes a scan reads lie inside exactly when the scan fits. -/
theorem redzoneCorrupted_reads
    (arena : ChaosArena)
    (remaining start : Nat)
    (memory : Memory)
    (lower : arena.base ≤ start) :
    (redzoneCorrupted remaining start memory).2.byte = memory.byte ∧
      ((∀ address ∈ (redzoneCorrupted remaining start memory).2.reads,
          arena.Inside address) ↔
        (∀ address ∈ memory.reads, arena.Inside address) ∧
          ScanFits arena memory.byte remaining start) := by
  induction remaining generalizing start memory with
  | zero =>
      refine ⟨rfl, ?_⟩
      simp [redzoneCorrupted, ScanFits]
  | succ remaining inductionHypothesis =>
      have firstRead :
          (∀ address ∈ (memory.noteReads start 1).reads,
              arena.Inside address) ↔
            (∀ address ∈ memory.reads, arena.Inside address) ∧
              start < arena.base + arena.total := by
        rw [Memory.forall_reads_noteReads, inside_window_iff lower]
        exact and_congr_right fun _ => by omega
      rw [redzoneCorrupted_succ]
      by_cases intactHere : memory.byte start = redzoneByte
      · have lowerNext : arena.base ≤ start + 1 :=
          Nat.le_succ_of_le lower
        rw [if_pos intactHere]
        obtain ⟨sameBytes, readsIff⟩ :=
          inductionHypothesis (start + 1)
            (memory.noteReads start 1) lowerNext
        refine ⟨sameBytes, ?_⟩
        rw [readsIff, firstRead, and_assoc]
        refine and_congr_right fun _ => ?_
        constructor
        · rintro ⟨inside, fits⟩ index bound intact
          cases index with
          | zero =>
              exact inside
          | succ index =>
              have tail :=
                fits index (by omega) fun earlier before => by
                  have shifted := intact (earlier + 1) (by omega)
                  rw [Memory.byte_noteReads, Nat.add_assoc,
                    Nat.add_comm 1]
                  exact shifted
              omega
        · intro fits
          refine ⟨fits 0 (by omega) fun earlier absurd => by omega, ?_⟩
          intro index bound intact
          have tail :=
            fits (index + 1) (by omega) fun earlier before => by
              cases earlier with
              | zero =>
                  exact intactHere
              | succ earlier =>
                  have shifted := intact earlier (by omega)
                  rw [Memory.byte_noteReads, Nat.add_assoc,
                    Nat.add_comm 1] at shifted
                  exact shifted
          omega
      · rw [if_neg intactHere]
        refine ⟨rfl, firstRead.trans (and_congr_right fun _ => ?_)⟩
        constructor
        · intro inside index _ intact
          cases index with
          | zero =>
              exact inside
          | succ index =>
              exact (intactHere
                (intact 0 (Nat.zero_lt_succ index))).elim
        · intro fits
          exact fits 0 (Nat.zero_lt_succ remaining)
            fun earlier absurd => by omega

section Check

variable {arena : ChaosArena}

/-- Both header loads of a walk step stay inside the region. -/
theorem headerLoads_inside
    {off : Nat}
    {memory : Memory}
    (below : off < arena.used)
    (aligned : off % 8 = 0) :
    (∀ address ∈ (headerLoads memory (arena.base + off)).reads,
        arena.Inside address) ↔
      ∀ address ∈ memory.reads, arena.Inside address := by
  have usedAligned := arena.usedAligned
  have usedFits := arena.usedFits
  unfold headerLoads
  rw [Memory.forall_reads_noteReads, Memory.forall_reads_noteReads]
  constructor
  · rintro ⟨⟨earlier, _⟩, _⟩
    exact earlier
  · intro earlier
    refine ⟨⟨earlier, fun index bound => ?_⟩, fun index bound => ?_⟩
    · exact ⟨by omega, by omega⟩
    · exact ⟨by omega, by omega⟩

/-- Past `used`, or at an unknown magic word, the walk asks for nothing. -/
theorem walkFits_of_stops
    {contents : Nat → UInt8}
    {start : Nat}
    (stops :
      arena.used ≤ start ∨
        ¬ KnownMagic contents (arena.base + start)) :
    WalkFits arena contents start := by
  intro off reached below known
  cases reached with
  | here =>
      rcases stops with ended | unknown
      · omega
      · exact (unknown known).elim
  | later startBelow startKnown rest =>
      rcases stops with ended | unknown
      · omega
      · exact (unknown startKnown).elim

/-- At a known header the walk asks for its redzones and for the rest. -/
theorem walkFits_iff_of_known
    {contents : Nat → UInt8}
    {start : Nat}
    (below : start < arena.used)
    (known : KnownMagic contents (arena.base + start)) :
    WalkFits arena contents start ↔
      RedzonesFit arena contents start ∧
        WalkFits arena contents (nextOffset arena contents start) := by
  constructor
  · intro fits
    refine ⟨fits start (.here start) below known, ?_⟩
    intro off reached
    exact fits off (.later below known reached)
  · rintro ⟨fitsHere, fitsRest⟩ off reached
    cases reached with
    | here =>
        exact fun _ _ => fitsHere
    | later _ _ rest =>
        exact fitsRest off rest

/--
The walk terminates on every contents, and the bytes it reads lie inside
exactly when the stored sizes it meets fit.
-/
theorem checkFrom_reads
    {fuel off : Nat}
    {corrupted : Int}
    {memory : Memory}
    (aligned : off % 8 = 0)
    (enough : arena.used ≤ off + 40 * fuel) :
    ∃ result after,
      checkFrom arena (fuel + 1) off corrupted memory =
          some (result, after) ∧
        ((∀ address ∈ after.reads, arena.Inside address) ↔
          (∀ address ∈ memory.reads, arena.Inside address) ∧
            WalkFits arena memory.byte off) := by
  induction fuel generalizing off corrupted memory with
  | zero =>
      have ended : arena.used ≤ off := by omega
      refine ⟨corrupted, memory, checkFrom_done ended, ?_⟩
      exact (and_iff_left (walkFits_of_stops (Or.inl ended))).symm
  | succ fuel inductionHypothesis =>
      by_cases ended : arena.used ≤ off
      · refine ⟨corrupted, memory, checkFrom_done ended, ?_⟩
        exact (and_iff_left (walkFits_of_stops (Or.inl ended))).symm
      · have below : off < arena.used := Nat.lt_of_not_le ended
        have usedAligned := arena.usedAligned
        have usedFits := arena.usedFits
        by_cases known : KnownMagic memory.byte (arena.base + off)
        · have knownWord :
              memory.word32 (arena.base + off) = arenaMagicLive ∨
                memory.word32 (arena.base + off) = arenaMagicFree :=
            known
          rw [checkFrom_block below knownWord]
          have rounded :=
            round8_mod (wordAt memory.byte (arena.base + off + 4))
          have nextAligned :
              nextOffset arena memory.byte off % 8 = 0 := by
            unfold nextOffset
            omega
          have nextEnough :
              arena.used ≤
                nextOffset arena memory.byte off + 40 * fuel := by
            unfold nextOffset
            omega
          obtain ⟨preBytes, preReads⟩ :=
            redzoneCorrupted_reads arena 16 (arena.base + off + 8)
              (headerLoads memory (arena.base + off)) (by omega)
          obtain ⟨postBytes, postReads⟩ :=
            redzoneCorrupted_reads arena 16
              (arena.base + off + 24 +
                round8 (memory.word32 (arena.base + off + 4)))
              (redzoneCorrupted 16 (arena.base + off + 8)
                (headerLoads memory (arena.base + off))).2 (by omega)
          have headerBytes :
              (headerLoads memory (arena.base + off)).byte =
                memory.byte := rfl
          obtain ⟨result, after, ran, readsIff⟩ :=
            inductionHypothesis nextAligned nextEnough
          refine ⟨result, after, ran, ?_⟩
          rw [readsIff, postReads, preReads,
            headerLoads_inside below aligned, postBytes, preBytes,
            headerBytes, walkFits_iff_of_known below known,
            and_assoc, and_assoc]
          refine and_congr_right fun _ => ?_
          rw [← and_assoc]
          exact Iff.rfl
        · have notLive :
              memory.word32 (arena.base + off) ≠ arenaMagicLive :=
            fun live => known (Or.inl live)
          have notFree :
              memory.word32 (arena.base + off) ≠ arenaMagicFree :=
            fun free => known (Or.inr free)
          refine ⟨-1, _, checkFrom_wrecked below notLive notFree, ?_⟩
          rw [Memory.forall_reads_noteReads]
          refine and_congr_right fun _ => ?_
          constructor
          · intro _
            exact walkFits_of_stops (Or.inr known)
          · intro _ index bound
            exact ⟨by omega, by omega⟩

/-- The check stays inside exactly when its walk fits. -/
theorem checkContained_iff (contents : Nat → UInt8) :
    CheckContained arena contents ↔
      (arena.redzones = true → WalkFits arena contents 0) := by
  unfold CheckContained chaosArenaCheck
  cases arena.redzones with
  | false =>
      simp [Memory.ofBytes]
  | true =>
      have enough : arena.used ≤ 0 + 40 * arena.used := by omega
      obtain ⟨result, after, ran, readsIff⟩ :=
        checkFrom_reads rfl enough
      have fresh :
          ∀ address ∈ (Memory.ofBytes contents).reads,
            arena.Inside address :=
        fun _ member => (List.not_mem_nil member).elim
      simp only [↓reduceIte, true_implies]
      constructor
      · rintro ⟨_, _, same, inside⟩
        rw [ran, Option.some.injEq, Prod.mk.injEq] at same
        rw [← same.2] at inside
        exact (readsIff.mp inside).2
      · intro fits
        exact ⟨result, after, ran, readsIff.mpr ⟨fresh, fits⟩⟩

end Check

section Free

variable {arena : ChaosArena}

/-- Nothing has been read before the first access. -/
theorem reads_ofBytes_inside (contents : Nat → UInt8) :
    ∀ address ∈ (Memory.ofBytes contents).reads, arena.Inside address :=
  fun _ member => (List.not_mem_nil member).elim

/-- The magic word is all that a refused free reads. -/
theorem magicLoad_inside_iff
    {user : Nat}
    (above : arena.base + 24 ≤ user)
    (contents : Nat → UInt8) :
    (∀ address ∈
        ((Memory.ofBytes contents).noteReads (user - 24) 4).reads,
      arena.Inside address) ↔
      user - 20 ≤ arena.base + arena.total := by
  rw [Memory.forall_reads_noteReads, inside_window_iff (by omega),
    and_iff_right (reads_ofBytes_inside contents)]
  omega

/-- A free that poisons touches the header and the block it stores. -/
theorem freeMemory_inside_iff
    {block : Returned}
    (above : arena.base + 24 ≤ block.user)
    (contents : Nat → UInt8) :
    ((∀ address ∈ (freeMemory block (Memory.ofBytes contents)).reads,
        arena.Inside address) ∧
      ∀ address ∈ (freeMemory block (Memory.ofBytes contents)).writes,
        arena.Inside address) ↔
      block.user - 16 ≤ arena.base + arena.total ∧
        (block.size = 0 ∨
          block.user + block.size ≤ arena.base + arena.total) := by
  have fresh :
      ∀ address ∈ (Memory.ofBytes contents).writes,
        arena.Inside address :=
    fun _ member => (List.not_mem_nil member).elim
  unfold freeMemory Memory.fill
  rw [Memory.reads_writeRange, Memory.forall_reads_noteReads,
    inside_window_iff (by omega), Memory.forall_writes_writeRange,
    inside_window_iff (by omega), Memory.writes_noteReads,
    Memory.store32, Memory.reads_writeRange,
    magicLoad_inside_iff above, Memory.forall_writes_writeRange,
    inside_window_iff (by omega), Memory.writes_noteReads,
    and_iff_right fresh]
  omega

/--
A free of a pointer built by `chaosArenaAlloc` stays inside exactly when its
stored size does.
-/
theorem freeContained_iff
    {user off : Nat}
    (address : user = arena.base + off + 24)
    (within : off ≤ arena.total)
    (contents : Nat → UInt8) :
    FreeContained arena user contents ↔
      PoisonFits arena user contents := by
  have base := arena.basePositive
  have space := arena.inUserSpace
  have nonNull : user ≠ 0 := by omega
  have above : arena.base + 24 ≤ user := by omega
  have header : headerOf user = user - 24 := by
    unfold headerOf sizeT redzoneSize blockHdrSize
    omega
  unfold FreeContained PoisonFits
  by_cases outside : arena.base + arena.total ≤ user - 24
  · have refused :
        chaosArenaFree arena user (Memory.ofBytes contents) =
          (-1, Memory.ofBytes contents) := by
      simp [chaosArenaFree, nonNull, header, outside]
    rw [refused]
    exact iff_of_true
      ⟨reads_ofBytes_inside contents,
        fun _ member => (List.not_mem_nil member).elim⟩
      (Or.inl outside)
  · rw [or_iff_right outside]
    by_cases live :
        wordAt contents (user - 24) = arenaMagicLive
    · obtain ⟨block, rfl, stored⟩ :
          ∃ block : Returned,
            block.user = user ∧
              wordAt contents (user - 20) = block.size :=
        ⟨⟨user, wordAt contents (user - 20), false⟩, rfl, rfl⟩
      rw [free_of_header header above (Nat.lt_of_not_le outside) live
        stored, freeMemory_inside_iff above contents, stored]
      constructor
      · rintro ⟨headerFits, sizeFits⟩
        exact ⟨by omega, fun _ => ⟨headerFits, sizeFits⟩⟩
      · rintro ⟨_, ifLive⟩
        exact ifLive live
    · have inRegion :
          ¬ (user - 24 < arena.base ∨
            arena.base + arena.total ≤ user - 24) := by
        omega
      have notLive :
          (Memory.ofBytes contents).word32 (user - 24) ≠
            arenaMagicLive := live
      have refused :
          chaosArenaFree arena user (Memory.ofBytes contents) =
            (-1, (Memory.ofBytes contents).noteReads
              (user - 24) 4) := by
        simp only [chaosArenaFree, nonNull, ↓reduceIte, header,
          inRegion, Memory.load32_fst, Memory.load32_snd, notLive,
          ne_eq, not_false_eq_true, ite_self]
      rw [refused, magicLoad_inside_iff above]
      constructor
      · rintro ⟨magicFits, _⟩
        exact ⟨magicFits, fun isLive => (live isLive).elim⟩
      · rintro ⟨magicFits, _⟩
        exact ⟨magicFits, fun _ member => (List.not_mem_nil member).elim⟩

end Free

namespace Session

/-- Every returned pointer was computed from an offset inside the region. -/
def PointersBuilt (session : Session) : Prop :=
  ∀ block ∈ session.returned, ∃ off,
    off ≤ session.arena.total ∧
      block.user = session.arena.base + off + 24

/-- Allocation of any size returns a pointer built from `used`. -/
theorem alloc_built
    (arena : ChaosArena)
    (n : UInt64)
    (memory : Memory) :
    (chaosArenaAlloc arena n memory).arena.base = arena.base ∧
      (chaosArenaAlloc arena n memory).arena.total = arena.total ∧
      ∀ user, (chaosArenaAlloc arena n memory).user = some user →
        user = arena.base + arena.used + 24 := by
  unfold chaosArenaAlloc
  by_cases fits :
      sizeT (arena.used + blockTotal n.toNat) ≤ arena.total
  · simp [fits, blockHdrSize, redzoneSize, Nat.add_assoc]
  · simp [fits]

/-- Every client action keeps the returned pointers built from offsets. -/
theorem PointersBuilt.step
    {session next : Session}
    {op : ArenaOp}
    (built : session.PointersBuilt)
    (stepped : session.step? op = some next) :
    next.PointersBuilt := by
  cases op with
  | alloc n =>
      simp only [step?, Option.some.injEq] at stepped
      subst stepped
      obtain ⟨sameBase, sameTotal, user⟩ :=
        alloc_built session.arena n session.memory
      intro block member
      simp only [sameBase, sameTotal]
      cases outcome :
          (chaosArenaAlloc session.arena n session.memory).user with
      | none =>
          simp only [outcome] at member
          exact built block member
      | some pointer =>
          simp only [outcome, List.mem_append,
            List.mem_singleton] at member
          rcases member with old | new
          · exact built block old
          · subst new
            exact ⟨session.arena.used, session.arena.usedFits,
              user pointer outcome⟩
  | free index =>
      simp only [step?, Option.map_eq_some_iff] at stepped
      obtain ⟨freed, found, rfl⟩ := stepped
      intro block member
      rcases List.mem_or_eq_of_mem_set member with old | new
      · exact built block old
      · subst new
        exact built freed (List.mem_of_getElem? found)
  | write index offset value =>
      simp only [step?, Option.bind_eq_some_iff] at stepped
      obtain ⟨written, _, guarded⟩ := stepped
      by_cases inside : offset < written.size
      · simp only [inside, ↓reduceIte, Option.some.injEq] at guarded
        subst guarded
        exact built
      · simp [inside] at guarded

end Session

/--
After any client run, whatever bytes the region then holds: the check and the
frees stay inside the region exactly when the stored sizes fit.
-/
theorem contained_iff_storedSizesFit
    {arena : ChaosArena}
    {memory : Memory}
    {ops : List ArenaOp}
    {session : Session}
    (ran : (Session.start arena memory).run? ops = some session)
    (contents : Nat → UInt8) :
    Contained session contents ↔ StoredSizesFit session contents := by
  have built : session.PointersBuilt :=
    Transition.run?_invariant
      (fun holds stepped => holds.step stepped) ran
      (fun _ member => (List.not_mem_nil member).elim)
  unfold Contained StoredSizesFit
  rw [checkContained_iff]
  refine and_congr_right fun _ => ?_
  refine forall_congr' fun block => forall_congr' fun member => ?_
  obtain ⟨off, within, address⟩ := built block member
  exact freeContained_iff address within contents

/-- One live header at the start of the page, storing a size of 16. -/
def resizedHeader : Nat → UInt8 :=
  (((Memory.ofBytes fun _ => 0).store32 65536 arenaMagicLive).store32
    65540 16).byte

/-- A client that stores a size of 16 for its block of 8 is still contained. -/
theorem contained_iff_storedSizesFit_resized :
    ∃ session,
      (Session.start onePageArena (Memory.ofBytes fun _ => 0)).run?
          [.alloc 8] = some session ∧
        Contained session resizedHeader := by
  obtain ⟨session, ran, shape⟩ :
      ∃ session,
        (Session.start onePageArena (Memory.ofBytes fun _ => 0)).run?
            [.alloc 8] = some session ∧
          session.arena.base = 65536 ∧ session.arena.total = 4096 ∧
          session.arena.used = 48 ∧
          session.returned = [⟨65560, 8, false⟩] :=
    ⟨_, rfl, by decide⟩
  obtain ⟨base, total, used, returned⟩ := shape
  refine ⟨session, ran, (contained_iff_storedSizesFit ran resizedHeader).mpr
    ⟨fun _ off reached below known => ?_, fun block member => ?_⟩⟩
  · have size : wordAt resizedHeader (65536 + 0 + 4) = 16 := by
      decide
    have past : ∀ {start},
        HeaderReached session.arena resizedHeader start off →
          start < 48 := by
      intro start reached
      cases reached with
      | here =>
          exact used ▸ below
      | later under =>
          exact used ▸ under
    have first : off = 0 := by
      cases reached with
      | here =>
          rfl
      | later _ _ rest =>
          have tooFar := past rest
          rw [nextOffset, base, size] at tooFar
          exact absurd tooFar (by decide)
    subst first
    rw [RedzonesFit, base, size]
    constructor
    · intro index bound _
      rw [base, total]
      omega
    · intro index bound _
      rw [base, total, show round8 16 = 16 from rfl]
      omega
  · rw [returned, List.mem_singleton] at member
    subst member
    unfold PoisonFits
    rw [base, total]
    decide

/-- One live header at the start of the page, storing a size of 4096. -/
def oversizedHeader : Nat → UInt8 :=
  (((Memory.ofBytes fun _ => 0).store32 65536 arenaMagicLive).store32
    65540 4096).byte

/--
With a live header that stores a size of 4096, the check reads past the page
and the free of the returned pointer writes past it.
-/
theorem contained_fails_oversizedHeader :
    ∃ session,
      (Session.start onePageArena (Memory.ofBytes fun _ => 0)).run?
          [.alloc 8] = some session ∧
        ¬ CheckContained session.arena oversizedHeader ∧
        ∃ block ∈ session.returned,
          ¬ FreeContained session.arena block.user oversizedHeader := by
  refine ⟨_, rfl, ?_, ?_⟩
  · rw [checkContained_iff]
    intro fits
    have atZero := fits rfl 0 (.here 0) (by decide) (Or.inl (by decide))
    exact absurd (atZero.2 0 (by decide) fun _ absurd => by omega)
      (by decide)
  · refine ⟨⟨65560, 8, false⟩, by decide, fun contained => ?_⟩
    have address :
        65560 =
          (chaosArenaAlloc onePageArena 8
            (Memory.ofBytes fun _ => 0)).arena.base + 0 + 24 := by
      decide
    have fits :=
      (freeContained_iff address (Nat.zero_le _) oversizedHeader).mp
        contained
    exact absurd fits (by unfold PoisonFits; decide)

end FailurePlayground.Arena
