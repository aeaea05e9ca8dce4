import FailurePlayground.ArenaFree

namespace FailurePlayground.Arena

/-!
# What the redzone scan counts

`chaosArenaCheck` finds the redzones by following stored sizes from offset 0.
As long as the blocks lie where those sizes say, the walk meets every redzone
of every block once, whatever else has become of the region.
-/

/-- The redzone in front of the user data of a block. -/
def Returned.pre (block : Returned) : Nat :=
  block.user - redzoneSize

/-- The redzone behind the user data, where `chaosArenaAlloc` lays it. -/
def Returned.post (block : Returned) : Nat :=
  sizeT (block.user + round8 block.size)

/-- A redzone holds a byte other than `redzoneByte`. -/
def Damaged (contents : Nat → UInt8) (start : Nat) : Prop :=
  ∃ index, index < redzoneSize ∧ contents (start + index) ≠ redzoneByte

instance (contents : Nat → UInt8) (start : Nat) :
    Decidable (Damaged contents start) :=
  inferInstanceAs (Decidable (∃ index, index < redzoneSize ∧ _))

/-- How many of the two redzones of a block are damaged. -/
def damagedIn (contents : Nat → UInt8) (block : Returned) : Nat :=
  (if Damaged contents block.pre then 1 else 0) +
    (if Damaged contents block.post then 1 else 0)

/-- How many redzones of the given blocks are damaged. -/
def damagedRedzones
    (contents : Nat → UInt8)
    (blocks : List Returned) : Nat :=
  (blocks.map (damagedIn contents)).sum

/-- Every block of a session still has one of the two magic words. -/
def MagicsKnown (session : Session) (contents : Nat → UInt8) : Prop :=
  ∀ block ∈ session.returned, KnownMagic contents (block.user - 24)

/-- New contents of the region leave every stored size as it was. -/
def SizesKept (session : Session) (contents : Nat → UInt8) : Prop :=
  ∀ block ∈ session.returned,
    wordAt contents (block.user - 20) =
      session.memory.word32 (block.user - 20)

instance (contents : Nat → UInt8) (header : Nat) :
    Decidable (KnownMagic contents header) :=
  inferInstanceAs (Decidable (_ ∨ _))

instance (session : Session) (contents : Nat → UInt8) :
    Decidable (MagicsKnown session contents) :=
  inferInstanceAs (Decidable (∀ block ∈ session.returned, _))

instance (session : Session) (contents : Nat → UInt8) :
    Decidable (SizesKept session contents) :=
  inferInstanceAs (Decidable (∀ block ∈ session.returned, _))

/-- The answer of `chaosArenaCheck` on given contents of the region. -/
def checkAnswer (arena : ChaosArena) (contents : Nat → UInt8) : Option Int :=
  (chaosArenaCheck arena (Memory.ofBytes contents)).map Prod.fst

/-- What the scan must answer on contents that keep the stored sizes. -/
structure ScanSpec (session : Session) (contents : Nat → UInt8) : Prop where
  counts :
    MagicsKnown session contents →
      checkAnswer session.arena contents =
        some (damagedRedzones contents session.returned : Int)
  wrecked :
    ¬ MagicsKnown session contents →
      checkAnswer session.arena contents = some (-1)

namespace Session

variable
  {session next : Session}
  {op : ClientOp}

/-- The pointer of one block marks that block alone. -/
theorem Valid.markFreed_live
    {index : Nat}
    {block : Returned}
    (valid : session.Valid)
    (found : session.returned[index]? = some block) :
    markFreed block.user session.returned =
      session.returned.set index { block with freed := true } := by
  have disjoint := valid.disjoint
  rw [List.pairwise_iff_getElem] at disjoint
  obtain ⟨inRange, entry⟩ := List.getElem?_eq_some_iff.mp found
  apply List.ext_getElem
  · simp [markFreed]
  · intro position lower upper
    have bound : position < session.returned.length := by
      simpa [markFreed] using lower
    simp only [markFreed, List.getElem_map, List.getElem_set]
    rcases Nat.lt_trichotomy position index with before | same | after
    · have apart := disjoint position index bound inRange before
      have stop := user_lt_stop session.returned[position]
      rw [entry] at apart
      have other : session.returned[position].user ≠ block.user := by
        omega
      rw [if_neg other, if_neg (by omega)]
    · subst same
      rw [if_pos (congrArg Returned.user entry), if_pos rfl, entry]
    · have apart := disjoint index position inRange bound after
      have stop := user_lt_stop block
      rw [entry] at apart
      have other : session.returned[position].user ≠ block.user := by
        omega
      rw [if_neg other, if_neg (by omega)]

/-- A free of any pointer without a forged header keeps the invariant. -/
theorem Valid.freeAny
    {p : UInt64}
    (valid : session.Valid)
    (unforged : session.Unforged p.toNat)
    (stepped : session.clientStep? (.free p) = some next) :
    next.Valid := by
  simp only [clientStep?, Option.some.injEq] at stepped
  by_cases live : session.IsLive p.toNat
  · obtain ⟨block, member, user, _⟩ := live
    obtain ⟨index, found⟩ := List.mem_iff_getElem?.mp member
    rw [← user, valid.markFreed_live found] at stepped
    have byIndex : session.step? (.free index) = some next := by
      rw [step?, found, ← stepped]
      rfl
    exact valid.free byIndex
  · obtain ⟨_, sameBytes⟩ :=
      free_refuses fun found => live (unforged found)
    rw [markFreed_dead live] at stepped
    subst stepped
    exact ⟨valid.redzones, valid.small, valid.laid.of_sameBytes sameBytes⟩

/-- In a small arena a request whose sums fit is granted below `2 ^ 32` only. -/
theorem Valid.allocAny
    {n : UInt64}
    (valid : session.Valid)
    (sums : SumsFit session.arena n.toNat)
    (stepped : session.clientStep? (.alloc n) = some next) :
    next.Valid := by
  by_cases bounded : n.toNat < 2 ^ 32
  · exact valid.alloc bounded stepped
  · have exceeds := sums.1.resolve_left bounded
    have failed :
        (chaosArenaAlloc session.arena n session.memory).user = none := by
      have small := valid.small
      have size := n.toNat_lt
      have usedFits := session.arena.usedFits
      have wraps := sums.2
      rw [alloc_user_eq_none]
      unfold ChaosArena.usedAfter blockBytes at exceeds wraps ⊢
      omega
    obtain ⟨sameArena, sameMemory⟩ := alloc_none failed
    simp only [clientStep?, step?, failed, sameArena, sameMemory,
      Option.some.injEq] at stepped
    subst stepped
    exact ⟨valid.redzones, valid.small, valid.laid⟩

/-- A careful client keeps the representation invariant. -/
theorem Valid.clientStep
    (valid : session.Valid)
    (careful : session.Careful op)
    (stepped : session.clientStep? op = some next) :
    next.Valid := by
  cases op with
  | alloc n =>
      exact valid.allocAny careful stepped
  | free p =>
      exact valid.freeAny careful stepped
  | write index offset value =>
      exact valid.write stepped

end Session

/-- A redzone scan hits exactly when the bytes it covers are damaged. -/
theorem redzoneCorrupted_hit
    (remaining address : Nat)
    (memory : Memory) :
    ((redzoneCorrupted remaining address memory).1 = true ↔
        ∃ index, index < remaining ∧
          memory.byte (address + index) ≠ redzoneByte) ∧
      (redzoneCorrupted remaining address memory).2.byte =
        memory.byte := by
  induction remaining generalizing address memory with
  | zero =>
      simp [redzoneCorrupted]
  | succ remaining inductionHypothesis =>
      rw [redzoneCorrupted_succ]
      by_cases intact : memory.byte address = redzoneByte
      · obtain ⟨hitIff, sameBytes⟩ :=
          inductionHypothesis (address + 1) (memory.noteReads address 1)
        rw [if_pos intact]
        refine ⟨hitIff.trans ?_, sameBytes⟩
        constructor
        · rintro ⟨index, bound, hit⟩
          rw [Memory.byte_noteReads, Nat.add_right_comm] at hit
          exact ⟨index + 1, Nat.succ_lt_succ bound, hit⟩
        · rintro ⟨index, bound, hit⟩
          cases index with
          | zero =>
              exact (hit intact).elim
          | succ index =>
              refine ⟨index, Nat.lt_of_succ_lt_succ bound, ?_⟩
              rw [Memory.byte_noteReads, Nat.add_right_comm]
              exact hit
      · rw [if_neg intact]
        refine ⟨?_, rfl⟩
        have hit : memory.byte (address + 0) ≠ redzoneByte := intact
        exact iff_of_true rfl ⟨0, Nat.zero_lt_succ remaining, hit⟩

/-- What one redzone adds to the count. -/
theorem redzoneCorrupted_count
    (address : Nat)
    (memory : Memory) :
    (if (redzoneCorrupted 16 address memory).1 = true
        then (1 : Int) else 0) =
      ((if Damaged memory.byte address then 1 else 0 : Nat) : Int) := by
  have hitIff :
      (redzoneCorrupted 16 address memory).1 = true ↔
        Damaged memory.byte address :=
    (redzoneCorrupted_hit 16 address memory).1
  simp only [hitIff, Nat.cast_ite, Nat.cast_one, Nat.cast_zero]

/-- Blocks that lie back to back with their sizes stored. -/
inductive Sized (base : Nat) (contents : Nat → UInt8) :
    Nat → List Returned → Nat → Prop where
  | nil (off : Nat) :
      Sized base contents off [] off
  | cons
      {off stop : Nat}
      {block : Returned}
      {rest : List Returned}
      (userAddress : block.user = base + off + 24)
      (sizeBounded : block.size < 2 ^ 32)
      (storedSize : wordAt contents (base + off + 4) = block.size)
      (later :
        Sized base contents (off + blockBytes block.size) rest stop) :
      Sized base contents off (block :: rest) stop

/-- Contents that keep the stored sizes of a layout are sized like it. -/
theorem Laid.sized
    {base off stop : Nat}
    {memory : Memory}
    {contents : Nat → UInt8}
    {blocks : List Returned}
    (laid : Laid base memory off blocks stop)
    (kept :
      ∀ block ∈ blocks,
        wordAt contents (block.user - 20) =
          memory.word32 (block.user - 20)) :
    Sized base contents off blocks stop := by
  induction laid with
  | nil off =>
      exact .nil off
  | @cons off stop block rest here later inductionHypothesis =>
      have header : block.user - 20 = base + off + 4 := by
        have address := here.userAddress
        omega
      have same := kept block List.mem_cons_self
      rw [header, here.storedSize] at same
      exact .cons here.userAddress here.sizeBounded same
        (inductionHypothesis fun other member =>
          kept other (List.mem_cons_of_mem block member))

/-- Sized blocks up to a block split in two sized runs. -/
theorem Sized.split
    {base off stop : Nat}
    {contents : Nat → UInt8}
    {first second : List Returned}
    (sized : Sized base contents off (first ++ second) stop) :
    ∃ middle,
      Sized base contents off first middle ∧
        Sized base contents middle second stop := by
  induction first generalizing off with
  | nil =>
      exact ⟨off, .nil off, sized⟩
  | cons block rest inductionHypothesis =>
      cases sized with
      | cons userAddress sizeBounded storedSize later =>
          obtain ⟨middle, sizedRest, sizedSecond⟩ :=
            inductionHypothesis later
          exact ⟨middle,
            .cons userAddress sizeBounded storedSize sizedRest,
            sizedSecond⟩

/-- Sized blocks take at least forty bytes each. -/
theorem Sized.length_le
    {base off stop : Nat}
    {contents : Nat → UInt8}
    {blocks : List Returned}
    (sized : Sized base contents off blocks stop) :
    off + 40 * blocks.length ≤ stop := by
  induction sized with
  | nil off =>
      simp
  | cons _ _ _ _ inductionHypothesis =>
      simp only [blockBytes, List.length_cons] at inductionHypothesis ⊢
      omega

section Walk

variable
  {arena : ChaosArena}
  {off stop : Nat}
  {memory : Memory}
  {blocks : List Returned}

/-- The walk passes sized blocks with known magic words, counting as it goes. -/
theorem checkFrom_sized
    (fuel : Nat)
    (corrupted : Int)
    (sized : Sized arena.base memory.byte off blocks stop)
    (within : stop ≤ arena.used)
    (known :
      ∀ block ∈ blocks, KnownMagic memory.byte (block.user - 24)) :
    ∃ after,
      after.byte = memory.byte ∧
        checkFrom arena (fuel + blocks.length) off corrupted memory =
          checkFrom arena fuel stop
            (corrupted + damagedRedzones memory.byte blocks) after := by
  induction blocks generalizing off corrupted memory with
  | nil =>
      cases sized
      exact ⟨memory, rfl, by simp [damagedRedzones]⟩
  | cons block rest inductionHypothesis =>
      cases sized with
      | cons userAddress sizeBounded storedSize later =>
          have length := later.length_le
          have below : off < arena.used := by
            unfold blockBytes at length
            omega
          have space := arena.inUserSpace
          have usedFits := arena.usedFits
          have header : block.user - 24 = arena.base + off := by
            omega
          have knownHere :
              memory.word32 (arena.base + off) = arenaMagicLive ∨
                memory.word32 (arena.base + off) = arenaMagicFree := by
            rw [← header]
            exact known block List.mem_cons_self
          have stored :
              memory.word32 (arena.base + off + 4) = block.size :=
            storedSize
          have rounded : round8 block.size = (block.size + 7) / 8 * 8 :=
            round8_eq (by omega)
          have preAddress : block.pre = arena.base + off + 8 := by
            unfold Returned.pre redzoneSize
            omega
          have postAddress :
              block.post = arena.base + off + 24 + round8 block.size := by
            unfold blockBytes at length
            unfold Returned.post sizeT
            omega
          have advance :
              off + 40 + round8 block.size =
                off + blockBytes block.size := by
            unfold blockBytes
            omega
          have preBytes :=
            (redzoneCorrupted_hit 16 (arena.base + off + 8)
              (headerLoads memory (arena.base + off))).2
          have postBytes :=
            (redzoneCorrupted_hit 16
              (arena.base + off + 24 + round8 block.size)
              (redzoneCorrupted 16 (arena.base + off + 8)
                (headerLoads memory (arena.base + off))).2).2
          have headerBytes :
              (headerLoads memory (arena.base + off)).byte =
                memory.byte := rfl
          have sameBytes := postBytes.trans (preBytes.trans headerBytes)
          rw [List.length_cons, ← Nat.add_assoc,
            checkFrom_block below knownHere]
          simp only [stored, redzoneCorrupted_count, preBytes,
            headerBytes, advance]
          rw [← sameBytes] at later
          obtain ⟨after, afterBytes, ran⟩ :=
            inductionHypothesis _ later fun other member => by
              rw [sameBytes]
              exact known other (List.mem_cons_of_mem block member)
          refine ⟨after, afterBytes.trans sameBytes, ran.trans ?_⟩
          simp only [sameBytes, damagedRedzones, List.map_cons,
            List.sum_cons, damagedIn, preAddress, postAddress]
          push_cast
          simp only [Int.add_assoc]

end Walk

namespace Session

variable {session : Session} {contents : Nat → UInt8}

/-- The first block whose magic word is unknown, behind known ones. -/
theorem exists_first_unknown
    (unknown : ¬ MagicsKnown session contents) :
    ∃ first block rest,
      session.returned = first ++ block :: rest ∧
        (∀ earlier ∈ first, KnownMagic contents (earlier.user - 24)) ∧
        ¬ KnownMagic contents (block.user - 24) := by
  unfold MagicsKnown at unknown
  simp only [not_forall] at unknown
  obtain ⟨wrecked, member, lost⟩ := unknown
  have found :
      (session.returned.find? fun block =>
        ¬ KnownMagic contents (block.user - 24)).isSome = true :=
    List.find?_isSome.mpr ⟨wrecked, member, decide_eq_true lost⟩
  obtain ⟨block, foundBlock⟩ := Option.isSome_iff_exists.mp found
  obtain ⟨isUnknown, first, rest, shape, earlier⟩ :=
    List.find?_eq_some_iff_append.mp foundBlock
  refine ⟨first, block, rest, shape, fun other held => ?_,
    of_decide_eq_true isUnknown⟩
  simpa using earlier other held

/-- In a valid session the scan counts exactly. -/
theorem Valid.scanSpec
    (valid : session.Valid)
    (kept : SizesKept session contents) :
    ScanSpec session contents := by
  have sized :
      Sized session.arena.base (Memory.ofBytes contents).byte 0
        session.returned session.arena.used :=
    valid.laid.sized kept
  have length := sized.length_le
  have started :
      checkAnswer session.arena contents =
        (checkFrom session.arena (session.arena.used + 1) 0 0
          (Memory.ofBytes contents)).map Prod.fst := by
    simp only [checkAnswer, chaosArenaCheck, valid.redzones, ↓reduceIte]
  constructor
  · intro known
    obtain ⟨after, _, ran⟩ :=
      checkFrom_sized
        (session.arena.used - session.returned.length + 1) 0 sized
        (Nat.le_refl _) known
    have fuel :
        session.arena.used - session.returned.length + 1 +
            session.returned.length =
          session.arena.used + 1 := by
      omega
    rw [fuel, checkFrom_done (Nat.le_refl _)] at ran
    rw [started, ran]
    simp
  · intro unknown
    obtain ⟨first, block, rest, shape, known, lost⟩ :=
      exists_first_unknown unknown
    rw [shape] at sized length
    obtain ⟨middle, sizedFirst, sizedRest⟩ := sized.split
    have lengthFirst := sizedFirst.length_le
    have lengthRest := sizedRest.length_le
    simp only [List.length_cons] at lengthRest
    obtain ⟨after, sameBytes, ran⟩ :=
      checkFrom_sized (session.arena.used - first.length + 1) 0
        sizedFirst (by omega) known
    have fuel :
        session.arena.used - first.length + 1 + first.length =
          session.arena.used + 1 := by
      omega
    cases sizedRest with
    | cons userAddress _ _ _ =>
        have header :
            block.user - 24 = session.arena.base + middle := by
          omega
        rw [header] at lost
        have unseen :
            ¬ KnownMagic after.byte (session.arena.base + middle) := by
          rw [sameBytes]
          exact lost
        have notLive :
            after.word32 (session.arena.base + middle) ≠
              arenaMagicLive :=
          fun live => unseen (Or.inl live)
        have notFree :
            after.word32 (session.arena.base + middle) ≠
              arenaMagicFree :=
          fun free => unseen (Or.inr free)
        have below : middle < session.arena.used := by omega
        rw [fuel, checkFrom_wrecked below notLive notFree] at ran
        rw [started, ran]
        rfl

end Session

/--
After a careful client's run the scan counts exactly, whatever else has
become of the region as long as the stored sizes are intact.
-/
theorem redzoneScan_exact
    {bytes : UInt64}
    {flags : UInt32}
    {descriptor : Bool}
    {mapped : Option (Mapping bytes.toNat)}
    {arena : ChaosArena}
    (created :
      chaosArenaCreate bytes flags descriptor mapped = some arena)
    (redzones : flags &&& chaosArenaRedzones ≠ 0)
    (small : bytes.toNat < 2 ^ 32)
    (memory : Memory)
    {ops : List ClientOp}
    {session : Session}
    (ran : (Session.start arena memory).clientRun? ops = some session)
    (careful :
      Transition.EachStep Session.clientStep? Session.Careful
        (Session.start arena memory) ops)
    {contents : Nat → UInt8}
    (kept : SizesKept session contents) :
    ScanSpec session contents := by
  have fresh : (Session.start arena memory).Valid :=
    Session.valid_start created redzones small memory
  have valid : session.Valid :=
    Transition.run?_invariant_of_eachStep Session.Valid.clientStep
      ran careful fresh
  exact valid.scanSpec kept

/-- A freed block and a live one, whose sizes are not multiples of eight. -/
def scannedRun : List ClientOp :=
  [.alloc 13, .alloc 3, .free 65560]

/-- Both redzones of the freed block and one of the live block damaged. -/
def scribble (contents : Nat → UInt8) (address : Nat) : UInt8 :=
  if address = 65545 ∨ address = 65590 ∨ address = 65591 ∨
      address = 65639 then 0 else contents address

theorem redzoneScan_exact_scribbled :
    ∃ session,
      (Session.start onePageArena
          (Memory.ofBytes fun _ => 0)).clientRun? scannedRun =
            some session ∧
        checkAnswer session.arena (scribble session.memory.byte) =
          some 3 := by
  obtain ⟨session, ran⟩ :
      ∃ session,
        (Session.start onePageArena
          (Memory.ofBytes fun _ => 0)).clientRun? scannedRun =
            some session :=
    ⟨_, rfl⟩
  have careful :
      Transition.EachStep Session.clientStep? Session.Careful
        (Session.start onePageArena (Memory.ofBytes fun _ => 0))
        scannedRun := by
    decide +kernel
  have told :
      ((Session.start onePageArena
        (Memory.ofBytes fun _ => 0)).clientRun? scannedRun).all
          (fun session =>
            SizesKept session (scribble session.memory.byte) ∧
              MagicsKnown session (scribble session.memory.byte) ∧
              damagedRedzones (scribble session.memory.byte)
                session.returned = 3) = true := by
    decide +kernel
  simp only [ran, Option.all_some] at told
  obtain ⟨kept, known, damaged⟩ := of_decide_eq_true told
  have spec :=
    redzoneScan_exact onePageArena_created (by decide) (by decide) _ ran
      careful kept
  have counted := spec.counts known
  rw [damaged] at counted
  exact ⟨session, ran, counted⟩

/-- A request that wraps `used` back over its own header. -/
def wrappingRun : List ClientOp :=
  [.alloc 8, .alloc 18446744073709551568]

/-- The byte at 65592, in the redzone before the second block, is cleared. -/
def clearPre (contents : Nat → UInt8) (address : Nat) : UInt8 :=
  if address = 65592 then 0 else contents address

/-- The walk ends before the second block and misses its damaged redzone. -/
theorem scan_skips_wrapped :
    ∃ session,
      (Session.start onePageArena
          (Memory.ofBytes fun _ => 0)).clientRun? wrappingRun =
            some session ∧
        SizesKept session (clearPre session.memory.byte) ∧
        ¬ ScanSpec session (clearPre session.memory.byte) := by
  obtain ⟨session, ran⟩ :
      ∃ session,
        (Session.start onePageArena
          (Memory.ofBytes fun _ => 0)).clientRun? wrappingRun =
            some session :=
    ⟨_, rfl⟩
  have told :
      ((Session.start onePageArena
        (Memory.ofBytes fun _ => 0)).clientRun? wrappingRun).all
          (fun session =>
            SizesKept session (clearPre session.memory.byte) ∧
              MagicsKnown session (clearPre session.memory.byte) ∧
              damagedRedzones (clearPre session.memory.byte)
                session.returned = 1 ∧
              checkAnswer session.arena
                (clearPre session.memory.byte) = some 0) = true := by
    decide +kernel
  simp only [ran, Option.all_some] at told
  obtain ⟨kept, known, damaged, answered⟩ := of_decide_eq_true told
  refine ⟨session, ran, kept, fun spec => ?_⟩
  have counted := spec.counts known
  rw [damaged, answered] at counted
  exact absurd counted (by decide)

end FailurePlayground.Arena
