import FailurePlayground.ArenaAlloc

namespace FailurePlayground.Arena

/-!
# Freeing any pointer

`chaosArenaFree` believes the magic word it finds 24 bytes below the pointer.
This module states for which pointers that word tells the live blocks from
everything else, and which clients keep their blocks' own headers readable.
-/

namespace Session

/-- `p` is the user pointer of a block that has not been freed. -/
def IsLive (session : Session) (p : Nat) : Prop :=
  ∃ block ∈ session.returned, block.user = p ∧ block.freed = false

instance (session : Session) (p : Nat) :
    Decidable (session.IsLive p) :=
  inferInstanceAs (Decidable (∃ block ∈ session.returned, _ ∧ _))

/-- What a free of `p` must do in a state of a session. -/
structure FreeSpec (session : Session) (p : UInt64) : Prop where
  accepted :
    (chaosArenaFree session.arena p.toNat session.memory).1 = 0 ↔
      session.IsLive p.toNat
  refused :
    ¬ session.IsLive p.toNat →
      (chaosArenaFree session.arena p.toNat session.memory).1 = -1 ∧
        (chaosArenaFree session.arena p.toNat
          session.memory).2.byte = session.memory.byte
  /-- A header that is read lies wholly inside the arena. -/
  headerInside :
    (chaosArenaFree session.arena p.toNat
        (Memory.ofBytes session.memory.byte)).2.reads ≠ [] →
      session.arena.base ≤ headerOf p.toNat ∧
        headerOf p.toNat + blockHdrSize ≤
          session.arena.base + session.arena.total

end Session

/-- The magic word found below `p` lies in the arena, and is the live one. -/
def FoundLive (arena : ChaosArena) (memory : Memory) (p : Nat) : Prop :=
  arena.Inside (headerOf p) ∧ memory.word32 (headerOf p) = arenaMagicLive

instance (arena : ChaosArena) (memory : Memory) (p : Nat) :
    Decidable (FoundLive arena memory p) :=
  inferInstanceAs (Decidable ((_ ∧ _) ∧ _))

/-- The header of `p` does not stick out of the end of the arena. -/
def HeaderWhole (arena : ChaosArena) (p : Nat) : Prop :=
  arena.Inside (headerOf p) →
    headerOf p + blockHdrSize ≤ arena.base + arena.total

instance (arena : ChaosArena) (p : Nat) :
    Decidable (HeaderWhole arena p) :=
  inferInstanceAs (Decidable (_ ∧ _ → _))

namespace Session

/-- No live magic word lies where a pointer that is not live has its header. -/
def Unforged (session : Session) (p : Nat) : Prop :=
  FoundLive session.arena session.memory p → session.IsLive p

/-- A live block still has its own magic word. -/
def Unspoilt (session : Session) (p : Nat) : Prop :=
  session.IsLive p → FoundLive session.arena session.memory p

instance (session : Session) (p : Nat) :
    Decidable (session.Unforged p) :=
  inferInstanceAs (Decidable (FoundLive _ _ p → session.IsLive p))

instance (session : Session) (p : Nat) :
    Decidable (session.Unspoilt p) :=
  inferInstanceAs (Decidable (session.IsLive p → FoundLive _ _ p))

end Session

section Free

variable
  {arena : ChaosArena}
  {memory : Memory}
  {p : Nat}

/-- The header of the null pointer lies above user space. -/
theorem headerOf_zero_outside (arena : ChaosArena) :
    ¬ arena.Inside (headerOf 0) := by
  have space := arena.inUserSpace
  unfold ChaosArena.Inside headerOf sizeT redzoneSize blockHdrSize
  omega

/-- A pointer whose header lies elsewhere is refused unread. -/
theorem free_outside
    (outside : ¬ arena.Inside (headerOf p)) :
    chaosArenaFree arena p memory = (-1, memory) := by
  have off :
      headerOf p < arena.base ∨
        arena.base + arena.total ≤ headerOf p := by
    unfold ChaosArena.Inside at outside
    omega
  by_cases null : p = 0
  · simp [chaosArenaFree, null]
  · simp [chaosArenaFree, null, off]

/-- A header that is looked at is read and decides the answer. -/
theorem free_inside
    (memory : Memory)
    (inside : arena.Inside (headerOf p)) :
    (∃ later,
      (chaosArenaFree arena p memory).2.reads =
        memory.reads ++ List.range' (headerOf p) 4 ++ later) ∧
      (memory.word32 (headerOf p) = arenaMagicLive →
        (chaosArenaFree arena p memory).1 = 0) ∧
      (memory.word32 (headerOf p) ≠ arenaMagicLive →
        (chaosArenaFree arena p memory).1 = -1 ∧
          (chaosArenaFree arena p memory).2.byte = memory.byte) := by
  have nonNull : p ≠ 0 := by
    rintro rfl
    exact headerOf_zero_outside arena inside
  have inRegion :
      ¬ (headerOf p < arena.base ∨
        arena.base + arena.total ≤ headerOf p) := by
    unfold ChaosArena.Inside at inside
    omega
  by_cases live : memory.word32 (headerOf p) = arenaMagicLive
  · have distinct : arenaMagicLive ≠ arenaMagicFree := by decide
    simp only [chaosArenaFree, nonNull, ↓reduceIte, inRegion,
      Memory.load32_fst, Memory.load32_snd, live, distinct, ne_eq,
      not_true_eq_false]
    refine ⟨⟨List.range' (headerOf p + 4) 4, rfl⟩, fun _ => trivial, ?_⟩
    exact fun other => other.elim
  · simp only [chaosArenaFree, nonNull, ↓reduceIte, inRegion,
      Memory.load32_fst, Memory.load32_snd, live, ne_eq,
      not_false_eq_true, ite_self]
    refine ⟨⟨[], by simp⟩, fun same => same.elim, fun _ => ⟨trivial, rfl⟩⟩

/-- A free answers 0 exactly when it finds the live magic word. -/
theorem free_accepts_iff :
    (chaosArenaFree arena p memory).1 = 0 ↔
      FoundLive arena memory p := by
  by_cases inside : arena.Inside (headerOf p)
  · obtain ⟨_, accepts, refuses⟩ := free_inside memory inside
    constructor
    · intro accepted
      refine ⟨inside, ?_⟩
      by_contra other
      rw [(refuses other).1] at accepted
      exact absurd accepted (by decide)
    · exact fun found => accepts found.2
  · rw [free_outside inside]
    have refused : (-1 : Int) ≠ 0 := by decide
    exact iff_of_false refused fun found => inside found.1

/-- Any other free answers -1 and leaves every byte alone. -/
theorem free_refuses
    (unseen : ¬ FoundLive arena memory p) :
    (chaosArenaFree arena p memory).1 = -1 ∧
      (chaosArenaFree arena p memory).2.byte = memory.byte := by
  by_cases inside : arena.Inside (headerOf p)
  · obtain ⟨_, _, refuses⟩ := free_inside memory inside
    exact refuses fun live => unseen ⟨inside, live⟩
  · rw [free_outside inside]
    exact ⟨rfl, rfl⟩

/-- A free reads a header exactly when it lies in the arena. -/
theorem free_reads_iff (contents : Nat → UInt8) :
    (chaosArenaFree arena p (Memory.ofBytes contents)).2.reads ≠ [] ↔
      arena.Inside (headerOf p) := by
  by_cases inside : arena.Inside (headerOf p)
  · obtain ⟨⟨later, reads⟩, _⟩ :=
      free_inside (Memory.ofBytes contents) inside
    rw [reads]
    exact iff_of_true (by simp) inside
  · rw [free_outside inside]
    exact iff_of_false (by simp [Memory.ofBytes]) inside

/--
A free meets its specification exactly when the magic word tells whether the
pointer is live and its header does not stick out of the arena.
-/
theorem freeSpec_iff (session : Session) (p : UInt64) :
    session.FreeSpec p ↔
      HeaderWhole session.arena p.toNat ∧
        session.Unforged p.toNat ∧ session.Unspoilt p.toNat := by
  constructor
  · intro spec
    refine ⟨fun inside => ?_, fun found => ?_, fun live => ?_⟩
    · exact (spec.headerInside ((free_reads_iff _).mpr inside)).2
    · exact spec.accepted.mp (free_accepts_iff.mpr found)
    · exact free_accepts_iff.mp (spec.accepted.mpr live)
  · rintro ⟨whole, unforged, unspoilt⟩
    exact {
      accepted := free_accepts_iff.trans ⟨unforged, unspoilt⟩
      refused := fun dead => free_refuses fun found =>
        dead (unforged found)
      headerInside := fun reads => by
        have inside := (free_reads_iff _).mp reads
        exact ⟨inside.1, whole inside⟩
    }

end Free

/-- The header of a returned block tells its state and its size. -/
structure HeaderAt
    (base : Nat)
    (memory : Memory)
    (block : Returned) : Prop where
  above : base + 24 ≤ block.user
  narrow : block.size < 2 ^ 32
  magic : memory.word32 (block.user - 24) = magicOf block.freed
  storedSize : memory.word32 (block.user - 20) = block.size

/-- A header survives any change outside its eight bytes. -/
theorem HeaderAt.congr
    {base : Nat}
    {before after : Memory}
    {block : Returned}
    (here : HeaderAt base before block)
    (same :
      ∀ address,
        block.user - 24 ≤ address →
        address < block.user - 16 →
        after.byte address = before.byte address) :
    HeaderAt base after block where
  above := here.above
  narrow := here.narrow
  magic := by
    have above := here.above
    rw [← here.magic]
    apply Memory.word32_congr
    intro index inside
    exact same _ (by omega) (by omega)
  storedSize := by
    have above := here.above
    rw [← here.storedSize]
    apply Memory.word32_congr
    intro index inside
    exact same _ (by omega) (by omega)

/-- Two blocks of which the first ends before the second begins. -/
def Returned.Before (first second : Returned) : Prop :=
  first.stop ≤ second.user - 24

namespace Session

/-- Every returned block has its header, and no two blocks overlap. -/
structure Headed (session : Session) : Prop where
  header :
    ∀ block ∈ session.returned,
      HeaderAt session.arena.base session.memory block
  stacked : session.Stacked
  apart : session.returned.Pairwise Returned.Before

variable
  {session next final : Session}
  {op : ClientOp}
  {n : UInt64}

/-- Two returned blocks are one block, or one lies before the other. -/
theorem Headed.apart_of_mem
    (headed : session.Headed)
    {first second : Returned}
    (firstMember : first ∈ session.returned)
    (secondMember : second ∈ session.returned) :
    first = second ∨ first.Before second ∨ second.Before first := by
  have ordered :
      session.returned.Pairwise fun first second =>
        first = second ∨ first.Before second ∨ second.Before first :=
    headed.apart.imp fun before => Or.inr (Or.inl before)
  have flipped :
      session.returned.Pairwise (flip fun first second =>
        first = second ∨ first.Before second ∨ second.Before first) :=
    headed.apart.imp fun before => Or.inr (Or.inr before)
  have same :
      ∀ block ∈ session.returned,
        block = block ∨ block.Before block ∨ block.Before block :=
    fun _ _ => Or.inl rfl
  exact List.Pairwise.forall_of_forall_of_flip same ordered flipped
    firstMember secondMember

/-- A block takes more than its user bytes. -/
theorem user_lt_stop (block : Returned) :
    block.user - 24 + 24 + block.size + 16 ≤ block.stop := by
  unfold Returned.stop blockBytes
  omega

/-- No header lies in the user bytes of a returned block. -/
theorem Headed.header_clear
    (headed : session.Headed)
    {block other : Returned}
    (member : block ∈ session.returned)
    (otherMember : other ∈ session.returned)
    {address : Nat}
    (lower : block.user - 24 ≤ address)
    (upper : address < block.user - 16) :
    address < other.user ∨ other.user + other.size ≤ address := by
  have above := (headed.header block member).above
  have otherAbove := (headed.header other otherMember).above
  have stop := user_lt_stop block
  have otherStop := user_lt_stop other
  rcases headed.apart_of_mem member otherMember with
    rfl | before | after
  · omega
  · unfold Returned.Before at before
    omega
  · unfold Returned.Before at after
    omega

/-- A pointer belongs to one block only. -/
theorem Headed.eq_of_user
    (headed : session.Headed)
    {block other : Returned}
    (member : block ∈ session.returned)
    (otherMember : other ∈ session.returned)
    (same : block.user = other.user) :
    block = other := by
  have stop := user_lt_stop block
  have otherStop := user_lt_stop other
  rcases headed.apart_of_mem member otherMember with
    equal | before | after
  · exact equal
  · unfold Returned.Before at before
    omega
  · unfold Returned.Before at after
    omega

/-- The header of a returned block lies inside the arena. -/
theorem Headed.inside
    (headed : session.Headed)
    {block : Returned}
    (member : block ∈ session.returned) :
    session.arena.Inside (headerOf block.user) ∧
      headerOf block.user = block.user - 24 := by
  have above := (headed.header block member).above
  have stop := user_lt_stop block
  have stacked := headed.stacked block member
  have usedFits := session.arena.usedFits
  have space := session.arena.inUserSpace
  unfold ChaosArena.Inside headerOf sizeT redzoneSize blockHdrSize
  omega

/-- Every live block is found live. -/
theorem Headed.unspoilt
    (headed : session.Headed)
    (p : Nat) :
    session.Unspoilt p := by
  rintro ⟨block, member, rfl, live⟩
  obtain ⟨inside, header⟩ := headed.inside member
  refine ⟨inside, ?_⟩
  rw [header, (headed.header block member).magic, live]
  exact rfl

/-- A granted allocation keeps every earlier header and adds one. -/
theorem Headed.alloc
    (headed : session.Headed)
    (sums : SumsFit session.arena n.toNat)
    (stepped : session.clientStep? (.alloc n) = some next) :
    next.Headed := by
  have fits : session.AllocFits (.alloc n) := sums
  have stacked : next.Stacked := headed.stacked.step fits stepped
  simp only [clientStep?, step?, Option.some.injEq] at stepped
  by_cases room :
      session.arena.usedAfter n.toNat ≤ session.arena.total
  · obtain ⟨user, _, magic, size⟩ :=
      alloc_granted session.memory room
    have frame := alloc_built session.arena n session.memory
    have narrow : n.toNat < 2 ^ 32 :=
      sums.1.resolve_right (Nat.not_lt.mpr room)
    simp only [user] at stepped
    subst stepped
    refine ⟨fun block member => ?_, stacked, ?_⟩
    · simp only [frame.1]
      rcases List.mem_append.mp member with old | new
      · refine (headed.header block old).congr ?_
        intro address _ upper
        have below := headed.stacked block old
        have stop := user_lt_stop block
        exact alloc_below room (by omega)
      · obtain rfl := List.mem_singleton.mp new
        exact {
          above := by simp only; omega
          narrow := narrow
          magic := magic
          storedSize := by
            rw [Nat.mod_eq_of_lt narrow] at size
            exact size
        }
    · refine List.pairwise_append.mpr
        ⟨headed.apart, List.pairwise_singleton _ _, ?_⟩
      intro block old other new
      obtain rfl := List.mem_singleton.mp new
      have below := headed.stacked block old
      unfold Returned.Before
      simp only
      omega
  · obtain ⟨failed, sameArena, sameMemory⟩ :=
      (headed.stacked.allocSpec sums).refused (Nat.lt_of_not_le room)
    simp only [failed, sameArena, sameMemory] at stepped
    subst stepped
    exact ⟨headed.header, headed.stacked, headed.apart⟩

/-- A write inside a returned block touches no header. -/
theorem Headed.write
    {index offset : Nat}
    {value : UInt8}
    (headed : session.Headed)
    (stepped :
      session.clientStep? (.write index offset value) = some next) :
    next.Headed := by
  simp only [clientStep?, step?, Option.bind_eq_some_iff] at stepped
  obtain ⟨written, found, guarded⟩ := stepped
  simp only [Option.ite_none_right_eq_some,
    Option.some.injEq] at guarded
  obtain ⟨inside, rfl⟩ := guarded
  have member := List.mem_of_getElem? found
  refine ⟨fun block held => ?_, headed.stacked, headed.apart⟩
  refine (headed.header block held).congr ?_
  intro address lower upper
  have clear := headed.header_clear held member lower upper
  have kept :
      (session.memory.store8 (written.user + offset) value).byte address =
        session.memory.byte address :=
    Memory.byte_writeRange_outside _ _ _ (by omega)
  exact kept

/-- Marking changes only the freed flags. -/
theorem markFreed_apart
    (headed : session.Headed)
    (p : Nat) :
    (markFreed p session.returned).Pairwise Returned.Before := by
  refine List.pairwise_map.mpr (headed.apart.imp ?_)
  intro first second before
  split <;> split <;> exact before

/-- A pointer that is not live marks no block. -/
theorem markFreed_dead
    {p : Nat}
    (dead : ¬ session.IsLive p) :
    markFreed p session.returned = session.returned := by
  refine (List.map_congr_left ?_).trans (List.map_id _)
  intro block member
  split
  · rename_i same
    have freed : block.freed = true := by
      by_contra live
      exact dead ⟨block, member, same,
        Bool.eq_false_of_not_eq_true live⟩
    simp only [id_eq, ← freed]
  · exact rfl

/-- A refused free changes neither the bytes nor the blocks. -/
theorem Headed.free_refused
    {p : UInt64}
    (headed : session.Headed)
    (dead : ¬ session.IsLive p.toNat)
    (unforged : session.Unforged p.toNat)
    (stepped : session.clientStep? (.free p) = some next) :
    next.Headed := by
  simp only [clientStep?, Option.some.injEq] at stepped
  subst stepped
  obtain ⟨_, sameBytes⟩ :=
    free_refuses fun found => dead (unforged found)
  rw [markFreed_dead dead]
  refine ⟨fun block member => ?_, headed.stacked, headed.apart⟩
  exact (headed.header block member).congr fun _ _ _ => by
    rw [sameBytes]

/-- The free of a live block changes its magic word and its user bytes. -/
theorem Headed.free_accepted
    {p : UInt64}
    (headed : session.Headed)
    (live : session.IsLive p.toNat)
    (stepped : session.clientStep? (.free p) = some next) :
    next.Headed := by
  obtain ⟨block, member, user, unfreed⟩ := live
  simp only [clientStep?, Option.some.injEq] at stepped
  subst stepped
  have here := headed.header block member
  obtain ⟨inside, header⟩ := headed.inside member
  have magic := here.magic
  rw [unfreed] at magic
  have freed :=
    free_of_header header here.above (header ▸ inside.2) magic
      here.storedSize
  rw [← user]
  simp only [freed]
  have above := here.above
  refine ⟨fun marked held => ?_, fun marked held => ?_, ?_⟩
  · obtain ⟨old, oldMember, rfl⟩ := List.mem_map.mp held
    by_cases same : old.user = block.user
    · obtain rfl := headed.eq_of_user oldMember member same
      simp only [↓reduceIte]
      have stop := user_lt_stop old
      exact {
        above := here.above
        narrow := here.narrow
        magic := freeMemory_magic above
        storedSize := by
          simp only
          rw [← here.storedSize]
          apply Memory.word32_congr
          intro index bound
          exact freeMemory_outside (by omega) (by omega) (by omega)
      }
    · simp only [same, ↓reduceIte]
      refine (headed.header old oldMember).congr ?_
      intro address lower upper
      have clear := headed.header_clear oldMember member lower upper
      have oldAbove := (headed.header old oldMember).above
      have stop := user_lt_stop old
      have blockStop := user_lt_stop block
      refine freeMemory_outside ?_ clear (by omega)
      rcases headed.apart_of_mem oldMember member with
        rfl | before | after
      · exact absurd rfl same
      · unfold Returned.Before at before
        omega
      · unfold Returned.Before at after
        omega
  · obtain ⟨old, oldMember, rfl⟩ := List.mem_map.mp held
    have below := headed.stacked old oldMember
    split
    · exact below
    · exact below
  · exact markFreed_apart headed block.user

/--
A client whose allocations' sums fit and that frees no pointer with a forged
header.
-/
def Careful (session : Session) : ClientOp → Prop
  | .alloc n => SumsFit session.arena n.toNat
  | .free p => session.Unforged p.toNat
  | .write _ _ _ => True

instance (session : Session) : (op : ClientOp) →
    Decidable (session.Careful op)
  | .alloc n => inferInstanceAs (Decidable (SumsFit _ n.toNat))
  | .free p => inferInstanceAs (Decidable (session.Unforged p.toNat))
  | .write _ _ _ => inferInstanceAs (Decidable True)

/-- A careful client keeps every header. -/
theorem Headed.step
    (headed : session.Headed)
    (careful : session.Careful op)
    (stepped : session.clientStep? op = some next) :
    next.Headed := by
  cases op with
  | alloc n =>
      exact headed.alloc careful stepped
  | free p =>
      by_cases live : session.IsLive p.toNat
      · exact headed.free_accepted live stepped
      · exact headed.free_refused live careful stepped
  | write index offset value =>
      exact headed.write stepped

/-- A new arena has no block. -/
theorem headed_start (arena : ChaosArena) (memory : Memory) :
    (start arena memory).Headed where
  header _ member := (List.not_mem_nil member).elim
  stacked _ member := (List.not_mem_nil member).elim
  apart := .nil

/-- The headers of returned pointers lie inside the region. -/
theorem Headed.headerWhole
    (headed : session.Headed)
    {block : Returned}
    (member : block ∈ session.returned) :
    HeaderWhole session.arena block.user := by
  intro _
  have above := (headed.header block member).above
  have stop := user_lt_stop block
  have stacked := headed.stacked block member
  have usedFits := session.arena.usedFits
  rw [(headed.inside member).2, show blockHdrSize = 8 from rfl]
  omega

/-- The headers of returned pointers are nobody's forgery. -/
theorem Headed.unforged_returned
    (headed : session.Headed)
    {block : Returned}
    (member : block ∈ session.returned) :
    session.Unforged block.user := by
  rintro ⟨_, magic⟩
  rw [(headed.inside member).2, (headed.header block member).magic] at magic
  refine ⟨block, member, rfl, ?_⟩
  cases status : block.freed with
  | false =>
      rfl
  | true =>
      rw [status] at magic
      exact absurd magic (by decide)

end Session

/--
In every state a client can reach, a free of any pointer meets its
specification exactly when its header is whole, not forged and not spoilt.
The headers of careful clients are never spoilt, and the pointers they were
given are never forged, freed or not.
-/
theorem freeAccepts_exact
    (arena : ChaosArena)
    (memory : Memory)
    (ops : List ClientOp)
    (session : Session)
    (ran : (Session.start arena memory).clientRun? ops = some session) :
    (∀ p,
      session.FreeSpec p ↔
        HeaderWhole session.arena p.toNat ∧
          session.Unforged p.toNat ∧ session.Unspoilt p.toNat) ∧
      (Transition.EachStep Session.clientStep? Session.Careful
          (Session.start arena memory) ops →
        ∀ p,
          (session.FreeSpec p ↔
            HeaderWhole session.arena p.toNat ∧
              session.Unforged p.toNat) ∧
            ((∃ block ∈ session.returned, block.user = p.toNat) →
              session.FreeSpec p)) := by
  refine ⟨freeSpec_iff session, fun careful p => ?_⟩
  have headed : session.Headed :=
    Transition.run?_invariant_of_eachStep Session.Headed.step ran
      careful (Session.headed_start arena memory)
  have unspoilt := headed.unspoilt p.toNat
  rw [freeSpec_iff]
  refine ⟨⟨?_, ?_⟩, ?_⟩
  · rintro ⟨whole, unforged, _⟩
    exact ⟨whole, unforged⟩
  · rintro ⟨whole, unforged⟩
    exact ⟨whole, unforged, unspoilt⟩
  · rintro ⟨block, member, user⟩
    rw [← user] at unspoilt ⊢
    exact ⟨headed.headerWhole member, headed.unforged_returned member,
      unspoilt⟩

/-- Two blocks, one freed, and the second written. -/
def carefulRun : List ClientOp :=
  [.alloc 13, .alloc 24, .free 65560, .free 65560, .free 70000,
    .write 1 8 0xAA]

theorem freeAccepts_exact_careful :
    ∃ session,
      (Session.start onePageArena
          (Memory.ofBytes fun _ => 0)).clientRun? carefulRun =
            some session ∧
        session.FreeSpec 65616 ∧ session.FreeSpec 65560 := by
  obtain ⟨session, ran⟩ :
      ∃ session,
        (Session.start onePageArena
          (Memory.ofBytes fun _ => 0)).clientRun? carefulRun =
            some session :=
    ⟨_, rfl⟩
  have careful :
      Transition.EachStep Session.clientStep? Session.Careful
        (Session.start onePageArena (Memory.ofBytes fun _ => 0))
        carefulRun := by
    decide +kernel
  have told :
      ((Session.start onePageArena
        (Memory.ofBytes fun _ => 0)).clientRun? carefulRun).all
          (fun session =>
            (HeaderWhole session.arena (65616 : UInt64).toNat ∧
              session.Unforged (65616 : UInt64).toNat) ∧
            HeaderWhole session.arena (65560 : UInt64).toNat ∧
              session.Unforged (65560 : UInt64).toNat) = true := by
    decide +kernel
  simp only [ran, Option.all_some] at told
  obtain ⟨second, first⟩ := of_decide_eq_true told
  have exact := (freeAccepts_exact _ _ _ _ ran).2 careful
  exact ⟨session, ran, (exact 65616).1.mpr second,
    (exact 65560).1.mpr first⟩

/-- The client writes the live magic word into its own user bytes. -/
def forgingRun : List ClientOp :=
  [.alloc 64, .write 0 0 0xAA, .write 0 1 0x11, .write 0 2 0x1A,
    .write 0 3 0xA1]

/-- A pointer into the middle of a block is then freed. -/
theorem free_accepts_forged :
    ∃ session,
      (Session.start onePageArena
          (Memory.ofBytes fun _ => 0)).clientRun? forgingRun =
            some session ∧
        ¬ session.FreeSpec 65584 := by
  obtain ⟨session, ran⟩ :
      ∃ session,
        (Session.start onePageArena
          (Memory.ofBytes fun _ => 0)).clientRun? forgingRun =
            some session :=
    ⟨_, rfl⟩
  have forged :
      ((Session.start onePageArena
        (Memory.ofBytes fun _ => 0)).clientRun? forgingRun).all
          (fun session =>
            ¬ session.Unforged (65584 : UInt64).toNat) = true := by
    decide +kernel
  simp only [ran, Option.all_some] at forged
  refine ⟨session, ran, fun spec => ?_⟩
  exact of_decide_eq_true forged ((freeSpec_iff session 65584).mp spec).2.1

end FailurePlayground.Arena
