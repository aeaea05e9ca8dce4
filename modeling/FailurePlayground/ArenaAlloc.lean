import FailurePlayground.ArenaContainment

namespace FailurePlayground.Arena

/-!
# Allocation of any size

A request is any `size_t`.  The bound test of `chaosArenaAlloc` adds it to
`used` modulo `2 ^ 64` and the header stores it modulo `2 ^ 32`; this module
says for which requests neither reduction is seen.
-/

/-- One client action; a free may be given any pointer. -/
inductive ClientOp where
  | alloc (n : UInt64)
  | free (p : UInt64)
  | write (index offset : Nat) (value : UInt8)
  deriving Repr, DecidableEq

/-- The returned blocks after `chaosArenaFree` was called on `p`. -/
def markFreed (p : Nat) (returned : List Returned) : List Returned :=
  returned.map fun block =>
    if block.user = p then { block with freed := true } else block

namespace Session

/-- Run one client action. -/
def clientStep? (session : Session) : ClientOp → Option Session
  | .alloc n =>
      session.step? (.alloc n)
  | .free p =>
      some {
        arena := session.arena
        memory := (chaosArenaFree session.arena p.toNat session.memory).2
        returned := markFreed p.toNat session.returned
      }
  | .write index offset value =>
      session.step? (.write index offset value)

/-- Run a finite list of client actions. -/
abbrev clientRun? : Session → List ClientOp → Option Session :=
  Transition.run? clientStep?

end Session

/-- `used` after a block of `n` bytes, computed without wrap-around. -/
def ChaosArena.usedAfter (arena : ChaosArena) (n : Nat) : Nat :=
  arena.used + blockBytes n

/-- What a request of `n` bytes must do in a state of a session. -/
structure AllocSpec (session : Session) (n : UInt64) : Prop where
  /-- A request that fits gets a block of its own with its size stored. -/
  granted :
    session.arena.usedAfter n.toNat ≤ session.arena.total →
      ∃ user,
        (chaosArenaAlloc session.arena n session.memory).user =
            some user ∧
          (chaosArenaAlloc session.arena n session.memory).arena.used =
            session.arena.usedAfter n.toNat ∧
          (∀ index, index < n.toNat →
            session.arena.Inside (user + index) ∧
              ∀ block ∈ session.returned,
                user + index < block.user - 24 ∨
                  block.stop ≤ user + index) ∧
          (chaosArenaAlloc session.arena n
            session.memory).memory.word32 (user - 20) = n.toNat
  /-- Any other request gets `NULL` and changes nothing. -/
  refused :
    session.arena.total < session.arena.usedAfter n.toNat →
      (chaosArenaAlloc session.arena n session.memory).user = none ∧
        (chaosArenaAlloc session.arena n session.memory).arena =
          session.arena ∧
        (chaosArenaAlloc session.arena n session.memory).memory =
          session.memory

/--
The reductions are not seen: a size cut to 32 bits belongs to a request that
does not fit, and so does a sum that wraps, which still exceeds the region.
-/
def SumsFit (arena : ChaosArena) (n : Nat) : Prop :=
  (n < 2 ^ 32 ∨ arena.total < arena.usedAfter n) ∧
    (arena.usedAfter n < 2 ^ 64 ∨
      arena.total < arena.usedAfter n - 2 ^ 64)

instance (arena : ChaosArena) (n : Nat) :
    Decidable (SumsFit arena n) :=
  inferInstanceAs (Decidable ((_ ∨ _) ∧ (_ ∨ _)))

namespace Session

/-- An allocation meets its specification. -/
def AllocMeets (session : Session) : ClientOp → Prop
  | .alloc n => AllocSpec session n
  | .free _ | .write _ _ _ => True

/-- An allocation is a request whose sums fit. -/
def AllocFits (session : Session) : ClientOp → Prop
  | .alloc n => SumsFit session.arena n.toNat
  | .free _ | .write _ _ _ => True

instance (session : Session) : (op : ClientOp) →
    Decidable (session.AllocFits op)
  | .alloc n => inferInstanceAs (Decidable (SumsFit _ n.toNat))
  | .free _ | .write _ _ _ => inferInstanceAs (Decidable True)

end Session

section Arithmetic

variable
  {arena : ChaosArena}
  {n : UInt64}
  {memory : Memory}

/-- The three wrapping additions of the bound test wrap once in all. -/
theorem bumped_eq (arena : ChaosArena) (n : Nat) :
    sizeT (arena.used + blockTotal n) =
      arena.usedAfter n % 2 ^ 64 := by
  unfold ChaosArena.usedAfter blockTotal blockBytes round8 sizeT
    blockHdrSize redzoneSize
  omega

/-- The arena grants a request exactly when the wrapped sum fits. -/
theorem alloc_user_eq_none :
    (chaosArenaAlloc arena n memory).user = none ↔
      arena.total < arena.usedAfter n.toNat % 2 ^ 64 := by
  rw [← bumped_eq]
  unfold chaosArenaAlloc
  by_cases fits : sizeT (arena.used + blockTotal n.toNat) ≤ arena.total
  · simp [fits]
  · simp only [fits, ↓reduceDIte, true_iff]
    exact Nat.lt_of_not_le fits

/-- The redzone behind a granted block is at the address computed. -/
theorem postRedzone_eq
    (room : arena.usedAfter n.toNat ≤ arena.total) :
    sizeT
        (arena.base + arena.used + blockHdrSize + redzoneSize +
          round8 n.toNat) =
      arena.base + arena.used + 24 + (n.toNat + 7) / 8 * 8 := by
  have space := arena.inUserSpace
  unfold ChaosArena.usedAfter blockBytes at room
  unfold round8 sizeT blockHdrSize redzoneSize
  omega

/-- The bytes a granted request writes lie past the used ones. -/
theorem alloc_below
    {address : Nat}
    (room : arena.usedAfter n.toNat ≤ arena.total)
    (below : address < arena.base + arena.used) :
    (chaosArenaAlloc arena n memory).memory.byte address =
      memory.byte address := by
  have post := postRedzone_eq room
  unfold chaosArenaAlloc
  by_cases fits : sizeT (arena.used + blockTotal n.toNat) ≤ arena.total
  · simp only [fits, ↓reduceDIte, post]
    by_cases zones : arena.redzones = true
    · simp only [zones, ↓reduceIte]
      unfold Memory.fill Memory.store32 blockHdrSize
      rw [Memory.byte_writeRange_outside _ _ _ (by omega),
        Memory.byte_writeRange_outside _ _ _ (by omega),
        Memory.byte_writeRange_outside _ _ _ (by omega),
        Memory.byte_writeRange_outside _ _ _ (by omega)]
    · simp only [zones, Bool.false_eq_true, ↓reduceIte]
      unfold Memory.store32
      rw [Memory.byte_writeRange_outside _ _ _ (by omega),
        Memory.byte_writeRange_outside _ _ _ (by omega)]
  · simp [fits]

/-- A granted request gets the next block, with its header written. -/
theorem alloc_granted
    (memory : Memory)
    (room : arena.usedAfter n.toNat ≤ arena.total) :
    (chaosArenaAlloc arena n memory).user =
        some (arena.base + arena.used + 24) ∧
      (chaosArenaAlloc arena n memory).arena.used =
        arena.usedAfter n.toNat ∧
      (chaosArenaAlloc arena n memory).memory.word32
        (arena.base + arena.used) = arenaMagicLive ∧
      (chaosArenaAlloc arena n memory).memory.word32
        (arena.base + arena.used + 4) = n.toNat % 2 ^ 32 := by
  have space := arena.inUserSpace
  have noWrap :
      sizeT (arena.used + blockTotal n.toNat) =
        arena.usedAfter n.toNat := by
    rw [bumped_eq]
    exact Nat.mod_eq_of_lt (by omega)
  have fits :
      sizeT (arena.used + blockTotal n.toNat) ≤ arena.total := by
    rw [noWrap]
    exact room
  have post := postRedzone_eq room
  -- Neither redzone reaches the header, on or off.
  have header :
      ∀ index, index < 8 →
        (chaosArenaAlloc arena n memory).memory.byte
            (arena.base + arena.used + index) =
          ((memory.store32 (arena.base + arena.used)
            arenaMagicLive).store32 (arena.base + arena.used + 4)
              (n.toNat % 2 ^ 32)).byte
                (arena.base + arena.used + index) := by
    intro index inside
    unfold chaosArenaAlloc
    simp only [fits, ↓reduceDIte, post]
    by_cases zones : arena.redzones = true
    · simp only [zones, ↓reduceIte]
      unfold Memory.fill blockHdrSize
      rw [Memory.byte_writeRange_outside _ _ _ (by omega),
        Memory.byte_writeRange_outside _ _ _ (by omega)]
    · simp only [zones, Bool.false_eq_true, ↓reduceIte]
  refine ⟨?_, ?_, ?_, ?_⟩
  · simp [chaosArenaAlloc, fits, blockHdrSize, redzoneSize,
      Nat.add_assoc]
  · simp only [chaosArenaAlloc, fits, ↓reduceDIte]
    exact noWrap
  · have magic :
        (memory.store32 (arena.base + arena.used)
          arenaMagicLive).word32 (arena.base + arena.used) =
            arenaMagicLive :=
      memory.word32_store32 _ (by decide)
    rw [← magic]
    apply Memory.word32_congr
    intro index inside
    rw [header index (by omega)]
    unfold Memory.store32
    exact Memory.byte_writeRange_outside _ _ _ (by omega)
  · have bounded : n.toNat % 2 ^ 32 < 2 ^ 32 :=
      Nat.mod_lt _ (by decide)
    rw [← (memory.store32 (arena.base + arena.used)
      arenaMagicLive).word32_store32 (arena.base + arena.used + 4)
        bounded]
    apply Memory.word32_congr
    intro index inside
    have shifted := header (4 + index) (by omega)
    rw [← Nat.add_assoc] at shifted
    exact shifted

end Arithmetic

namespace Session

variable
  {session next final : Session}
  {op : ClientOp}
  {n : UInt64}

/-- Every returned block lies in the used bytes. -/
def Stacked (session : Session) : Prop :=
  ∀ block ∈ session.returned,
    block.stop ≤ session.arena.base + session.arena.used

/-- A request whose sums fit meets its specification. -/
theorem Stacked.allocSpec
    (stacked : session.Stacked)
    (sums : SumsFit session.arena n.toNat) :
    AllocSpec session n where
  granted := by
    intro room
    obtain ⟨user, used, _, size⟩ :=
      alloc_granted session.memory room
    have narrow : n.toNat < 2 ^ 32 :=
      sums.1.resolve_right (Nat.not_lt.mpr room)
    refine ⟨_, user, used, ?_, ?_⟩
    · intro index inside
      unfold ChaosArena.usedAfter blockBytes at room
      refine ⟨⟨by omega, by omega⟩, fun block member => Or.inr ?_⟩
      have below := stacked block member
      omega
    · have header :
          session.arena.base + session.arena.used + 24 - 20 =
            session.arena.base + session.arena.used + 4 := by
        omega
      rw [header, size]
      exact Nat.mod_eq_of_lt narrow
  refused := by
    intro exceeds
    have failed :
        (chaosArenaAlloc session.arena n session.memory).user =
          none := by
      rw [alloc_user_eq_none]
      rcases sums.2 with whole | wrapped
      · rwa [Nat.mod_eq_of_lt whole]
      · have size := n.toNat_lt
        have usedFits := session.arena.usedFits
        have space := session.arena.inUserSpace
        unfold ChaosArena.usedAfter blockBytes at exceeds wrapped ⊢
        omega
    exact ⟨failed, alloc_none failed⟩

/-- A request that meets its specification has sums that fit. -/
theorem sumsFit_of_allocSpec
    (spec : AllocSpec session n) :
    SumsFit session.arena n.toNat := by
  constructor
  · by_contra cut
    simp only [not_or, Nat.not_lt] at cut
    obtain ⟨wide, room⟩ := cut
    obtain ⟨user, granted, _, _, stored⟩ := spec.granted room
    obtain ⟨address, _, _, size⟩ :=
      alloc_granted session.memory room
    obtain rfl := Option.some.inj (granted.symm.trans address)
    have header :
        session.arena.base + session.arena.used + 24 - 20 =
          session.arena.base + session.arena.used + 4 := by
      omega
    rw [header, size] at stored
    omega
  · by_contra wraps
    simp only [not_or, Nat.not_lt] at wraps
    obtain ⟨wide, fits⟩ := wraps
    have usedFits := session.arena.usedFits
    have space := session.arena.inUserSpace
    obtain ⟨failed, _, _⟩ := spec.refused (by omega)
    rw [alloc_user_eq_none] at failed
    have size := n.toNat_lt
    unfold ChaosArena.usedAfter blockBytes at wide fits failed
    omega

/-- Allocations whose sums fit stack the blocks one after another. -/
theorem Stacked.step
    (stacked : session.Stacked)
    (sums : session.AllocFits op)
    (stepped : session.clientStep? op = some next) :
    next.Stacked := by
  cases op with
  | alloc n =>
      simp only [clientStep?, step?, Option.some.injEq] at stepped
      subst stepped
      have spec := stacked.allocSpec sums
      have frame :=
        alloc_built session.arena n session.memory
      by_cases room :
          session.arena.usedAfter n.toNat ≤ session.arena.total
      · obtain ⟨user, used, _, _⟩ :=
          alloc_granted session.memory room
        intro block member
        simp only [user, List.mem_append, List.mem_singleton] at member
        simp only [used, frame.1]
        rcases member with old | rfl
        · have below := stacked block old
          unfold ChaosArena.usedAfter
          omega
        · simp only [Returned.stop]
          unfold ChaosArena.usedAfter
          omega
      · obtain ⟨failed, sameArena, _⟩ :=
          spec.refused (Nat.lt_of_not_le room)
        intro block member
        simp only [failed] at member
        simp only [sameArena]
        exact stacked block member
  | free p =>
      simp only [clientStep?, Option.some.injEq] at stepped
      subst stepped
      intro block member
      obtain ⟨old, held, rfl⟩ := List.mem_map.mp member
      have below := stacked old held
      split
      · exact below
      · exact below
  | write index offset value =>
      simp only [clientStep?, step?, Option.bind_eq_some_iff] at stepped
      obtain ⟨written, _, guarded⟩ := stepped
      simp only [Option.ite_none_right_eq_some,
        Option.some.injEq] at guarded
      obtain ⟨_, rfl⟩ := guarded
      exact stacked

end Session

/--
Whatever a client did before, an allocation of any size meets its
specification exactly when its sums fit, as long as every earlier one did;
so a run meets it throughout exactly when all its allocations' sums fit.
-/
theorem allocArithmetic_exact
    (arena : ChaosArena)
    (memory : Memory)
    (ops : List ClientOp)
    (session : Session)
    (ran : (Session.start arena memory).clientRun? ops = some session) :
    (Transition.EachStep Session.clientStep? Session.AllocMeets
        (Session.start arena memory) ops ↔
      Transition.EachStep Session.clientStep? Session.AllocFits
        (Session.start arena memory) ops) ∧
      (Transition.EachStep Session.clientStep? Session.AllocFits
          (Session.start arena memory) ops →
        ∀ n,
          AllocSpec session n ↔ SumsFit session.arena n.toNat) := by
  have fresh : (Session.start arena memory).Stacked :=
    fun _ member => (List.not_mem_nil member).elim
  have fits :
      ∀ {state : Session} {op : ClientOp},
        state.AllocMeets op → state.AllocFits op := by
    intro state op meets
    cases op with
    | alloc n =>
        exact Session.sumsFit_of_allocSpec meets
    | free p | write index offset value =>
        exact trivial
  have meets :
      ∀ {state : Session} {op : ClientOp},
        state.Stacked → state.AllocFits op → state.AllocMeets op := by
    intro state op stacked sums
    cases op with
    | alloc n =>
        exact stacked.allocSpec sums
    | free p | write index offset value =>
        exact trivial
  refine ⟨⟨fun specified => ?_, fun guarded => ?_⟩, fun guarded n => ?_⟩
  · exact Transition.eachStep_mono
      (fun stacked met stepped =>
        Session.Stacked.step stacked (fits met) stepped)
      (fun _ met _ => fits met) ran specified fresh
  · exact Transition.eachStep_mono Session.Stacked.step
      (fun stacked sums _ => meets stacked sums) ran guarded fresh
  · have stacked : session.Stacked :=
      Transition.run?_invariant_of_eachStep Session.Stacked.step
        ran guarded fresh
    exact ⟨Session.sumsFit_of_allocSpec, stacked.allocSpec⟩

/-- Odd, huge and empty requests around a free. -/
def sizedRun : List ClientOp :=
  [.alloc 13, .alloc 9223372036854775808, .free 65560, .alloc 0,
    .alloc 4000, .alloc 18446744073709547520]

theorem allocArithmetic_exact_sized :
    ∃ session,
      (Session.start onePageArena
          (Memory.ofBytes fun _ => 0)).clientRun? sizedRun =
            some session ∧
        Transition.EachStep Session.clientStep? Session.AllocMeets
          (Session.start onePageArena (Memory.ofBytes fun _ => 0))
          sizedRun ∧
        AllocSpec session 3000 := by
  obtain ⟨session, ran⟩ :
      ∃ session,
        (Session.start onePageArena
          (Memory.ofBytes fun _ => 0)).clientRun? sizedRun =
            some session :=
    ⟨_, rfl⟩
  have guarded :
      Transition.EachStep Session.clientStep? Session.AllocFits
        (Session.start onePageArena (Memory.ofBytes fun _ => 0))
        sizedRun := by
    decide
  have sums : SumsFit session.arena (3000 : UInt64).toNat := by
    have ended :
        ((Session.start onePageArena
          (Memory.ofBytes fun _ => 0)).clientRun? sizedRun).all
            (fun session =>
              SumsFit session.arena (3000 : UInt64).toNat) = true := by
      decide
    simp only [ran, Option.all_some] at ended
    exact of_decide_eq_true ended
  obtain ⟨exact, later⟩ := allocArithmetic_exact _ _ _ _ ran
  exact ⟨session, ran, exact.mpr guarded, (later guarded 3000).mpr sums⟩

/-- The largest request wraps to an empty block and is granted. -/
theorem alloc_wraps_largest :
    ¬ AllocSpec
        (Session.start onePageArena (Memory.ofBytes fun _ => 0))
        18446744073709551615 := by
  intro spec
  obtain ⟨failed, _, _⟩ := spec.refused (by decide)
  exact absurd failed (by decide)

end FailurePlayground.Arena
