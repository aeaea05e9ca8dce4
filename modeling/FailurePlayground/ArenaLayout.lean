import FailurePlayground.Arena

namespace FailurePlayground.Arena

/-!
# The block layout as an invariant

`Laid` ties the bytes of a region to a list of the blocks handed out so far.
The list is ghost data: it records what `chaosArenaAlloc` returned and what the
client asked for, never what the arena stores.
-/

/-- One pointer returned by `chaosArenaAlloc`, with the request behind it. -/
structure Returned where
  user : Nat
  size : Nat
  freed : Bool
  deriving Repr, DecidableEq

/-- Bytes taken by a block whose request does not wrap. -/
def blockBytes (size : Nat) : Nat :=
  40 + (size + 7) / 8 * 8

/-- The magic word a block carries, by its freed flag. -/
def magicOf (freed : Bool) : Nat :=
  if freed then arenaMagicFree else arenaMagicLive

/-- A header and two intact redzones for `block` at offset `off`. -/
structure BlockAt
    (base : Nat)
    (memory : Memory)
    (off : Nat)
    (block : Returned) : Prop where
  userAddress : block.user = base + off + 24
  sizeBounded : block.size < 2 ^ 32
  magic : memory.word32 (base + off) = magicOf block.freed
  storedSize : memory.word32 (base + off + 4) = block.size
  preRedzone :
    ∀ index, index < 16 →
      memory.byte (base + off + 8 + index) = redzoneByte
  postRedzone :
    ∀ index, index < 16 →
      memory.byte
        (base + off + 24 + (block.size + 7) / 8 * 8 + index) =
          redzoneByte

/-- The blocks lie back to back from one offset to another. -/
inductive Laid (base : Nat) (memory : Memory) :
    Nat → List Returned → Nat → Prop where
  | nil (off : Nat) :
      Laid base memory off [] off
  | cons
      {off stop : Nat}
      {block : Returned}
      {rest : List Returned}
      (here : BlockAt base memory off block)
      (later : Laid base memory (off + blockBytes block.size) rest stop) :
      Laid base memory off (block :: rest) stop

/-- Without wrap-around, `round8` is plain rounding. -/
theorem round8_eq
    {n : Nat}
    (bounded : n < 2 ^ 63) :
    round8 n = (n + 7) / 8 * 8 := by
  unfold round8 sizeT
  omega

/-- Without wrap-around, `blockTotal` is the size of the layout. -/
theorem blockTotal_eq
    {n : Nat}
    (bounded : n < 2 ^ 62) :
    blockTotal n = blockBytes n := by
  have rounded : round8 n = (n + 7) / 8 * 8 :=
    round8_eq (by omega)
  unfold blockTotal blockBytes blockHdrSize redzoneSize sizeT
  rw [rounded]
  omega

namespace BlockAt

/-- A block survives any change outside its header and redzones. -/
theorem congr
    {base off : Nat}
    {before after : Memory}
    {block : Returned}
    (here : BlockAt base before off block)
    (sameHead :
      ∀ address, base + off ≤ address → address < base + off + 24 →
        after.byte address = before.byte address)
    (samePost :
      ∀ address,
        base + off + 24 + (block.size + 7) / 8 * 8 ≤ address →
        address < base + off + blockBytes block.size →
        after.byte address = before.byte address) :
    BlockAt base after off block where
  userAddress := here.userAddress
  sizeBounded := here.sizeBounded
  magic := by
    rw [← here.magic]
    apply Memory.word32_congr
    intro index inside
    exact sameHead _ (by omega) (by omega)
  storedSize := by
    rw [← here.storedSize]
    apply Memory.word32_congr
    intro index inside
    exact sameHead _ (by omega) (by omega)
  preRedzone := by
    intro index inside
    rw [sameHead _ (by omega) (by omega)]
    exact here.preRedzone index inside
  postRedzone := by
    intro index inside
    rw [samePost _ (by omega) (by unfold blockBytes; omega)]
    exact here.postRedzone index inside

end BlockAt

namespace Laid

/-- A layout only moves forward. -/
theorem start_le_stop
    {base off stop : Nat}
    {memory : Memory}
    {blocks : List Returned}
    (laid : Laid base memory off blocks stop) :
    off ≤ stop := by
  induction laid with
  | nil off =>
      exact Nat.le_refl off
  | cons here later inductionHypothesis =>
      exact Nat.le_trans (Nat.le_add_right _ _) inductionHypothesis

/-- Every block takes at least forty bytes. -/
theorem length_le
    {base off stop : Nat}
    {memory : Memory}
    {blocks : List Returned}
    (laid : Laid base memory off blocks stop) :
    off + 40 * blocks.length ≤ stop := by
  induction laid with
  | nil off =>
      simp
  | cons here later inductionHypothesis =>
      simp only [blockBytes, List.length_cons] at inductionHypothesis ⊢
      omega

/-- A layout survives any change outside its byte range. -/
theorem congr
    {base off stop : Nat}
    {before after : Memory}
    {blocks : List Returned}
    (laid : Laid base before off blocks stop)
    (same :
      ∀ address, base + off ≤ address → address < base + stop →
        after.byte address = before.byte address) :
    Laid base after off blocks stop := by
  induction laid with
  | nil off =>
      exact .nil off
  | cons here later inductionHypothesis =>
      have forward := later.start_le_stop
      refine .cons (here.congr ?_ ?_) (inductionHypothesis ?_)
      · intro address lower upper
        unfold blockBytes at forward
        exact same address lower (by omega)
      · intro address lower upper
        exact same address (by omega) (by omega)
      · intro address lower upper
        exact same address (by omega) upper

/-- Layouts concatenate. -/
theorem append
    {base off middle stop : Nat}
    {memory : Memory}
    {first second : List Returned}
    (laidFirst : Laid base memory off first middle)
    (laidSecond : Laid base memory middle second stop) :
    Laid base memory off (first ++ second) stop := by
  induction laidFirst with
  | nil off =>
      exact laidSecond
  | cons here later inductionHypothesis =>
      exact .cons here (inductionHypothesis laidSecond)

/-- The block at a list position, with the room the layout gives it. -/
theorem getElem?
    {base off stop index : Nat}
    {memory : Memory}
    {blocks : List Returned}
    {block : Returned}
    (laid : Laid base memory off blocks stop)
    (found : blocks[index]? = some block) :
    ∃ start,
      off ≤ start ∧
        start + blockBytes block.size ≤ stop ∧
        BlockAt base memory start block := by
  induction laid generalizing index with
  | nil off =>
      simp at found
  | @cons off stop head rest here later inductionHypothesis =>
      cases index with
      | zero =>
          simp only [List.getElem?_cons_zero, Option.some.injEq] at found
          subst found
          exact ⟨off, Nat.le_refl off, later.start_le_stop, here⟩
      | succ index =>
          simp only [List.getElem?_cons_succ] at found
          obtain ⟨start, lower, upper, blockHere⟩ :=
            inductionHypothesis found
          exact ⟨start, by omega, upper, blockHere⟩

/--
Rewriting one block in place keeps the layout: only bytes of that block may
change, and the new bytes must again form a block of the same size there.
-/
theorem set
    {base off stop index : Nat}
    {before after : Memory}
    {blocks : List Returned}
    {old new : Returned}
    (laid : Laid base before off blocks stop)
    (found : blocks[index]? = some old)
    (sameSize : new.size = old.size)
    (rewritten :
      ∀ start, BlockAt base before start old → BlockAt base after start new)
    (frame :
      ∀ address,
        address < old.user - 24 ∨
          old.user - 24 + blockBytes old.size ≤ address →
        after.byte address = before.byte address) :
    Laid base after off (blocks.set index new) stop := by
  induction laid generalizing index with
  | nil off =>
      simp at found
  | @cons off stop head rest here later inductionHypothesis =>
      cases index with
      | zero =>
          simp only [List.getElem?_cons_zero, Option.some.injEq] at found
          subst found
          have address := here.userAddress
          rw [List.set_cons_zero]
          refine .cons (rewritten off here) ?_
          rw [sameSize]
          apply later.congr
          intro query lower upper
          exact frame query (by omega)
      | succ index =>
          simp only [List.getElem?_cons_succ] at found
          obtain ⟨start, lower, upper, oldHere⟩ := later.getElem? found
          have address := oldHere.userAddress
          have room : off + 40 ≤ start := by
            unfold blockBytes at lower
            omega
          rw [List.set_cons_succ]
          refine .cons (here.congr ?_ ?_) (inductionHypothesis found)
          · intro query queryLower queryUpper
            exact frame query (by omega)
          · intro query queryLower queryUpper
            exact frame query (by omega)

end Laid

end FailurePlayground.Arena
