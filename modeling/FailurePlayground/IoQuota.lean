import Mathlib.Algebra.Order.BigOperators.Group.Finset
import FailurePlayground.ChaosIo
import FailurePlayground.Lib.Parties
import FailurePlayground.Lib.Transition

namespace FailurePlayground.ChaosIo

/-!
# Concurrent writers and the quota

Any number of threads call `chaos_io_write` on one descriptor.  A call takes
three steps: the locked check, the kernel's write, and the locked accounting.
Bytes between the first and the last step are in flight: the quota does not
see them.
-/

/-- What `chaos_io_write` returns. -/
inductive WriteReturn where
  | bytes (w : UInt64)
  | enospc
  | failed
  deriving Repr, DecidableEq

/-- Where a thread stands in `chaos_io_write`. -/
inductive Phase where
  | idle
  | checked (want : UInt64)
  | wrote (w : UInt64)
  deriving Repr, DecidableEq

/-- A thread and what its last call returned. -/
structure Caller where
  phase : Phase
  returned : Option WriteReturn
  deriving Repr, DecidableEq

namespace Caller

/-- Bytes a call may still put or has put in the file, not yet accounted. -/
def inFlight (caller : Caller) : Nat :=
  match caller.phase with
  | .idle => 0
  | .checked want => want.toNat
  | .wrote w => w.toNat

/-- Bytes a call has put in the file, not yet accounted. -/
def unaccounted (caller : Caller) : Nat :=
  match caller.phase with
  | .idle | .checked _ => 0
  | .wrote w => w.toNat

end Caller

/-- The table, the descriptor written to, the threads and the file's bytes. -/
structure State (n : Nat) where
  slots : Slots
  fd : Int
  callers : Fin n → Caller
  accepted : Nat

/-- One step of one call. -/
inductive Label (n : Nat) where
  | check (thread : Fin n) (size : UInt64)
  | kernelWrites (thread : Fin n) (w : UInt64)
  | kernelFails (thread : Fin n)
  | account (thread : Fin n)
  deriving Repr, DecidableEq

namespace State

variable {n : Nat}

/-- Replace one thread. -/
def setCaller
    (state : State n)
    (thread : Fin n)
    (caller : Caller) : State n :=
  { state with
    callers := Function.update state.callers thread caller }

/-- Execute one enabled label. -/
def step? (state : State n) : Label n → Option (State n)
  | .check thread size =>
      match (state.callers thread).phase with
      | .idle =>
          match chaosIoWriteCheck state.slots state.fd size with
          | none =>
              some (state.setCaller thread
                { phase := .idle, returned := some .enospc })
          | some want =>
              some (state.setCaller thread
                { phase := .checked want, returned := none })
      | _ => none
  | .kernelWrites thread w =>
      match (state.callers thread).phase with
      | .checked want =>
          if want < w then
            none
          else if 0 < w then
            some (
              { state with
                accepted := state.accepted + w.toNat }.setCaller thread
                { phase := .wrote w, returned := none })
          else
            some (state.setCaller thread
              { phase := .idle, returned := some (.bytes 0) })
      | _ => none
  | .kernelFails thread =>
      match (state.callers thread).phase with
      | .checked _ =>
          some (state.setCaller thread
            { phase := .idle, returned := some .failed })
      | _ => none
  | .account thread =>
      match (state.callers thread).phase with
      | .wrote w =>
          some (
            { state with
              slots :=
                chaosIoWriteAccount state.slots state.fd w }.setCaller
              thread
              { phase := .idle, returned := some (.bytes w) })
      | _ => none

/-- Execute a finite interleaving. -/
abbrev run? : State n → List (Label n) → Option (State n) :=
  Transition.run? step?

/-- No thread is writing yet, and the file is empty. -/
def start (slots : Slots) (fd : Int) : State n where
  slots := slots
  fd := fd
  callers := fun _ => { phase := .idle, returned := none }
  accepted := 0

/-- The bytes in flight over all threads. -/
def inFlight (state : State n) : Nat :=
  ∑ thread, (state.callers thread).inFlight

/-- The bytes in the file that the quota has not seen. -/
def unaccounted (state : State n) : Nat :=
  ∑ thread, (state.callers thread).unaccounted

/-- The slot of the descriptor written to. -/
def slot? (state : State n) : Option IoSlot :=
  (findLocked state.slots state.fd).map state.slots

/--
A check that passes finds nothing in flight, or finds that what is in flight
and its own request fit into what the quota leaves, before the file is full.
-/
def admits (state : State n) : Label n → Prop
  | .check _ size =>
      ∀ slot ∈ state.slot?,
        slot.quota ≤ slot.bytesWritten ∨
          state.inFlight = 0 ∨
          (slot.bytesWritten.toNat + state.inFlight +
                (cutPartial slot size).toNat ≤ slot.quota.toNat ∧
            state.accepted < slot.quota.toNat)
  | _ =>
      True

instance (state : State n) (label : Label n) :
    Decidable (state.admits label) :=
  match label with
  | .check _ _ =>
      inferInstanceAs (Decidable (∀ slot ∈ state.slot?, _ ∨ _ ∨ _ ∧ _))
  | .kernelWrites _ _ | .kernelFails _ | .account _ =>
      inferInstanceAs (Decidable True)

end State

/-- An open descriptor with a quota and nothing written to it yet. -/
structure QuotaSet
    (slots : Slots)
    (fd : Int)
    (index : Fin ioSlotsMax)
    (quota : UInt64) : Prop where
  found : findLocked slots fd = some index
  limit : (slots index).quota = quota
  positive : 0 < quota
  fresh : (slots index).bytesWritten = 0

section Table

/-- A change that keeps a slot's descriptor and use keeps the table's map. -/
theorem findLocked_updateSlot
    (slots : Slots)
    (fd other : Int)
    {change : IoSlot → IoSlot}
    (sameFd : ∀ slot, (change slot).fd = slot.fd)
    (sameUse : ∀ slot, (change slot).inUse = slot.inUse) :
    findLocked (updateSlot slots fd change) other =
      findLocked slots other := by
  have each (index : Fin ioSlotsMax) :
      ((updateSlot slots fd change index).inUse,
          (updateSlot slots fd change index).fd) =
        ((slots index).inUse, (slots index).fd) := by
    cases found : findLocked slots fd with
    | none =>
        simp only [updateSlot, found]
    | some changed =>
        simp only [updateSlot, found]
        by_cases same : index = changed
        · subst same
          simp only [Function.update_self, sameFd, sameUse]
        · simp only [Function.update_of_ne same]
  unfold findLocked
  congr 1
  funext index
  have fields := each index
  rw [Prod.mk.injEq] at fields
  rw [fields.1, fields.2]

/-- Accounting keeps the table's map. -/
theorem findLocked_account
    (slots : Slots)
    (fd : Int)
    (w : UInt64) :
    findLocked (chaosIoWriteAccount slots fd w) fd =
      findLocked slots fd :=
  findLocked_updateSlot slots fd fd (fun _ => rfl) (fun _ => rfl)

/-- Accounting adds to the bytes written of the slot found. -/
theorem slot_account
    {slots : Slots}
    {fd : Int}
    {index : Fin ioSlotsMax}
    (found : findLocked slots fd = some index)
    (w : UInt64) :
    chaosIoWriteAccount slots fd w index =
      { slots index with
        bytesWritten := (slots index).bytesWritten + w } := by
  simp only [chaosIoWriteAccount, updateSlot, found,
    Function.update_self]

/-- A cut never enlarges a request. -/
theorem cutPartial_le (slot : IoSlot) (want : UInt64) :
    cutPartial slot want ≤ want := by
  unfold cutPartial
  split
  · rename_i cut
    exact UInt64.le_of_lt cut.2
  · exact UInt64.le_refl want

/-- A smaller request is cut to no more. -/
theorem cutPartial_mono
    (slot : IoSlot)
    {first second : UInt64}
    (le : first ≤ second) :
    cutPartial slot first ≤ cutPartial slot second := by
  unfold cutPartial
  split
  · rename_i firstCut
    have alsoCut : slot.partialMax > 0 ∧ second > slot.partialMax :=
      ⟨firstCut.1, UInt64.lt_of_lt_of_le firstCut.2 le⟩
    rw [if_pos alsoCut]
    exact UInt64.le_refl _
  · rename_i firstWhole
    split
    · rename_i secondCut
      exact UInt64.not_lt.mp fun cut => firstWhole ⟨secondCut.1, cut⟩
    · exact le

end Table

section Check

variable
  {slots : Slots}
  {fd : Int}
  {index : Fin ioSlotsMax}

/-- A check refuses when the bytes written have reached the quota. -/
theorem chaosIoWriteCheck_full
    (found : findLocked slots fd = some index)
    (positive : 0 < (slots index).quota)
    (full : (slots index).quota ≤ (slots index).bytesWritten)
    (size : UInt64) :
    chaosIoWriteCheck slots fd size = none := by
  simp only [chaosIoWriteCheck, found, gt_iff_lt, positive, ge_iff_le,
    full, ↓reduceIte]

/-- A cut request is the whole request or what the cut leaves of less. -/
theorem cutPartial_of_lt
    (slot : IoSlot)
    {rem size : UInt64}
    (more : rem < size) :
    cutPartial slot rem = cutPartial slot size ∨
      cutPartial slot rem = rem := by
  by_cases cut : slot.partialMax > 0 ∧ rem > slot.partialMax
  · have alsoCut : slot.partialMax > 0 ∧ size > slot.partialMax :=
      ⟨cut.1, UInt64.lt_trans cut.2 more⟩
    left
    rw [cutPartial, cutPartial, if_pos cut, if_pos alsoCut]
  · right
    rw [cutPartial, if_neg cut]

/-- Otherwise it passes a request that fits into what is left. -/
theorem chaosIoWriteCheck_room
    (found : findLocked slots fd = some index)
    (room : (slots index).bytesWritten < (slots index).quota)
    (size : UInt64) :
    ∃ want,
      chaosIoWriteCheck slots fd size = some want ∧
        (slots index).bytesWritten.toNat + want.toNat ≤
          (slots index).quota.toNat ∧
        want ≤ cutPartial (slots index) size ∧
        (want = cutPartial (slots index) size ∨
          (slots index).bytesWritten.toNat + want.toNat =
            (slots index).quota.toNat) := by
  have positive : 0 < (slots index).quota :=
    UInt64.lt_of_le_of_lt (UInt64.zero_le) room
  have notFull :
      ¬ (slots index).quota ≤ (slots index).bytesWritten :=
    UInt64.not_le.mpr room
  have left :
      ((slots index).quota - (slots index).bytesWritten).toNat =
        (slots index).quota.toNat -
          (slots index).bytesWritten.toNat :=
    UInt64.toNat_sub_of_le _ _ (UInt64.le_of_lt room)
  have below := UInt64.lt_iff_toNat_lt.mp room
  by_cases more :
      (slots index).quota - (slots index).bytesWritten < size
  · refine ⟨cutPartial (slots index)
      ((slots index).quota - (slots index).bytesWritten),
      ?_, ?_, ?_, ?_⟩
    · simp only [chaosIoWriteCheck, found, gt_iff_lt, positive,
        ge_iff_le, notFull, more, ↓reduceIte]
    · have cut := UInt64.le_iff_toNat_le.mp
        (cutPartial_le (slots index)
          ((slots index).quota - (slots index).bytesWritten))
      omega
    · exact cutPartial_mono (slots index) (UInt64.le_of_lt more)
    · rcases cutPartial_of_lt (slots index) more with whole | remains
      · exact Or.inl whole
      · refine Or.inr ?_
        rw [remains]
        omega
  · refine ⟨cutPartial (slots index) size, ?_, ?_, ?_, ?_⟩
    · simp only [chaosIoWriteCheck, found, gt_iff_lt, positive,
        ge_iff_le, notFull, more, ↓reduceIte]
    · have cut := UInt64.le_iff_toNat_le.mp
        (cutPartial_le (slots index) size)
      have fits := UInt64.le_iff_toNat_le.mp (UInt64.not_lt.mp more)
      omega
    · exact UInt64.le_refl _
    · exact Or.inl rfl

end Check

section Invariant

variable
  {n : Nat}
  {index : Fin ioSlotsMax}
  {quota : UInt64}
  {state next : State n}

/-- The quota's books: what is written and in flight stays within it. -/
structure Accounted
    (index : Fin ioSlotsMax)
    (quota : UInt64)
    (state : State n) : Prop where
  found : findLocked state.slots state.fd = some index
  limit : (state.slots index).quota = quota
  positive : 0 < quota
  reserved :
    (state.slots index).bytesWritten.toNat + state.inFlight ≤
      quota.toNat
  accepted :
    state.accepted =
      (state.slots index).bytesWritten.toNat + state.unaccounted

/-- A fresh descriptor owes nothing. -/
theorem accounted_start
    {slots : Slots}
    {fd : Int}
    (quotaSet : QuotaSet slots fd index quota) :
    Accounted index quota (State.start slots fd : State n) where
  found := quotaSet.found
  limit := quotaSet.limit
  positive := quotaSet.positive
  reserved := by
    simp [State.start, State.inFlight, Caller.inFlight,
      quotaSet.fresh]
  accepted := by
    simp [State.start, State.unaccounted, Caller.unaccounted,
      quotaSet.fresh]

/-- Replacing a thread replaces what it has in flight. -/
theorem inFlight_setCaller
    (state : State n)
    (thread : Fin n)
    (caller : Caller) :
    (state.setCaller thread caller).inFlight +
        (state.callers thread).inFlight =
      state.inFlight + caller.inFlight :=
  Parties.sum_update state.callers thread caller Caller.inFlight

/-- Replacing a thread replaces what it has unaccounted. -/
theorem unaccounted_setCaller
    (state : State n)
    (thread : Fin n)
    (caller : Caller) :
    (state.setCaller thread caller).unaccounted +
        (state.callers thread).unaccounted =
      state.unaccounted + caller.unaccounted :=
  Parties.sum_update state.callers thread caller Caller.unaccounted

/-- The slot found is the descriptor's. -/
theorem slot?_of_found
    (found : findLocked state.slots state.fd = some index) :
    state.slot? = some (state.slots index) := by
  rw [State.slot?, found, Option.map_some]

/-- A check refuses, or sends its cut request on its way. -/
theorem step?_check
    {thread : Fin n}
    {size : UInt64}
    (stepped : state.step? (.check thread size) = some next) :
    (state.callers thread).phase = .idle ∧
      ((chaosIoWriteCheck state.slots state.fd size = none ∧
          next =
            state.setCaller thread
              { phase := .idle, returned := some .enospc }) ∨
        ∃ want,
          chaosIoWriteCheck state.slots state.fd size = some want ∧
            next =
              state.setCaller thread
                { phase := .checked want, returned := none }) := by
  simp only [State.step?] at stepped
  split at stepped
  · rename_i idle
    split at stepped
    · rename_i refused
      exact ⟨idle, Or.inl ⟨refused, (Option.some.inj stepped).symm⟩⟩
    · rename_i want passed
      exact ⟨idle,
        Or.inr ⟨want, passed, (Option.some.inj stepped).symm⟩⟩
  · exact absurd stepped (by simp)

/-- The kernel takes some of the request, or none of it. -/
theorem step?_kernelWrites
    {thread : Fin n}
    {w : UInt64}
    (stepped : state.step? (.kernelWrites thread w) = some next) :
    ∃ want,
      (state.callers thread).phase = .checked want ∧
        w.toNat ≤ want.toNat ∧
        ((0 < w ∧
            next =
              { state with
                accepted := state.accepted + w.toNat }.setCaller thread
                { phase := .wrote w, returned := none }) ∨
          (w = 0 ∧
            next =
              state.setCaller thread
                { phase := .idle,
                  returned := some (.bytes 0) })) := by
  simp only [State.step?] at stepped
  split at stepped
  · rename_i want checked
    split at stepped
    · exact absurd stepped (by simp)
    · rename_i notMore
      have within :=
        UInt64.le_iff_toNat_le.mp (UInt64.not_lt.mp notMore)
      split at stepped
      · rename_i positive
        exact ⟨want, checked, within,
          Or.inl ⟨positive, (Option.some.inj stepped).symm⟩⟩
      · rename_i none
        refine ⟨want, checked, within,
          Or.inr ⟨?_, (Option.some.inj stepped).symm⟩⟩
        have zero := UInt64.le_iff_toNat_le.mp (UInt64.not_lt.mp none)
        exact UInt64.toNat_inj.mp (Nat.le_zero.mp zero)
  · exact absurd stepped (by simp)

/-- A failed write returns. -/
theorem step?_kernelFails
    {thread : Fin n}
    (stepped : state.step? (.kernelFails thread) = some next) :
    ∃ want,
      (state.callers thread).phase = .checked want ∧
        next =
          state.setCaller thread
            { phase := .idle, returned := some .failed } := by
  simp only [State.step?] at stepped
  split at stepped
  · rename_i want checked
    exact ⟨want, checked, (Option.some.inj stepped).symm⟩
  · exact absurd stepped (by simp)

/-- Accounting ends a call. -/
theorem step?_account
    {thread : Fin n}
    (stepped : state.step? (.account thread) = some next) :
    ∃ w,
      (state.callers thread).phase = .wrote w ∧
        next =
          { state with
            slots :=
              chaosIoWriteAccount state.slots state.fd w }.setCaller
            thread
            { phase := .idle, returned := some (.bytes w) } := by
  simp only [State.step?] at stepped
  split at stepped
  · rename_i w wrote
    exact ⟨w, wrote, (Option.some.inj stepped).symm⟩
  · exact absurd stepped (by simp)

/-- Replacing a thread within the reserve keeps the books. -/
theorem Accounted.setCaller
    (accounted : Accounted index quota state)
    {thread : Fin n}
    {caller : Caller}
    (fits :
      (state.slots index).bytesWritten.toNat + state.inFlight +
          caller.inFlight ≤
        quota.toNat + (state.callers thread).inFlight)
    (same :
      caller.unaccounted = (state.callers thread).unaccounted) :
    Accounted index quota (state.setCaller thread caller) := by
  have inFlight := inFlight_setCaller state thread caller
  have unaccounted := unaccounted_setCaller state thread caller
  exact {
    found := accounted.found
    limit := accounted.limit
    positive := accounted.positive
    reserved := by
      show (state.slots index).bytesWritten.toNat + _ ≤ _
      omega
    accepted := by
      have accepted := accounted.accepted
      show state.accepted =
        (state.slots index).bytesWritten.toNat + _
      omega
  }

/-- An admitted request is let through within the reserve. -/
theorem Accounted.checked
    (accounted : Accounted index quota state)
    {thread : Fin n}
    {size want : UInt64}
    (admitted : state.admits (.check thread size))
    (idle : (state.callers thread).phase = .idle)
    (passes :
      chaosIoWriteCheck state.slots state.fd size = some want) :
    Accounted index quota
      (state.setCaller thread
        { phase := .checked want, returned := none }) := by
  have reserved := accounted.reserved
  have room :
      (state.slots index).bytesWritten <
        (state.slots index).quota := by
    refine UInt64.not_le.mp fun full => ?_
    rw [chaosIoWriteCheck_full accounted.found
      (accounted.limit.symm ▸ accounted.positive) full]
      at passes
    exact absurd passes (by simp)
  obtain ⟨want', passes', fits, cut, _⟩ :=
    chaosIoWriteCheck_room accounted.found room size
  obtain rfl : want = want' :=
    Option.some.inj (passes.symm.trans passes')
  have admittedSlot :=
    admitted _ (slot?_of_found accounted.found)
  rw [accounted.limit] at admittedSlot fits room
  have cutNat := UInt64.le_iff_toNat_le.mp cut
  refine accounted.setCaller ?_ ?_
  · simp only [Caller.inFlight, idle]
    rcases admittedSlot with full | quiet | reservedToo
    · exact absurd full (UInt64.not_le.mpr room)
    · omega
    · omega
  · simp only [Caller.unaccounted, idle]

/-- What the kernel takes was reserved. -/
theorem Accounted.wrote
    (accounted : Accounted index quota state)
    {thread : Fin n}
    {want w : UInt64}
    (checked : (state.callers thread).phase = .checked want)
    (within : w.toNat ≤ want.toNat) :
    Accounted index quota
      ({ state with
        accepted := state.accepted + w.toNat }.setCaller thread
          { phase := .wrote w, returned := none }) := by
  have inFlight := inFlight_setCaller state thread
    { phase := .wrote w, returned := none }
  have unaccounted := unaccounted_setCaller state thread
    { phase := .wrote w, returned := none }
  simp only [Caller.inFlight, checked] at inFlight
  simp only [Caller.unaccounted, checked] at unaccounted
  have reserved := accounted.reserved
  have accepted := accounted.accepted
  exact {
    found := accounted.found
    limit := accounted.limit
    positive := accounted.positive
    reserved := by
      show (state.slots index).bytesWritten.toNat +
        (state.setCaller thread _).inFlight ≤ _
      omega
    accepted := by
      show state.accepted + w.toNat =
        (state.slots index).bytesWritten.toNat +
          (state.setCaller thread _).unaccounted
      omega
  }

/-- Accounting moves what was in flight to the counter. -/
theorem Accounted.account
    (accounted : Accounted index quota state)
    {thread : Fin n}
    {w : UInt64}
    (wrote : (state.callers thread).phase = .wrote w) :
    Accounted index quota
      ({ state with
        slots :=
          chaosIoWriteAccount state.slots state.fd w }.setCaller thread
            { phase := .idle, returned := some (.bytes w) }) := by
  have inFlight := inFlight_setCaller state thread
    { phase := .idle, returned := some (.bytes w) }
  have unaccounted := unaccounted_setCaller state thread
    { phase := .idle, returned := some (.bytes w) }
  simp only [Caller.inFlight, wrote] at inFlight
  simp only [Caller.unaccounted, wrote] at unaccounted
  have reserved := accounted.reserved
  have accepted := accounted.accepted
  -- The bytes accounted were in flight, so the counter cannot wrap.
  have added :
      ((state.slots index).bytesWritten + w).toNat =
        (state.slots index).bytesWritten.toNat + w.toNat := by
    have bounded := quota.toNat_lt
    rw [UInt64.toNat_add]
    exact Nat.mod_eq_of_lt (by omega)
  have slot := slot_account accounted.found w
  have written := congrArg IoSlot.bytesWritten slot
  exact {
    found := (findLocked_account state.slots state.fd w).trans
      accounted.found
    limit := (congrArg IoSlot.quota slot).trans accounted.limit
    positive := accounted.positive
    reserved := by
      show (chaosIoWriteAccount state.slots state.fd w
          index).bytesWritten.toNat +
        (state.setCaller thread _).inFlight ≤ _
      rw [written]
      show ((state.slots index).bytesWritten + w).toNat + _ ≤ _
      omega
    accepted := by
      show state.accepted =
        (chaosIoWriteAccount state.slots state.fd w
            index).bytesWritten.toNat +
          (state.setCaller thread _).unaccounted
      rw [written]
      show state.accepted =
        ((state.slots index).bytesWritten + w).toNat + _
      omega
  }

/-- Every admitted step keeps the books. -/
theorem Accounted.step
    (accounted : Accounted index quota state)
    {label : Label n}
    (admitted : state.admits label)
    (stepped : state.step? label = some next) :
    Accounted index quota next := by
  have reserved := accounted.reserved
  cases label with
  | check thread size =>
      obtain ⟨idle, refused | passed⟩ := step?_check stepped
      · obtain ⟨_, rfl⟩ := refused
        refine accounted.setCaller ?_ ?_
        · simp only [Caller.inFlight, idle]
          omega
        · simp only [Caller.unaccounted, idle]
      · obtain ⟨want, passes, rfl⟩ := passed
        exact accounted.checked admitted idle passes
  | kernelWrites thread w =>
      obtain ⟨want, checked, within, took | nothing⟩ :=
        step?_kernelWrites stepped
      · obtain ⟨_, rfl⟩ := took
        exact accounted.wrote checked within
      · obtain ⟨_, rfl⟩ := nothing
        refine accounted.setCaller ?_ ?_
        · simp only [Caller.inFlight, checked]
          omega
        · simp only [Caller.unaccounted, checked]
  | kernelFails thread =>
      obtain ⟨want, checked, rfl⟩ := step?_kernelFails stepped
      refine accounted.setCaller ?_ ?_
      · simp only [Caller.inFlight, checked]
        omega
      · simp only [Caller.unaccounted, checked]
  | account thread =>
      obtain ⟨w, wrote, rfl⟩ := step?_account stepped
      exact accounted.account wrote

end Invariant

section Overrun

variable
  {n : Nat}
  {index : Fin ioSlotsMax}
  {quota : UInt64}
  {state next : State n}

/-- More is in flight than the quota leaves. -/
structure Overrunning
    (index : Fin ioSlotsMax)
    (quota : UInt64)
    (state : State n) : Prop where
  overruns :
    quota.toNat <
      (state.slots index).bytesWritten.toNat + state.inFlight
  accepted :
    state.accepted =
      (state.slots index).bytesWritten.toNat + state.unaccounted

/-- Whether the kernel has still to be asked. -/
def Caller.asking (caller : Caller) : Nat :=
  match caller.phase with
  | .checked _ => 1
  | .idle | .wrote _ => 0

/-- With nothing left to ask, all that is in flight is in the file. -/
theorem Overrunning.exceeds
    (overrunning : Overrunning index quota state)
    (asked : ∀ thread, (state.callers thread).asking = 0) :
    quota.toNat < state.accepted := by
  have same : state.unaccounted = state.inFlight := by
    refine Finset.sum_congr rfl fun thread _ => ?_
    have answered := asked thread
    cases phase : (state.callers thread).phase with
    | idle | wrote w =>
        simp only [Caller.unaccounted, Caller.inFlight, phase]
    | checked want =>
        simp only [Caller.asking, phase] at answered
        omega
  have overruns := overrunning.overruns
  rw [overrunning.accepted, same]
  exact overruns

/-- The kernel may take all that a thread asks for. -/
theorem Overrunning.asked
    {thread : Fin n}
    {want : UInt64}
    (overrunning : Overrunning index quota state)
    (checked : (state.callers thread).phase = .checked want)
    (caller : Caller)
    (flies : caller.inFlight = want.toNat)
    (written : caller.unaccounted = want.toNat)
    (answered : caller.asking = 0) :
    Overrunning index quota
        ({ state with
          accepted := state.accepted + want.toNat }.setCaller thread
            caller) ∧
      (∑ other, ((state.setCaller thread caller).callers other).asking) <
        ∑ other, (state.callers other).asking := by
  have overruns := overrunning.overruns
  have accepted := overrunning.accepted
  have inFlight := inFlight_setCaller state thread caller
  have unaccounted := unaccounted_setCaller state thread caller
  have asking :=
    Parties.sum_update state.callers thread caller Caller.asking
  have inFlightBefore : (state.callers thread).inFlight = want.toNat := by
    simp only [Caller.inFlight, checked]
  have unaccountedBefore : (state.callers thread).unaccounted = 0 := by
    simp only [Caller.unaccounted, checked]
  have askingBefore : (state.callers thread).asking = 1 := by
    simp only [Caller.asking, checked]
  rw [askingBefore, answered] at asking
  refine ⟨⟨?_, ?_⟩, Nat.lt_of_succ_le (Nat.le_of_eq asking)⟩
  · show quota.toNat < (state.slots index).bytesWritten.toNat +
      (state.setCaller thread caller).inFlight
    omega
  · show state.accepted + want.toNat =
      (state.slots index).bytesWritten.toNat +
        (state.setCaller thread caller).unaccounted
    omega

/-- While some thread has to ask, the kernel may take all it asks for. -/
theorem Overrunning.progress
    (overrunning : Overrunning index quota state)
    (within : ¬ quota.toNat < state.accepted) :
    ∃ label next,
      state.step? label = some next ∧
        Overrunning index quota next ∧
        (quota.toNat < next.accepted ∨
          (∑ thread, (next.callers thread).asking) <
            ∑ thread, (state.callers thread).asking) := by
  have someAsks :
      ∃ thread want, (state.callers thread).phase = .checked want := by
    refine not_forall_not.mp fun none => within ?_
    refine overrunning.exceeds fun thread => ?_
    cases phase : (state.callers thread).phase with
    | idle | wrote w =>
        simp only [Caller.asking, phase]
    | checked want =>
        exact absurd ⟨want, phase⟩ (none thread)
  obtain ⟨thread, want, checked⟩ := someAsks
  by_cases positive : 0 < want
  · obtain ⟨holds, fewer⟩ :=
      overrunning.asked checked
        { phase := .wrote want, returned := none } rfl rfl rfl
    refine ⟨.kernelWrites thread want, _, ?_, holds, Or.inr fewer⟩
    simp [State.step?, checked, positive]
  · have zero : want = 0 := by
      have none := UInt64.le_iff_toNat_le.mp (UInt64.not_lt.mp positive)
      exact UInt64.toNat_inj.mp (Nat.le_zero.mp none)
    subst zero
    obtain ⟨holds, fewer⟩ :=
      overrunning.asked checked
        { phase := .idle, returned := some (.bytes 0) } rfl rfl rfl
    refine ⟨.kernelWrites thread 0, _, ?_, holds, Or.inr fewer⟩
    simp [State.step?, checked]

/-- An overrunning state can reach a file larger than the quota. -/
theorem Overrunning.exists_run_exceeds
    (overrunning : Overrunning index quota state) :
    ∃ labels final,
      state.run? labels = some final ∧
        quota.toNat < final.accepted := by
  obtain ⟨labels, final, ran, _, exceeded⟩ :=
    Transition.exists_run_to_goal
      (fun state : State n =>
        ∑ thread, (state.callers thread).asking)
      (fun _ holds within => Overrunning.progress holds within)
      overrunning
  exact ⟨labels, final, ran, exceeded⟩

/-- A check that should not pass refuses nothing. -/
theorem Accounted.careless
    (accounted : Accounted index quota state)
    {thread : Fin n}
    {size : UInt64}
    (stepped : state.step? (.check thread size) = some next)
    (careless : ¬ state.admits (.check thread size)) :
    (∃ later final,
        next.run? later = some final ∧
          quota.toNat < final.accepted) ∨
      (quota.toNat ≤ state.accepted ∧
        (next.callers thread).returned ≠ some .enospc) := by
  simp only [State.admits, slot?_of_found accounted.found,
    Option.mem_some_iff, forall_eq', not_or, not_and_or,
    accounted.limit] at careless
  obtain ⟨notFull, busy, crowded⟩ := careless
  have room :
      (state.slots index).bytesWritten < (state.slots index).quota := by
    rw [accounted.limit]
    exact UInt64.not_le.mp notFull
  obtain ⟨want, passes, fits, cut, exact⟩ :=
    chaosIoWriteCheck_room accounted.found room size
  rw [accounted.limit] at exact
  obtain ⟨idle, refused | passed⟩ := step?_check stepped
  · rw [passes] at refused
    exact absurd refused.1 (by simp)
  · obtain ⟨want', passes', rfl⟩ := passed
    obtain rfl : want = want' :=
      Option.some.inj (passes.symm.trans passes')
    have inFlight := inFlight_setCaller state thread
      { phase := .checked want, returned := none }
    have unaccounted := unaccounted_setCaller state thread
      { phase := .checked want, returned := none }
    simp only [Caller.inFlight, idle] at inFlight
    simp only [Caller.unaccounted, idle] at unaccounted
    have accepted := accounted.accepted
    by_cases overruns :
        quota.toNat <
          (state.slots index).bytesWritten.toNat + state.inFlight +
            want.toNat
    · left
      have overrunning :
          Overrunning index quota
            (state.setCaller thread
              { phase := .checked want, returned := none }) := by
        constructor
        · show quota.toNat < (state.slots index).bytesWritten.toNat +
            (state.setCaller thread _).inFlight
          omega
        · show state.accepted =
            (state.slots index).bytesWritten.toNat +
              (state.setCaller thread _).unaccounted
          omega
      exact overrunning.exists_run_exceeds
    · right
      constructor
      · rcases crowded with tooMuch | full
        · rcases exact with whole | remains
          · rw [whole] at overruns
            omega
          · omega
        · omega
      · simp [State.setCaller]

end Overrun

/-- Bytes that are unaccounted are in flight. -/
theorem unaccounted_le_inFlight
    {n : Nat}
    (state : State n) :
    state.unaccounted ≤ state.inFlight := by
  refine Finset.sum_le_sum fun thread _ => ?_
  cases phase : (state.callers thread).phase with
  | idle | checked want =>
      simp only [Caller.unaccounted, phase, Nat.zero_le]
  | wrote w =>
      simp only [Caller.unaccounted, Caller.inFlight, phase, le_refl]

/-- Once the file is full, an admitted check is refused. -/
theorem Accounted.refuses
    {n : Nat}
    {index : Fin ioSlotsMax}
    {quota : UInt64}
    {state next : State n}
    (accounted : Accounted index quota state)
    {thread : Fin n}
    {size : UInt64}
    (stepped : state.step? (.check thread size) = some next)
    (admitted : state.admits (.check thread size))
    (full : quota.toNat ≤ state.accepted) :
    (next.callers thread).returned = some .enospc := by
  have admittedSlot := admitted _ (slot?_of_found accounted.found)
  rw [accounted.limit] at admittedSlot
  have reserved := accounted.reserved
  have accepted := accounted.accepted
  have atQuota :
      (state.slots index).quota ≤ (state.slots index).bytesWritten := by
    rw [accounted.limit]
    rcases admittedSlot with written | quiet | room
    · exact written
    · -- Nothing in flight means nothing unaccounted.
      have within := unaccounted_le_inFlight state
      rw [UInt64.le_iff_toNat_le]
      omega
    · omega
  have refuses := chaosIoWriteCheck_full accounted.found
    (accounted.limit.symm ▸ accounted.positive) atQuota size
  obtain ⟨_, refused | passed⟩ := step?_check stepped
  · rw [refused.2]
    simp [State.setCaller]
  · obtain ⟨want, passes, _⟩ := passed
    rw [refuses] at passes
    exact absurd passes (by simp)

/--
A run whose checks are all admitted keeps the file within the quota and
refuses every admitted call once it is full; after such a run, a check that
is not admitted lets the file outgrow the quota or passes when it is full.
-/
theorem admits_exact
    {n : Nat}
    (slots : Slots)
    (fd : Int)
    (index : Fin ioSlotsMax)
    (quota : UInt64)
    (quotaSet : QuotaSet slots fd index quota)
    (labels : List (Label n))
    (state : State n)
    (ran : (State.start slots fd : State n).run? labels = some state)
    (admitted :
      Transition.EachStep State.step? State.admits
        (State.start slots fd) labels) :
    state.accepted ≤ quota.toNat ∧
      (∀ thread size next,
        state.step? (.check thread size) = some next →
        state.admits (.check thread size) →
        quota.toNat ≤ state.accepted →
        (next.callers thread).returned = some .enospc) ∧
      ∀ thread size next,
        state.step? (.check thread size) = some next →
        ¬ state.admits (.check thread size) →
        (∃ later final,
            next.run? later = some final ∧
              quota.toNat < final.accepted) ∨
          (quota.toNat ≤ state.accepted ∧
            (next.callers thread).returned ≠ some .enospc) := by
  have accounted : Accounted index quota state :=
    Transition.run?_invariant_of_eachStep
      (fun holds admittedStep stepped => holds.step admittedStep stepped)
      ran admitted (accounted_start quotaSet)
  refine ⟨?_, ?_, ?_⟩
  · have reserved := accounted.reserved
    have within := unaccounted_le_inFlight state
    rw [accounted.accepted]
    omega
  · exact fun _ _ _ stepped admittedCheck full =>
      accounted.refuses stepped admittedCheck full
  · exact fun _ _ _ stepped careless =>
      accounted.careless stepped careless

/-- An empty table after opening descriptor 5 with a quota of 100 bytes. -/
def quotaSlots : Slots :=
  chaosIoSetQuota
    ((allocLocked (fun _ => zeroSlot) 5).getD fun _ => zeroSlot) 5 100

/-- The first slot. -/
def firstSlot : Fin ioSlotsMax := ⟨0, by decide⟩

theorem quotaSet_quotaSlots : QuotaSet quotaSlots 5 firstSlot 100 where
  found := by decide
  limit := by decide
  positive := by decide
  fresh := by decide

/-- Two calls, one after the other, fill the file. -/
def twoCallsRun : List (Label 2) :=
  [.check 0 60, .kernelWrites 0 60, .account 0,
    .check 1 60, .kernelWrites 1 40, .account 1]

theorem admits_exact_twoCalls :
    ∃ state : State 2,
      (State.start quotaSlots 5).run? twoCallsRun = some state ∧
        state.accepted = 100 ∧
        state.accepted ≤ (100 : UInt64).toNat := by
  have fills :
      ((State.start quotaSlots 5 : State 2).run? twoCallsRun).any
        (fun state => state.accepted = 100) = true := by
    decide +kernel
  have admitted :
      Transition.EachStep State.step? State.admits
        (State.start quotaSlots 5) twoCallsRun := by
    decide +kernel
  obtain ⟨state, ran, full⟩ := (Option.any_eq_true _ _).mp fills
  exact ⟨state, ran, of_decide_eq_true full,
    (admits_exact quotaSlots 5 firstSlot 100 quotaSet_quotaSlots twoCallsRun
      state ran admitted).1⟩

/-- Two threads check before either writes: 200 bytes pass a quota of 100. -/
theorem quota_exceeded_twoWriters :
    ∃ state : State 2,
      (State.start quotaSlots 5).run?
          [.check 0 100, .check 1 100, .kernelWrites 0 100,
            .kernelWrites 1 100] = some state ∧
        (100 : UInt64).toNat < state.accepted := by
  have exceeds :
      ((State.start quotaSlots 5 : State 2).run?
          [.check 0 100, .check 1 100, .kernelWrites 0 100,
            .kernelWrites 1 100]).any
        (fun state => decide ((100 : UInt64).toNat < state.accepted)) =
        true := by
    decide +kernel
  obtain ⟨state, ran, exceeded⟩ := (Option.any_eq_true _ _).mp exceeds
  exact ⟨state, ran, of_decide_eq_true exceeded⟩

end FailurePlayground.ChaosIo
