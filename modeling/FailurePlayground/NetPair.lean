import Mathlib.Logic.Function.Basic
import FailurePlayground.Lib.Ledger
import FailurePlayground.Lib.Transition

namespace FailurePlayground.NetPair

/-!
# What `chaos_net_pair` leaves behind

`chaos_net_pair` opens four descriptors and a block, publishes them in the
caller's variable, and starts two threads.  Every call that can fail takes
back what came before it.
-/

open Ledger

/-- What a pair owns. -/
inductive Resource where
  | descriptor (fd : Int)
  | block (address : Nat)
  deriving Repr, DecidableEq

/-- `chaos_pair_t`. -/
structure ChaosPair where
  fdA : Int
  fdB : Int
  internal : Option Nat
  deriving Repr, DecidableEq

/-- The descriptors in a `pair_internal_t`. -/
structure Internal where
  proxyA : Int
  proxyB : Int
  deriving Repr, DecidableEq

/-- What the calls of one `chaos_net_pair` return. -/
structure Supply where
  sp1 : Option (Int × Int)
  sp2 : Option (Int × Int)
  block : Option Nat
  firstThread : Bool
  secondThread : Bool
  deriving Repr, DecidableEq

/-- What a call does, and what it returns. -/
structure Outcome where
  uses : List (Use Resource)
  out : ChaosPair
  made : Option (Nat × Internal)
  result : Int
  deriving Repr, DecidableEq

/-- Some descriptors. -/
def descriptors (fds : List Int) : List Resource :=
  fds.map .descriptor

/-- `chaos_net_pair`. -/
def chaosNetPair (out : ChaosPair) (supply : Supply) : Outcome :=
  match supply.sp1 with
  | none =>
      { uses := [], out := out, made := none, result := -1 }
  | some (sp10, sp11) =>
      match supply.sp2 with
      | none =>
          { uses :=
              acquire (descriptors [sp10, sp11]) ++
                release (descriptors [sp10, sp11])
            out := out
            made := none
            result := -1 }
      | some (sp20, sp21) =>
          let fds := descriptors [sp10, sp11, sp20, sp21]
          match supply.block with
          | none =>
              { uses := acquire fds ++ release fds
                out := out
                made := none
                result := -1 }
          | some I =>
              let published : ChaosPair :=
                { fdA := sp10, fdB := sp21, internal := some I }
              let made := some (I, { proxyA := sp11, proxyB := sp20 })
              let prepared :=
                acquire fds ++ acquire [.block I] ++ touch [.block I]
              if ¬ supply.firstThread then
                { uses := prepared ++ release [.block I] ++ release fds
                  out := published
                  made := made
                  result := -1 }
              else if ¬ supply.secondThread then
                -- Shut down `proxy_a`, join the first thread.
                { uses :=
                    prepared ++ touch [.block I, .block I] ++
                      release [.block I] ++ release fds
                  out := published
                  made := made
                  result := -1 }
              else
                { uses := prepared
                  out := published
                  made := made
                  result := 0 }

/-- `if (fd >= 0) close(fd)`. -/
def closes (fd : Int) : List (Use Resource) :=
  if fd ≥ 0 then release [.descriptor fd] else []

/-- `chaos_net_close`, given what a block contains. -/
def chaosNetClose
    (p : ChaosPair)
    (contents : Nat → Internal) : Outcome :=
  match p.internal with
  | none =>
      { uses := [], out := p, made := none, result := 0 }
  | some I =>
      let internal := contents I
      { uses :=
          closes p.fdA ++ closes p.fdB ++
            -- The two threads are joined.
            touch [.block I, .block I] ++
            touch [.block I] ++ closes internal.proxyA ++
            touch [.block I] ++ closes internal.proxyB ++
            touch [.block I] ++ release [.block I]
        out :=
          { fdA := if p.fdA ≥ 0 then -1 else p.fdA
            fdB := if p.fdB ≥ 0 then -1 else p.fdB
            internal := none }
        made := none
        result := 0 }

/-- The variable, and what the process holds because of it. -/
structure State where
  held : Finset Resource
  contents : Nat → Internal
  out : ChaosPair

/-- A call; a block that has been freed contains anything. -/
inductive Label where
  | pair (supply : Supply)
  | close (garbage : Internal)
  deriving Repr, DecidableEq

/-- The variable that both members of a pair are closed in. -/
def shutPair : ChaosPair where
  fdA := -1
  fdB := -1
  internal := none

/-- The descriptors that a call is given. -/
def Supply.fds (supply : Supply) : List Int :=
  (supply.sp1.toList ++ supply.sp2.toList).flatMap fun sp =>
    [sp.1, sp.2]

/-- New descriptors are not negative, distinct and not in use. -/
structure Supply.Fresh
    (supply : Supply)
    (held : Finset Resource) : Prop where
  distinct : supply.fds.Nodup
  positive : ∀ fd ∈ supply.fds, 0 ≤ fd
  unused : ∀ fd ∈ supply.fds, Resource.descriptor fd ∉ held
  allocated : ∀ I ∈ supply.block, Resource.block I ∉ held

instance (supply : Supply) (held : Finset Resource) :
    Decidable (supply.Fresh held) :=
  decidable_of_iff
    (supply.fds.Nodup ∧
      (∀ fd ∈ supply.fds, 0 ≤ fd) ∧
      (∀ fd ∈ supply.fds, Resource.descriptor fd ∉ held) ∧
      ∀ I ∈ supply.block, Resource.block I ∉ held)
    ⟨fun ⟨distinct, positive, unused, allocated⟩ =>
        ⟨distinct, positive, unused, allocated⟩,
      fun fresh =>
        ⟨fresh.distinct, fresh.positive, fresh.unused,
          fresh.allocated⟩⟩

/-- The call gets as far as its threads. -/
def Supply.publishes (supply : Supply) : Bool :=
  supply.sp1.isSome && supply.sp2.isSome && supply.block.isSome

namespace State

/-- What a call does in a state. -/
def outcome (state : State) : Label → Outcome
  | .pair supply => chaosNetPair state.out supply
  | .close garbage =>
      chaosNetClose state.out fun I =>
        if Resource.block I ∈ state.held then
          state.contents I
        else
          garbage

/-- The state after a call. -/
def settle (state : State) (outcome : Outcome) : State where
  held := Ledger.after state.held outcome.uses
  contents :=
    match outcome.made with
    | some (I, internal) => Function.update state.contents I internal
    | none => state.contents
  out := outcome.out

/-- Execute one call. -/
def step? (state : State) : Label → Option State
  | .pair supply =>
      if supply.Fresh state.held then
        some (state.settle (state.outcome (.pair supply)))
      else
        none
  | .close garbage =>
      some (state.settle (state.outcome (.close garbage)))

/-- Execute some calls. -/
abbrev run? : State → List Label → Option State :=
  Transition.run? step?

/-- A variable that holds no pair. -/
def start (contents : Nat → Internal) : State where
  held := ∅
  contents := contents
  out := shutPair

/-- What the variable leads to. -/
def owned (state : State) : List Resource :=
  match state.out.internal with
  | none => []
  | some I =>
      descriptors
          [state.out.fdA, (state.contents I).proxyA,
            (state.contents I).proxyB, state.out.fdB] ++
        [.block I]

/-- What the calls promise. -/
structure CallSound (state : State) (label : Label) : Prop where
  /-- Nothing is closed twice and nothing freed is used. -/
  allowed : Ledger.Allowed state.held (state.outcome label).uses
  /-- A failed call leaves the variable alone. -/
  undone :
    (state.outcome label).result = -1 →
      (state.outcome label).out = state.out
  /-- It releases exactly once whatever it acquires. -/
  released :
    (state.outcome label).result = -1 →
      ∀ resource,
        (state.outcome label).uses.count (.acquires resource) ≤ 1 ∧
          (state.outcome label).uses.count (.releases resource) =
            (state.outcome label).uses.count (.acquires resource)
  /-- So closing a variable that held no pair does nothing. -/
  closable :
    (state.outcome label).result = -1 →
      state.out = shutPair →
      ∀ contents,
        (chaosNetClose (state.outcome label).out contents).uses = []
  /-- Nothing is held that the variable does not lead to. -/
  kept :
    ∀ resource ∈ (state.settle (state.outcome label)).held,
      resource ∈ (state.settle (state.outcome label)).owned

/--
A call that gets as far as its threads starts both, on a variable that holds no
pair.
-/
def Careful (state : State) : Label → Prop
  | .pair supply =>
      supply.publishes = true →
        (supply.firstThread = true ∧ supply.secondThread = true) ∧
          state.out.internal = none
  | .close _ => True

instance (state : State) : (label : Label) →
    Decidable (state.Careful label)
  | .pair _ => inferInstanceAs (Decidable (_ → _))
  | .close _ => inferInstanceAs (Decidable True)

/-- The variable between two calls. -/
structure Tidy (state : State) : Prop where
  holds : ∀ resource, resource ∈ state.held ↔ resource ∈ state.owned
  distinct : state.owned.Nodup
  positive : ∀ fd, Resource.descriptor fd ∈ state.owned → 0 ≤ fd
  shut : state.out.internal = none → state.out = shutPair

section Tidy

variable
  {state next : State}
  {supply : Supply}
  {label : Label}

/-- A variable that holds no pair holds nothing. -/
theorem Tidy.held_eq_empty
    (tidy : state.Tidy)
    (none : state.out.internal = Option.none) :
    state.held = ∅ := by
  apply Finset.eq_empty_of_forall_notMem
  intro resource member
  have owned := (tidy.holds resource).mp member
  rw [State.owned, none] at owned
  exact absurd owned List.not_mem_nil

/-- The descriptors of a supply are new to what is held. -/
theorem fresh_descriptors
    {held : Finset Resource}
    (fresh : supply.Fresh held)
    {fds : List Int}
    (among : fds.Sublist supply.fds) :
    (descriptors fds).Nodup ∧
      ∀ resource ∈ descriptors fds, resource ∉ held := by
  constructor
  · refine List.Nodup.map ?_ (fresh.distinct.sublist among)
    intro first second same
    exact Resource.descriptor.inj same
  · intro resource member
    obtain ⟨fd, listed, rfl⟩ := List.mem_map.mp member
    exact fresh.unused fd (among.subset listed)

/-- A call that takes back what it acquired leaves everything as it was. -/
theorem settle_undone
    {resources : List Resource}
    (fresh : ∀ resource ∈ resources, resource ∉ state.held)
    (result : Int) :
    state.settle
        { uses := acquire resources ++ release resources
          out := state.out
          made := none
          result := result } =
      state := by
  unfold settle
  simp only [after_acquire_release fresh]

/-- A call that succeeds promises nothing more. -/
theorem callSound_of_succeeds
    (succeeds : (state.outcome label).result = 0)
    (allowed : Ledger.Allowed state.held (state.outcome label).uses)
    (kept :
      ∀ resource ∈ (state.settle (state.outcome label)).held,
        resource ∈ (state.settle (state.outcome label)).owned) :
    state.CallSound label := by
  have fine : (state.outcome label).result ≠ -1 := by
    rw [succeeds]
    decide
  exact {
    allowed := allowed
    undone := fun failed => absurd failed fine
    released := fun failed => absurd failed fine
    closable := fun failed => absurd failed fine
    kept := kept
  }

/-- A call that takes back all it acquired is sound. -/
theorem callSound_of_undone
    (tidy : state.Tidy)
    {resources : List Resource}
    (distinct : resources.Nodup)
    (fresh : ∀ resource ∈ resources, resource ∉ state.held)
    (does :
      state.outcome label =
        { uses := acquire resources ++ release resources
          out := state.out
          made := none
          result := -1 }) :
    state.CallSound label := by
  have same := settle_undone fresh (-1)
  have allowed := allowed_acquire_release distinct fresh
  refine {
    allowed := ?_
    undone := ?_
    released := ?_
    closable := ?_
    kept := ?_
  }
  · rw [does]
    exact allowed
  · rw [does]
    exact fun _ => rfl
  · rw [does]
    intro _ resource
    have balanced := balance allowed resource
    rw [after_acquire_release fresh] at balanced
    exact
      ⟨count_acquires_le_one distinct resource,
        (Nat.add_left_cancel (balanced.trans (Nat.add_comm _ _))).symm⟩
  · rw [does]
    intro _ shut contents
    simp only [shut]
    rfl
  · rw [does, same]
    intro resource member
    exact (tidy.holds resource).mp member

/-- What a call that does not publish does. -/
theorem outcome_of_not_publishes
    (state : State)
    (quiet : supply.publishes = false) :
    ∃ fds,
      fds.Sublist supply.fds ∧
        state.outcome (.pair supply) =
          { uses :=
              acquire (descriptors fds) ++ release (descriptors fds)
            out := state.out
            made := none
            result := -1 } := by
  obtain ⟨sp1, sp2, block, firstThread, secondThread⟩ := supply
  cases sp1 with
  | none =>
      exact ⟨[], List.nil_sublist _, rfl⟩
  | some first =>
      cases sp2 with
      | none =>
          exact ⟨[first.1, first.2], List.Sublist.refl _, rfl⟩
      | some second =>
          cases block with
          | none =>
              exact
                ⟨[first.1, first.2, second.1, second.2],
                  List.Sublist.refl _, rfl⟩
          | some I =>
              exact absurd quiet (by simp [Supply.publishes])

/-- What a call that publishes is given. -/
theorem exists_of_publishes
    (published : supply.publishes = true) :
    ∃ sp10 sp11 sp20 sp21 I,
      supply.sp1 = some (sp10, sp11) ∧
        supply.sp2 = some (sp20, sp21) ∧
        supply.block = some I := by
  obtain ⟨⟨both1, both2⟩, blocked⟩ :
      (supply.sp1.isSome = true ∧ supply.sp2.isSome = true) ∧
        supply.block.isSome = true := by
    simpa [Supply.publishes] using published
  obtain ⟨⟨sp10, sp11⟩, first⟩ := Option.isSome_iff_exists.mp both1
  obtain ⟨⟨sp20, sp21⟩, second⟩ := Option.isSome_iff_exists.mp both2
  obtain ⟨I, block⟩ := Option.isSome_iff_exists.mp blocked
  exact ⟨sp10, sp11, sp20, sp21, I, first, second, block⟩

/-- What it does before its threads. -/
def prepared (fds : List Int) (I : Nat) : List (Use Resource) :=
  acquire (descriptors fds) ++ acquire [.block I] ++ touch [.block I]

@[simp] theorem descriptor_mem_descriptors
    {fd : Int}
    {fds : List Int} :
    Resource.descriptor fd ∈ descriptors fds ↔ fd ∈ fds := by
  simp [descriptors]

@[simp] theorem block_notMem_descriptors
    {I : Nat}
    {fds : List Int} :
    Resource.block I ∉ descriptors fds := by
  simp [descriptors]

@[simp] theorem mem_after_prepared
    {held : Finset Resource}
    {fds : List Int}
    {I : Nat}
    {resource : Resource} :
    resource ∈ Ledger.after held (prepared fds I) ↔
      resource ∈ held ∨ resource ∈ descriptors fds ++ [.block I] := by
  simp [prepared, or_assoc]

/-- New resources may be prepared. -/
theorem allowed_prepared
    {held : Finset Resource}
    {fds : List Int}
    {I : Nat}
    (distinct : (descriptors fds).Nodup)
    (fresh : ∀ resource ∈ descriptors fds, resource ∉ held)
    (allocated : Resource.block I ∉ held) :
    Ledger.Allowed held (prepared fds I) := by
  simp only [prepared, allowed_append, allowed_acquire, allowed_touch,
    mem_after_acquire, after_append, List.mem_singleton]
  refine ⟨⟨⟨distinct, fresh⟩, List.nodup_singleton _, ?_⟩, ?_⟩
  · rintro resource rfl
    rintro (there | new)
    · exact allocated there
    · exact block_notMem_descriptors new
  · rintro resource rfl
    exact Or.inr rfl

/-- A call whose threads start publishes what it prepared. -/
theorem outcome_of_started
    (state : State)
    {sp10 sp11 sp20 sp21 : Int}
    {I : Nat}
    (first : supply.sp1 = some (sp10, sp11))
    (second : supply.sp2 = some (sp20, sp21))
    (block : supply.block = some I)
    (started :
      supply.firstThread = true ∧ supply.secondThread = true) :
    state.outcome (.pair supply) =
      { uses := prepared [sp10, sp11, sp20, sp21] I
        out := { fdA := sp10, fdB := sp21, internal := some I }
        made := some (I, { proxyA := sp11, proxyB := sp20 })
        result := 0 } := by
  simp [outcome, chaosNetPair, prepared, first, second, block, started]

/-- A call whose threads do not both start fails, and has published. -/
theorem outcome_of_not_started
    (state : State)
    {sp10 sp11 sp20 sp21 : Int}
    {I : Nat}
    (first : supply.sp1 = some (sp10, sp11))
    (second : supply.sp2 = some (sp20, sp21))
    (block : supply.block = some I)
    (failed :
      ¬ (supply.firstThread = true ∧ supply.secondThread = true)) :
    (state.outcome (.pair supply)).result = -1 ∧
      (state.outcome (.pair supply)).out.internal = some I := by
  by_cases one : supply.firstThread = true
  · have two : supply.secondThread = false := by
      simpa [one] using failed
    simp [outcome, chaosNetPair, first, second, block, one, two]
  · simp [outcome, chaosNetPair, first, second, block, one]

/-- The state that a pair whose threads start leaves. -/
theorem settle_started
    {sp10 sp11 sp20 sp21 : Int}
    {I : Nat}
    (empty : state.held = ∅)
    (started :
      next =
        state.settle
          { uses := prepared [sp10, sp11, sp20, sp21] I
            out := { fdA := sp10, fdB := sp21, internal := some I }
            made := some (I, { proxyA := sp11, proxyB := sp20 })
            result := 0 }) :
    next.owned =
        descriptors [sp10, sp11, sp20, sp21] ++ [.block I] ∧
      ∀ resource, resource ∈ next.held ↔ resource ∈ next.owned := by
  have owned :
      next.owned =
        descriptors [sp10, sp11, sp20, sp21] ++ [.block I] := by
    subst started
    simp [State.owned, settle]
  refine ⟨owned, ?_⟩
  intro resource
  rw [owned]
  subst started
  rw [settle, empty, mem_after_prepared]
  simp

/-- A pair whose threads start is sound on a variable that holds none. -/
theorem callSound_of_started
    (tidy : state.Tidy)
    (fresh : supply.Fresh state.held)
    (published : supply.publishes = true)
    (started :
      supply.firstThread = true ∧ supply.secondThread = true)
    (unpaired : state.out.internal = none) :
    state.CallSound (.pair supply) ∧
      (state.settle (state.outcome (.pair supply))).Tidy := by
  obtain ⟨sp10, sp11, sp20, sp21, I, first, second, block⟩ :=
    exists_of_publishes published
  have does := outcome_of_started state first second block started
  have fds : supply.fds = [sp10, sp11, sp20, sp21] := by
    simp [Supply.fds, first, second]
  obtain ⟨distinct, unused⟩ :=
    fresh_descriptors fresh (List.Sublist.refl supply.fds)
  have allocated := fresh.allocated I (Option.mem_def.mpr block)
  have empty := tidy.held_eq_empty unpaired
  obtain ⟨owned, holds⟩ := settle_started empty
    (congrArg state.settle does)
  rw [fds] at distinct unused
  constructor
  · refine callSound_of_succeeds ?_ ?_ fun resource => (holds resource).mp
    · rw [does]
    · rw [does]
      exact allowed_prepared distinct unused allocated
  · refine {
      holds := holds
      distinct := ?_
      positive := ?_
      shut := ?_
    }
    · rw [owned, List.nodup_append]
      refine ⟨distinct, List.nodup_singleton _, ?_⟩
      rintro resource new _ last rfl
      rw [List.mem_singleton.mp last] at new
      exact block_notMem_descriptors new
    · intro fd member
      rw [owned, ← fds] at member
      have listed : fd ∈ supply.fds := by
        simpa using member
      exact fresh.positive fd listed
    · rw [settle, does]
      intro none
      contradiction

/-- Sound calls start both threads, on a variable that holds no pair. -/
theorem careful_of_callSound
    (tidy : state.Tidy)
    (enabled : state.step? label = some next)
    (sound : state.CallSound label) :
    state.Careful label := by
  cases label with
  | close garbage =>
      trivial
  | pair supply =>
      intro published
      have fresh : supply.Fresh state.held := by
        by_contra stale
        simp [step?, stale] at enabled
      obtain ⟨sp10, sp11, sp20, sp21, I, first, second, block⟩ :=
        exists_of_publishes published
      have allocated := fresh.allocated I (Option.mem_def.mpr block)
      have started :
          supply.firstThread = true ∧ supply.secondThread = true := by
        -- A failed call would leave the new block in the variable.
        by_contra failed
        obtain ⟨result, out⟩ :=
          outcome_of_not_started state first second block failed
        rw [sound.undone result] at out
        apply allocated
        rw [tidy.holds, State.owned, out]
        simp
      refine ⟨started, ?_⟩
      -- An open pair would be held, and nothing would lead to it.
      by_contra open'
      obtain ⟨J, held⟩ := Option.ne_none_iff_exists'.mp open'
      have there : Resource.block J ∈ state.held := by
        rw [tidy.holds, State.owned, held]
        simp
      have does :=
        outcome_of_started state first second block started
      have still := sound.kept (.block J)
      rw [does] at still
      have same : J = I := by
        simpa [settle, State.owned, there] using still
      exact allocated (same ▸ there)

/-- What an open variable leads to. -/
theorem owned_of_paired
    {I : Nat}
    (paired : state.out.internal = some I) :
    state.owned =
      descriptors
          [state.out.fdA, (state.contents I).proxyA,
            (state.contents I).proxyB, state.out.fdB] ++
        [.block I] := by
  rw [State.owned, paired]

/-- What closing four descriptors and a block does. -/
def closing (fdA fdB proxyA proxyB : Int) (I : Nat) :
    List (Use Resource) :=
  release (descriptors [fdA, fdB]) ++ touch [.block I, .block I, .block I] ++
    release (descriptors [proxyA]) ++ touch [.block I] ++
    release (descriptors [proxyB]) ++ touch [.block I] ++
    release [.block I]

@[simp] theorem mem_after_closing
    {held : Finset Resource}
    {fdA fdB proxyA proxyB : Int}
    {I : Nat}
    {resource : Resource} :
    resource ∈ Ledger.after held (closing fdA fdB proxyA proxyB I) ↔
      resource ∈ held ∧
        resource ∉
          descriptors [fdA, proxyA, proxyB, fdB] ++ [.block I] := by
  simp [closing, descriptors]
  tauto

/-- Four descriptors and a block that are held may be closed. -/
theorem allowed_closing
    {held : Finset Resource}
    {fdA fdB proxyA proxyB : Int}
    {I : Nat}
    (distinct : [fdA, proxyA, proxyB, fdB].Nodup)
    (there :
      ∀ resource ∈ descriptors [fdA, proxyA, proxyB, fdB] ++ [.block I],
        resource ∈ held) :
    Ledger.Allowed held (closing fdA fdB proxyA proxyB I) := by
  simp [closing, descriptors] at *
  tauto

/-- What closing an open variable does. -/
theorem outcome_of_close
    {I : Nat}
    (garbage : Internal)
    (paired : state.out.internal = some I)
    (positive :
      ∀ fd ∈ [state.out.fdA, (state.contents I).proxyA,
          (state.contents I).proxyB, state.out.fdB], 0 ≤ fd)
    (there : Resource.block I ∈ state.held) :
    state.outcome (.close garbage) =
      { uses :=
          closing state.out.fdA state.out.fdB
            (state.contents I).proxyA (state.contents I).proxyB I
        out := shutPair
        made := none
        result := 0 } := by
  obtain ⟨fdA, proxyA, proxyB, fdB⟩ :
      0 ≤ state.out.fdA ∧ 0 ≤ (state.contents I).proxyA ∧
        0 ≤ (state.contents I).proxyB ∧ 0 ≤ state.out.fdB := by
    simpa using positive
  simp [outcome, chaosNetClose, paired, there, closes, fdA, fdB, proxyA,
    proxyB, shutPair, closing, descriptors, touch, release]

/-- Closing a variable leaves nothing held, and closes each thing once. -/
theorem callSound_of_close
    (tidy : state.Tidy)
    (garbage : Internal) :
    state.CallSound (.close garbage) ∧
      (state.settle (state.outcome (.close garbage))).Tidy := by
  cases paired : state.out.internal with
  | none =>
      have does :
          state.outcome (.close garbage) =
            { uses := [], out := state.out, made := none, result := 0 } := by
        simp [outcome, chaosNetClose, paired]
      have same : state.settle (state.outcome (.close garbage)) = state := by
        rw [does]
        rfl
      rw [same]
      refine ⟨callSound_of_succeeds ?_ ?_ ?_, tidy⟩
      · rw [does]
      · rw [does]
        trivial
      · rw [same]
        exact fun resource => (tidy.holds resource).mp
  | some I =>
      have owned := owned_of_paired paired
      have positive : ∀ fd ∈ [state.out.fdA, (state.contents I).proxyA,
          (state.contents I).proxyB, state.out.fdB], 0 ≤ fd := by
        intro fd member
        apply tidy.positive
        rw [owned, List.mem_append, descriptor_mem_descriptors]
        exact Or.inl member
      have distinct := tidy.distinct
      rw [owned] at distinct
      have does := outcome_of_close garbage paired positive <| by
        rw [tidy.holds, owned]
        simp
      have holds := tidy.holds
      rw [owned] at holds
      have empty :
          ∀ resource,
            resource ∉ (state.settle (state.outcome (.close garbage))).held := by
        intro resource member
        rw [does, settle, mem_after_closing] at member
        exact member.2 ((holds resource).mp member.1)
      have nothing :
          (state.settle (state.outcome (.close garbage))).owned = [] := by
        rw [does]
        rfl
      constructor
      · refine callSound_of_succeeds ?_ ?_ ?_
        · rw [does]
        · rw [does]
          exact
            allowed_closing (List.Nodup.of_map _ distinct.of_append_left)
              fun resource => (holds resource).mpr
        · exact fun resource member => absurd member (empty resource)
      · refine {
          holds := ?_
          distinct := ?_
          positive := ?_
          shut := ?_
        }
        · intro resource
          rw [nothing]
          exact iff_of_false (empty resource) List.not_mem_nil
        · rw [nothing]
          exact List.nodup_nil
        · rw [nothing]
          exact fun fd member => absurd member List.not_mem_nil
        · rw [does]
          exact fun _ => rfl

/-- A careful call is sound, and leaves the variable tidy. -/
theorem callSound_of_careful
    (tidy : state.Tidy)
    (careful : state.Careful label)
    (enabled : state.step? label = some next) :
    state.CallSound label ∧ next.Tidy := by
  cases label with
  | close garbage =>
      have after : state.settle (state.outcome (.close garbage)) = next :=
        Option.some.inj enabled
      rw [← after]
      exact callSound_of_close tidy garbage
  | pair supply =>
      have fresh : supply.Fresh state.held := by
        by_contra stale
        simp [step?, stale] at enabled
      have after : state.settle (state.outcome (.pair supply)) = next := by
        simpa [step?, fresh] using enabled
      rw [← after]
      cases published : supply.publishes with
      | true =>
          obtain ⟨started, unpaired⟩ := careful published
          exact callSound_of_started tidy fresh published started unpaired
      | false =>
          obtain ⟨fds, among, does⟩ :=
            outcome_of_not_publishes state published
          obtain ⟨distinct, unused⟩ := fresh_descriptors fresh among
          refine ⟨callSound_of_undone tidy distinct unused does, ?_⟩
          rw [does, settle_undone unused]
          exact tidy

/-- Nothing is held at first. -/
theorem start_tidy (contents : Nat → Internal) :
    (start contents).Tidy where
  holds := fun _ => iff_of_false (Finset.notMem_empty _) List.not_mem_nil
  distinct := List.nodup_nil
  positive := fun _ member => absurd member List.not_mem_nil
  shut := fun _ => rfl

end Tidy

end State

/--
All calls of a run keep what they promise exactly when every call that gets as
far as its threads starts both, on a variable that holds no pair.
-/
theorem pairCalls_sound_iff
    (contents : Nat → Internal)
    (labels : List Label)
    (final : State)
    (ran : State.run? (State.start contents) labels = some final) :
    Transition.EachStep State.step? State.CallSound
        (State.start contents) labels ↔
      Transition.EachStep State.step? State.Careful
        (State.start contents) labels := by
  have tidy := State.start_tidy contents
  constructor
  · intro sound
    refine Transition.eachStep_mono ?_ ?_ ran sound tidy
    · intro state label next tidy sound enabled
      have careful := State.careful_of_callSound tidy enabled sound
      exact (State.callSound_of_careful tidy careful enabled).2
    · intro state label next tidy sound enabled
      exact State.careful_of_callSound tidy enabled sound
  · intro careful
    refine Transition.eachStep_mono ?_ ?_ ran careful tidy
    · intro state label next tidy careful enabled
      exact (State.callSound_of_careful tidy careful enabled).2
    · intro state label next tidy careful enabled
      exact (State.callSound_of_careful tidy careful enabled).1

/-- Four descriptors and a block, and threads that start or do not. -/
def fourAndBlock (firstThread secondThread : Bool) : Supply where
  sp1 := some (3, 4)
  sp2 := some (5, 6)
  block := some 1
  firstThread := firstThread
  secondThread := secondThread

/-- Any block contains two descriptors that were never opened. -/
def unopened : Internal where
  proxyA := -1
  proxyB := -1

/-- A pair that fails, one that is opened and closed, and a second close. -/
theorem pairCalls_sound_iff_reopened :
    Transition.EachStep State.step? State.CallSound
      (State.start fun _ => unopened)
      [.pair { fourAndBlock true true with block := none },
        .pair (fourAndBlock true true), .close unopened,
        .close unopened] :=
  (pairCalls_sound_iff _ _ _ rfl).mpr (by decide)

/--
When a thread does not start, the variable leads to a block that has been
freed, and closing it uses that block and closes descriptors again.
-/
theorem unstarted_thread_left_behind :
    ∃ next,
      State.run? (State.start fun _ => unopened)
          [.pair (fourAndBlock true false)] = some next ∧
        ((State.start fun _ => unopened).outcome
            (.pair (fourAndBlock true false))).result = -1 ∧
        next.out ≠ shutPair ∧
        next.held = ∅ ∧
        ¬ Ledger.Allowed next.held
          (next.outcome (.close unopened)).uses ∧
        ¬ Transition.EachStep State.step? State.CallSound
          (State.start fun _ => unopened)
          [.pair (fourAndBlock true false), .close unopened] := by
  refine ⟨_, rfl, by decide, by decide, by decide, by decide, ?_⟩
  intro sound
  exact absurd (sound.1.undone (by decide)) (by decide)

end FailurePlayground.NetPair
