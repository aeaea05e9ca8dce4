import FailurePlayground.EmitHelpers
import FailurePlayground.TimedCancel
import FailurePlayground.Lib.Numeral

namespace FailurePlayground.CancelMidwrite

/-!
# The copier that is cancelled

A thread copies a record field by field, for ever, with a nap after every
field.  A timer cancels it, and the main thread, which has waited in a join
since before the timer's time, reports what it finds in the record.
-/

open ChaosThread (Handle)

/-- The record `src` of `copier_fn`. -/
def src : List Int :=
  [11, 22, 33, 44, 55, 66, 77, 88]

/-- `(record_t){0}`. -/
def zeroRecord : List Int :=
  List.replicate src.length 0

/-- What `usleep(200)` takes, in nanoseconds. -/
def napNs : Nat := 200000

/-- The time after which `tcm_run` cancels. -/
def afterNs : Nat := 1000000

/--
Where the copier stands: before it stores a field, before the nap after a
field, in that nap, and dead.
-/
inductive Copier where
  | absent
  | storing (field : Nat)
  | napping (field : Nat)
  | asleep (field wakeAt : Nat)
  | exited
  deriving Repr, DecidableEq

/-- Where the timer thread stands in `cancel_after_fn`. -/
inductive Timer where
  | absent
  | created
  | sleeping (wakeAt : Nat)
  | woken
  | flagSet
  | finished
  deriving Repr, DecidableEq

/-- Where the main thread stands in `tcm_run`. -/
inductive MainStage where
  | zeroing
  | announcing
  | spawning
  | arming
  | joining
  | freeing
  | reporting
  | returned
  deriving Repr, DecidableEq

/--
The clock, the handle `t`, whether its thread has been cancelled, the three
threads, `g_dst`, and what was reported.
-/
structure State where
  now : Nat
  handle : Option Handle
  cancelRequested : Bool
  copier : Copier
  timer : Timer
  main : MainStage
  dst : List Int
  reports : List Emit
  deriving DecidableEq

/--
A thread takes its next step; a thread cannot be created; the cancellation
takes the copier in its nap; time passes.
-/
inductive Label where
  | main
  | spawnFails
  | armFails
  | copier
  | copierDies
  | timer
  | tick (ns : Nat)
  deriving Repr, DecidableEq

section Reports

/-- The keys of the fields. -/
def fieldKeys : List (List UInt8) :=
  [Bytes.ascii "field_a", Bytes.ascii "field_b", Bytes.ascii "field_c",
    Bytes.ascii "field_d", Bytes.ascii "field_e", Bytes.ascii "field_f",
    Bytes.ascii "field_g", Bytes.ascii "field_h"]

/-- `set`. -/
def fieldsSet (dst : List Int) : Nat :=
  dst.countP fun field => field != 0

/-- `"fields_set"`. -/
def setKey : Option (List UInt8) :=
  some (Bytes.ascii "fields_set")

/-- What `tcm_run` reports before it spawns its thread. -/
def midwritePreamble : List Emit :=
  [.phase (some (Bytes.ascii
    "spawning copier; will cancel after 1ms (mid-record)"))]

/-- What `tcm_run` reports after the join. -/
def midwriteReport (dst : List Int) : List Emit :=
  List.zipWith
      (fun key field => .actual (some key) (Int64.ofInt field))
      fieldKeys dst ++
    [.expect setKey 8,
      .actual setKey (Int64.ofInt (fieldsSet dst)),
      .logf (Bytes.ascii "after cancellation, " ++
        Numeral.signed (fieldsSet dst) ++
        Bytes.ascii "/8 fields contain real data; " ++
        Numeral.signed (8 - (fieldsSet dst : Int)) ++
        Bytes.ascii " are zero/torn"),
      .logf (Bytes.ascii
        "another thread reading the struct now sees a half-constructed value.")]

end Reports

namespace State

/-- A step of `tcm_run`. -/
def mainStep? (state : State) : Option State :=
  match state.main with
  | .zeroing =>
      some { state with main := .announcing, dst := zeroRecord }
  | .announcing =>
      some { state with
        main := .spawning
        reports := state.reports ++ midwritePreamble }
  | .spawning =>
      some { state with
        main := .arming
        handle := some (.live false)
        copier := .storing 0 }
  | .arming =>
      match state.handle with
      | none =>
          some { state with main := .joining }
      | some _ =>
          some { state with main := .joining, timer := .created }
  | .joining =>
      match state.handle with
      | none =>
          some { state with main := .reporting }
      | some _ =>
          if state.copier = .exited then
            some { state with main := .freeing }
          else
            none
  | .freeing =>
      some { state with main := .reporting, handle := some .freed }
  | .reporting =>
      some { state with
        main := .returned
        reports := state.reports ++ midwriteReport state.dst }
  | .returned =>
      none

/-- A step of `copier_fn`; its nap is a cancellation point. -/
def copierStep? (state : State) : Option State :=
  match state.copier with
  | .absent | .exited =>
      none
  | .storing field =>
      some { state with
        copier := .napping field
        dst := state.dst.set field (src.getD field 0) }
  | .napping field =>
      if state.cancelRequested then
        some { state with copier := .exited }
      else
        some { state with copier := .asleep field (state.now + napNs) }
  | .asleep field wakeAt =>
      if wakeAt ≤ state.now then
        some { state with copier := .storing ((field + 1) % src.length) }
      else
        none

/-- A step of `cancel_after_fn`. -/
def timerStep? (state : State) : Option State :=
  match state.timer with
  | .absent | .finished =>
      none
  | .created =>
      some { state with timer := .sleeping (state.now + afterNs) }
  | .sleeping wakeAt =>
      if wakeAt ≤ state.now then
        some { state with timer := .woken }
      else
        none
  | .woken =>
      some { state with
        timer := .flagSet
        handle := state.handle.map Handle.setStopFlag }
  | .flagSet =>
      some { state with timer := .finished, cancelRequested := true }

/-- Execute one enabled label. -/
def step? (state : State) : Label → Option State
  | .main =>
      state.mainStep?
  | .spawnFails =>
      if state.main = .spawning then
        some { state with main := .arming }
      else
        none
  | .armFails =>
      if state.main = .arming ∧ state.handle.isSome = true then
        some { state with main := .joining }
      else
        none
  | .copier =>
      state.copierStep?
  | .copierDies =>
      match state.copier with
      | .asleep _ _ =>
          if state.cancelRequested then
            some { state with copier := .exited }
          else
            none
      | _ => none
  | .timer =>
      state.timerStep?
  | .tick ns =>
      some { state with now := state.now + ns }

/-- Execute a finite interleaving. -/
abbrev run? : State → List Label → Option State :=
  Transition.run? step?

/-- `tcm_run` before its first step; `g_dst` holds what an earlier run left. -/
def start (now : Nat) (dst : List Int) : State where
  now := now
  handle := none
  cancelRequested := false
  copier := .absent
  timer := .absent
  main := .zeroing
  dst := dst
  reports := []

/--
The timer thread cancels, and the main thread joins and frees, only through a
handle that has not been freed.
-/
def TouchesLive (state : State) : Label → Prop
  | .timer =>
      state.timer = .woken ∨ state.timer = .flagSet →
        ∃ stopFlag, state.handle = some (.live stopFlag)
  | .main =>
      state.main = .joining ∨ state.main = .freeing →
        state.handle ≠ some .freed
  | .spawnFails | .armFails | .copier | .copierDies | .tick _ => True

end State

section Invariant

variable {state next : State} {label : Label}

/-- A record whose first fields are copied. -/
def torn (fields : Nat) : List Int :=
  src.take fields ++ List.replicate (src.length - fields) 0

/-- A field is stored after the ones before it, or once more. -/
theorem set_torn :
    ∀ field < src.length,
      (torn field).set field (src.getD field 0) = torn (field + 1) ∧
        (torn src.length).set field (src.getD field 0) =
          torn src.length := by
  decide

/-- As many fields hold data as are copied. -/
theorem fieldsSet_torn :
    ∀ fields ≤ src.length, fieldsSet (torn fields) = fields := by
  decide

/-- The timer thread is going to use its handle. -/
def Timer.busy : Timer → Bool
  | .absent | .finished => false
  | _ => true

/-- The timer has not been armed. -/
def MainStage.early : MainStage → Bool
  | .zeroing | .announcing | .spawning | .arming => true
  | _ => false

/-- The copier has not been spawned. -/
def MainStage.unspawned : MainStage → Bool
  | .zeroing | .announcing | .spawning => true
  | _ => false

/-- The main thread is past its join. -/
def MainStage.joined : MainStage → Bool
  | .freeing | .reporting | .returned => true
  | _ => false

/-- The handle has been freed, if there is one. -/
def MainStage.freed : MainStage → Bool
  | .reporting | .returned => true
  | _ => false

/-- What the record holds, wherever the copier stands. -/
def Filled (dst : List Int) : Copier → Prop
  | .absent => dst = torn 0
  | .storing field =>
      field < src.length ∧ (dst = torn field ∨ dst = torn src.length)
  | .napping field | .asleep field _ =>
      field < src.length ∧
        (dst = torn (field + 1) ∨ dst = torn src.length)
  | .exited =>
      ∃ fields, 0 < fields ∧ fields ≤ src.length ∧ dst = torn fields

/-- What the main thread has reported where it stands. -/
def State.printed (state : State) : List Emit :=
  match state.main with
  | .zeroing | .announcing => []
  | .spawning | .arming | .joining | .freeing | .reporting =>
      midwritePreamble
  | .returned => midwritePreamble ++ midwriteReport state.dst

/-- How the three threads, the handle and the record belong together. -/
structure Sound (state : State) : Prop where
  armed : state.handle = none → state.timer = .absent
  busy :
    state.timer.busy = true →
      ∃ stopFlag, state.handle = some (.live stopFlag)
  requested : state.cancelRequested = true → state.timer = .finished
  finished : state.timer = .finished → state.cancelRequested = true
  absent : state.copier = .absent ↔ state.handle = none
  exited : state.copier = .exited → state.cancelRequested = true
  early : state.main.early = true → state.timer = .absent
  unspawned : state.main.unspawned = true → state.handle = none
  joined :
    state.main.joined = true → state.handle ≠ none →
      state.copier = .exited
  freed :
    state.main.freed = true → state.handle ≠ none →
      state.handle = some .freed
  live : state.main.freed = false → state.handle ≠ some .freed
  holding : state.main = .freeing → state.handle ≠ none
  filled : state.main ≠ .zeroing → Filled state.dst state.copier
  printed : state.reports = state.printed

/-- After the nap of a field the next one is stored, or the first one again. -/
theorem filled_next
    {dst : List Int}
    {field wakeAt : Nat}
    (filled : Filled dst (.asleep field wakeAt)) :
    Filled dst (.storing ((field + 1) % src.length)) := by
  obtain ⟨inside, filled⟩ := filled
  have positive : 0 < src.length := by
    decide
  refine ⟨Nat.mod_lt _ positive, ?_⟩
  by_cases last : field + 1 = src.length
  · rw [last] at filled
    exact Or.inr (filled.elim id id)
  · rw [Nat.mod_eq_of_lt (by omega)]
    exact filled

/-- Nothing has happened before the first step. -/
theorem Sound.start (now : Nat) (dst : List Int) :
    Sound (State.start now dst) where
  armed := fun _ => rfl
  busy := fun busy => absurd busy Bool.false_ne_true
  requested := fun requested => absurd requested Bool.false_ne_true
  finished := fun finished => by cases finished
  absent := ⟨fun _ => rfl, fun _ => rfl⟩
  exited := fun exited => by cases exited
  early := fun _ => rfl
  unspawned := fun _ => rfl
  joined := fun joined => absurd joined Bool.false_ne_true
  freed := fun freed => absurd freed Bool.false_ne_true
  live := fun _ freed => by cases freed
  holding := fun holding => by cases holding
  filled := fun past => absurd rfl past
  printed := rfl

/-- The main thread keeps the invariant. -/
theorem Sound.mainStep
    (sound : Sound state)
    (taken : state.mainStep? = some next) :
    Sound next := by
  have printed := sound.printed
  unfold State.mainStep? at taken
  cases stage : state.main with
  | zeroing =>
      simp only [stage, Option.some.injEq] at taken
      subst taken
      rw [State.printed, stage] at printed
      have none := sound.unspawned (by rw [stage]; rfl)
      exact {
        sound with
        early := fun _ => sound.armed none
        unspawned := fun _ => none
        joined := fun joined => absurd joined Bool.false_ne_true
        freed := fun freed => absurd freed Bool.false_ne_true
        live := fun _ freed => by
          rw [none] at freed
          cases freed
        holding := fun holding => by cases holding
        filled := fun _ => by
          rw [sound.absent.mpr none]
          rfl
        printed := printed }
  | announcing =>
      simp only [stage, Option.some.injEq] at taken
      subst taken
      rw [State.printed, stage] at printed
      have none := sound.unspawned (by rw [stage]; rfl)
      exact {
        sound with
        early := fun _ => sound.armed none
        unspawned := fun _ => none
        joined := fun joined => absurd joined Bool.false_ne_true
        freed := fun freed => absurd freed Bool.false_ne_true
        live := fun _ freed => by
          rw [none] at freed
          cases freed
        holding := fun holding => by cases holding
        filled := fun _ => sound.filled (by rw [stage]; simp)
        printed := by
          change state.reports ++ midwritePreamble = _
          rw [printed]
          rfl }
  | spawning =>
      simp only [stage, Option.some.injEq] at taken
      subst taken
      rw [State.printed, stage] at printed
      have none := sound.unspawned (by rw [stage]; rfl)
      have unarmed := sound.armed none
      have filled := sound.filled (by rw [stage]; simp)
      rw [sound.absent.mpr none] at filled
      exact {
        armed := fun none => by cases none
        busy := fun _ => ⟨false, rfl⟩
        requested := sound.requested
        finished := sound.finished
        absent := by simp
        exited := fun exited => by cases exited
        early := fun _ => unarmed
        unspawned := fun unspawned => absurd unspawned Bool.false_ne_true
        joined := fun joined => absurd joined Bool.false_ne_true
        freed := fun freed => absurd freed Bool.false_ne_true
        live := fun _ freed => by cases freed
        holding := fun holding => by cases holding
        filled := fun _ => ⟨by decide, Or.inl filled⟩
        printed := printed }
  | arming =>
      rw [State.printed, stage] at printed
      have unarmed := sound.early (by rw [stage]; rfl)
      have live := sound.live (by rw [stage]; rfl)
      have filled := sound.filled (by rw [stage]; simp)
      simp only [stage] at taken
      split at taken
      · rename_i none
        simp only [Option.some.injEq] at taken
        subst taken
        exact {
          sound with
          early := fun early => absurd early Bool.false_ne_true
          unspawned := fun unspawned =>
            absurd unspawned Bool.false_ne_true
          joined := fun joined => absurd joined Bool.false_ne_true
          freed := fun freed => absurd freed Bool.false_ne_true
          live := fun _ => live
          holding := fun holding => by cases holding
          filled := fun _ => filled
          printed := printed }
      · rename_i handle held
        simp only [Option.some.injEq] at taken
        subst taken
        exact {
          sound with
          armed := fun none => by
            rw [held] at none
            cases none
          busy := fun _ => by
            cases handle with
            | live stopFlag => exact ⟨stopFlag, held⟩
            | freed => exact absurd held live
          requested := fun requested => by
            have finished := sound.requested requested
            rw [unarmed] at finished
            cases finished
          finished := fun finished => by cases finished
          early := fun early => absurd early Bool.false_ne_true
          unspawned := fun unspawned =>
            absurd unspawned Bool.false_ne_true
          joined := fun joined => absurd joined Bool.false_ne_true
          freed := fun freed => absurd freed Bool.false_ne_true
          live := fun _ => live
          holding := fun holding => by cases holding
          filled := fun _ => filled
          printed := printed }
  | joining =>
      rw [State.printed, stage] at printed
      have live := sound.live (by rw [stage]; rfl)
      have filled := sound.filled (by rw [stage]; simp)
      simp only [stage] at taken
      split at taken
      · rename_i none
        simp only [Option.some.injEq] at taken
        subst taken
        exact {
          sound with
          early := fun early => absurd early Bool.false_ne_true
          unspawned := fun unspawned =>
            absurd unspawned Bool.false_ne_true
          joined := fun _ some => absurd none some
          freed := fun _ some => absurd none some
          live := fun freed => absurd freed (by simp [MainStage.freed])
          holding := fun holding => by cases holding
          filled := fun _ => filled
          printed := printed }
      · rename_i handle held
        simp only [Option.ite_none_right_eq_some,
          Option.some.injEq] at taken
        obtain ⟨exited, rfl⟩ := taken
        exact {
          sound with
          early := fun early => absurd early Bool.false_ne_true
          unspawned := fun unspawned =>
            absurd unspawned Bool.false_ne_true
          joined := fun _ _ => exited
          freed := fun freed => absurd freed Bool.false_ne_true
          live := fun _ => live
          holding := fun _ none => by
            rw [held] at none
            cases none
          filled := fun _ => filled
          printed := printed }
  | freeing =>
      simp only [stage, Option.some.injEq] at taken
      subst taken
      rw [State.printed, stage] at printed
      have held := sound.holding stage
      have exited := sound.joined (by rw [stage]; rfl) held
      have finished := sound.requested (sound.exited exited)
      exact {
        sound with
        armed := fun none => by cases none
        busy := fun busy => by
          rw [finished] at busy
          cases busy
        absent := by simp [exited]
        early := fun early => absurd early Bool.false_ne_true
        unspawned := fun unspawned => absurd unspawned Bool.false_ne_true
        joined := fun _ _ => exited
        freed := fun _ _ => rfl
        live := fun freed => absurd freed (by simp [MainStage.freed])
        holding := fun holding => by cases holding
        filled := fun _ => sound.filled (by rw [stage]; simp)
        printed := printed }
  | reporting =>
      simp only [stage, Option.some.injEq] at taken
      subst taken
      rw [State.printed, stage] at printed
      have joined := sound.joined (by rw [stage]; rfl)
      have freed := sound.freed (by rw [stage]; rfl)
      exact {
        sound with
        early := fun early => absurd early Bool.false_ne_true
        unspawned := fun unspawned => absurd unspawned Bool.false_ne_true
        joined := fun _ => joined
        freed := fun _ => freed
        live := fun freed => absurd freed (by simp [MainStage.freed])
        holding := fun holding => by cases holding
        filled := fun _ => sound.filled (by rw [stage]; simp)
        printed := by
          change state.reports ++ midwriteReport state.dst = _
          rw [printed]
          rfl }
  | returned =>
      simp [stage] at taken

/-- While the copier lives the main thread has not reported the record. -/
theorem printed_of_running
    (sound : Sound state)
    (present : state.copier ≠ .absent)
    (running : state.copier ≠ .exited)
    (dst : List Int) :
    state.reports = { state with dst := dst }.printed := by
  have printed := sound.printed
  have held : state.handle ≠ none := fun none =>
    present (sound.absent.mpr none)
  cases stage : state.main with
  | returned =>
      exact absurd (sound.joined (by rw [stage]; rfl) held) running
  | zeroing | announcing | spawning | arming | joining | freeing
  | reporting =>
      rw [State.printed, stage] at printed
      exact printed

/-- A copier that is cancelled in its nap has stored the field before it. -/
theorem Sound.dies
    {field : Nat}
    (sound : Sound state)
    (nap :
      state.copier = .napping field ∨
        ∃ wakeAt, state.copier = .asleep field wakeAt)
    (requested : state.cancelRequested = true) :
    Sound { state with copier := .exited } := by
  have present : state.copier ≠ .absent := by
    rcases nap with stage | ⟨wakeAt, stage⟩ <;> simp [stage]
  have running : state.copier ≠ .exited := by
    rcases nap with stage | ⟨wakeAt, stage⟩ <;> simp [stage]
  have stored :
      Filled state.dst state.copier →
        field < src.length ∧
          (state.dst = torn (field + 1) ∨ state.dst = torn src.length) := by
    rcases nap with stage | ⟨wakeAt, stage⟩ <;>
      exact fun filled => by rwa [stage] at filled
  exact {
    sound with
    absent := by simpa [present] using sound.absent
    exited := fun _ => requested
    joined := fun _ _ => rfl
    filled := fun past => by
      obtain ⟨inside, here | all⟩ := stored (sound.filled past)
      · exact ⟨field + 1, Nat.succ_pos _, inside, here⟩
      · exact ⟨src.length, by decide, Nat.le_refl _, all⟩
    printed := printed_of_running sound present running _ }

/-- The copier keeps the invariant. -/
theorem Sound.copierStep
    (sound : Sound state)
    (taken : state.copierStep? = some next) :
    Sound next := by
  unfold State.copierStep? at taken
  cases stage : state.copier with
  | absent | exited =>
      simp [stage] at taken
  | storing field =>
      simp only [stage, Option.some.injEq] at taken
      subst taken
      have present : state.copier ≠ .absent := by simp [stage]
      have running : state.copier ≠ .exited := by simp [stage]
      exact {
        sound with
        absent := by simpa [present] using sound.absent
        exited := fun exited => by cases exited
        joined := fun joined held =>
          absurd (sound.joined joined held) running
        filled := fun past => by
          have filled := sound.filled past
          rw [stage] at filled
          obtain ⟨inside, here | all⟩ := filled
          · exact ⟨inside, Or.inl (by
              rw [here]
              exact (set_torn field inside).1)⟩
          · exact ⟨inside, Or.inr (by
              rw [all]
              exact (set_torn field inside).2)⟩
        printed := printed_of_running sound present running _ }
  | napping field =>
      have present : state.copier ≠ .absent := by simp [stage]
      have running : state.copier ≠ .exited := by simp [stage]
      simp only [stage] at taken
      split at taken
      · rename_i requested
        simp only [Option.some.injEq] at taken
        exact taken ▸ sound.dies (Or.inl stage) requested
      · simp only [Option.some.injEq] at taken
        subst taken
        exact {
          sound with
          absent := by simpa [present] using sound.absent
          exited := fun exited => by cases exited
          joined := fun joined held =>
            absurd (sound.joined joined held) running
          filled := fun past => by
            have filled := sound.filled past
            rw [stage] at filled
            exact filled
          printed := printed_of_running sound present running _ }
  | asleep field wakeAt =>
      have present : state.copier ≠ .absent := by simp [stage]
      have running : state.copier ≠ .exited := by simp [stage]
      simp only [stage, Option.ite_none_right_eq_some,
        Option.some.injEq] at taken
      obtain ⟨_, rfl⟩ := taken
      exact {
        sound with
        absent := by simpa [present] using sound.absent
        exited := fun exited => by cases exited
        joined := fun joined held =>
          absurd (sound.joined joined held) running
        filled := fun past => by
          have filled := sound.filled past
          rw [stage] at filled
          exact filled_next filled
        printed := printed_of_running sound present running _ }

/-- While the timer is busy nobody has been cancelled. -/
theorem notRequested_of_busy
    (sound : Sound state)
    (busy : state.timer.busy = true) :
    state.cancelRequested = false := by
  refine Bool.eq_false_iff.mpr fun requested => ?_
  rw [sound.requested requested] at busy
  cases busy

/-- A busy timer goes on with a handle that is live. -/
theorem Sound.timerMoves
    (sound : Sound state)
    (busy : state.timer.busy = true)
    (timer : Timer)
    (stillBusy : timer.busy = true)
    (stopFlag : Bool) :
    Sound
      { state with
        timer := timer
        handle := some (.live stopFlag) } := by
  obtain ⟨before, held⟩ := sound.busy busy
  have some : state.handle ≠ none := by
    simp [held]
  have present : state.copier ≠ .absent := fun absent =>
    some (sound.absent.mp absent)
  have notRequested := notRequested_of_busy sound busy
  exact {
    sound with
    armed := fun none => by cases none
    busy := fun _ => ⟨stopFlag, rfl⟩
    requested := fun requested =>
      absurd (notRequested.symm.trans requested) Bool.false_ne_true
    finished := fun finished => by
      change timer = _ at finished
      rw [finished] at stillBusy
      cases stillBusy
    absent := by simp [present]
    early := fun early => by
      rw [sound.early early] at busy
      cases busy
    unspawned := fun unspawned => absurd (sound.unspawned unspawned) some
    joined := fun joined _ => sound.joined joined some
    freed := fun freed _ => by
      have gone := sound.freed freed some
      rw [held] at gone
      cases gone
    live := fun _ freed => by cases freed
    holding := fun _ none => by cases none
    filled := sound.filled
    printed := sound.printed }

/-- The timer thread keeps the invariant. -/
theorem Sound.timerStep
    (sound : Sound state)
    (taken : state.timerStep? = some next) :
    Sound next := by
  unfold State.timerStep? at taken
  cases stage : state.timer with
  | absent | finished =>
      simp [stage] at taken
  | created =>
      simp only [stage, Option.some.injEq] at taken
      subst taken
      have busy : state.timer.busy = true := by
        rw [stage]
        rfl
      obtain ⟨stopFlag, held⟩ := sound.busy busy
      have moved :=
        sound.timerMoves busy (.sleeping (state.now + afterNs)) rfl
          stopFlag
      rw [← held] at moved
      exact moved
  | sleeping wakeAt =>
      simp only [stage, Option.ite_none_right_eq_some,
        Option.some.injEq] at taken
      obtain ⟨_, rfl⟩ := taken
      have busy : state.timer.busy = true := by
        rw [stage]
        rfl
      obtain ⟨stopFlag, held⟩ := sound.busy busy
      have moved := sound.timerMoves busy .woken rfl stopFlag
      rw [← held] at moved
      exact moved
  | woken =>
      simp only [stage, Option.some.injEq] at taken
      subst taken
      have busy : state.timer.busy = true := by
        rw [stage]
        rfl
      obtain ⟨stopFlag, held⟩ := sound.busy busy
      rw [held]
      exact sound.timerMoves busy .flagSet rfl true
  | flagSet =>
      simp only [stage, Option.some.injEq] at taken
      subst taken
      have busy : state.timer.busy = true := by
        rw [stage]
        rfl
      obtain ⟨stopFlag, held⟩ := sound.busy busy
      exact {
        sound with
        armed := fun none => by
          rw [held] at none
          cases none
        busy := fun busy => absurd busy Bool.false_ne_true
        requested := fun _ => rfl
        finished := fun _ => rfl
        exited := fun _ => rfl
        early := fun early => by
          rw [sound.early early] at stage
          cases stage }

/-- Every step keeps the invariant. -/
theorem Sound.step
    (sound : Sound state)
    (taken : state.step? label = some next) :
    Sound next := by
  cases label with
  | main =>
      exact sound.mainStep taken
  | copier =>
      exact sound.copierStep taken
  | timer =>
      exact sound.timerStep taken
  | tick ns =>
      simp only [State.step?, Option.some.injEq] at taken
      subst taken
      exact { sound with }
  | spawnFails =>
      simp only [State.step?, Option.ite_none_right_eq_some,
        Option.some.injEq] at taken
      obtain ⟨stage, rfl⟩ := taken
      have printed := sound.printed
      rw [State.printed, stage] at printed
      have none := sound.unspawned (by rw [stage]; rfl)
      exact {
        sound with
        early := fun _ => sound.armed none
        unspawned := fun _ => none
        joined := fun joined => absurd joined Bool.false_ne_true
        freed := fun freed => absurd freed Bool.false_ne_true
        live := fun _ => by simp [none]
        holding := fun holding => by cases holding
        filled := fun _ => sound.filled (by rw [stage]; simp)
        printed := printed }
  | armFails =>
      simp only [State.step?, Option.ite_none_right_eq_some,
        Option.some.injEq] at taken
      obtain ⟨⟨stage, _⟩, rfl⟩ := taken
      have printed := sound.printed
      rw [State.printed, stage] at printed
      exact {
        sound with
        early := fun early => absurd early Bool.false_ne_true
        unspawned := fun unspawned => absurd unspawned Bool.false_ne_true
        joined := fun joined => absurd joined Bool.false_ne_true
        freed := fun freed => absurd freed Bool.false_ne_true
        live := fun _ => sound.live (by rw [stage]; rfl)
        holding := fun holding => by cases holding
        filled := fun _ => sound.filled (by rw [stage]; simp)
        printed := printed }
  | copierDies =>
      simp only [State.step?] at taken
      split at taken
      · rename_i field wakeAt stage
        simp only [Option.ite_none_right_eq_some,
          Option.some.injEq] at taken
        obtain ⟨requested, rfl⟩ := taken
        exact sound.dies (Or.inr ⟨wakeAt, stage⟩) requested
      · cases taken

/-- The timer and the main thread use a handle while it is live. -/
theorem Sound.touchesLive
    (sound : Sound state) :
    state.TouchesLive label := by
  cases label with
  | timer =>
      intro stage
      refine sound.busy ?_
      rcases stage with stage | stage <;> rw [stage] <;> rfl
  | main =>
      intro stage
      refine sound.live ?_
      rcases stage with stage | stage <;> rw [stage] <;> rfl
  | spawnFails | armFails | copier | copierDies | tick ns =>
      trivial

end Invariant

section Report

variable
  {now : Nat}
  {old : List Int}
  {labels : List Label}
  {state final : State}

/-- A run keeps the invariant. -/
theorem sound_of_run
    (ran : (State.start now old).run? labels = some final) :
    Sound final := by
  have kept :
      ∀ {before : State} {label : Label} {after : State},
        Sound before → before.step? label = some after → Sound after :=
    fun sound taken => sound.step taken
  exact Transition.run?_invariant kept ran (Sound.start now old)

/-- The record that is reported is copied up to some field. -/
theorem torn_of_returned
    (sound : Sound final)
    (stage : final.main = .returned) :
    ∃ fields, fields ≤ src.length ∧
      (fields = 0 ↔ final.handle = none) ∧ final.dst = torn fields := by
  have filled := sound.filled (by rw [stage]; simp)
  by_cases none : final.handle = none
  · rw [sound.absent.mpr none] at filled
    exact ⟨0, Nat.zero_le _, by simp [none], filled⟩
  · rw [sound.joined (by rw [stage]; rfl) none] at filled
    obtain ⟨fields, positive, small, here⟩ := filled
    exact ⟨fields, small, by simp [none]; omega, here⟩

/-- What holds once `tcm_run` has returned. -/
structure MidwriteEnds (final : State) : Prop where
  timer : final.timer.busy = false
  handle : final.handle = none ∨ final.handle = some .freed
  report :
    ∃ fields, fields ≤ src.length ∧
      (fields = 0 ↔ final.handle = none) ∧
      fieldsSet final.dst = fields ∧
      final.dst = torn fields ∧
      final.reports = midwritePreamble ++ midwriteReport (torn fields)

/--
The main thread joins its copier before the timer's time, which the header
forbids, and yet no thread uses a handle that has been freed: the copier ends
only when the timer has cancelled it, with its last use of the handle.
What is reported then is a record copied up to some field, with as many fields
set as are reported set; it is empty only if there was no thread to copy.
-/
theorem midwrite_safe
    (ran : (State.start now old).run? labels = some final) :
    Transition.EachStep State.step? State.TouchesLive
        (State.start now old) labels ∧
      (final.main = .returned → MidwriteEnds final) := by
  constructor
  · refine Transition.eachStep_mono
      (fun sound (_ : True) taken => Sound.step sound taken)
      (fun sound _ _ => Sound.touchesLive sound) ran
      (Transition.eachStep_of_forall (fun _ _ => trivial) _)
      (Sound.start now old)
  · intro stage
    have sound := sound_of_run ran
    obtain ⟨fields, small, some, here⟩ := torn_of_returned sound stage
    have printed := sound.printed
    rw [State.printed, stage, here] at printed
    refine {
      timer := ?_
      handle := ?_
      report :=
        ⟨fields, small, some, by rw [here, fieldsSet_torn fields small],
          here, printed⟩ }
    · refine Bool.eq_false_iff.mpr fun busy => ?_
      obtain ⟨stopFlag, held⟩ := sound.busy busy
      have freed := sound.freed (by rw [stage]; rfl) (by simp [held])
      rw [held] at freed
      cases freed
    · by_cases none : final.handle = none
      · exact Or.inl none
      · exact Or.inr (sound.freed (by rw [stage]; rfl) none)

/-- The steps of a copier that stores so many fields before it is cancelled. -/
def runFor : Nat → List Label
  | 0 =>
      [.main, .main, .spawnFails, .main, .main, .main]
  | fields + 1 =>
      [.main, .main, .main, .main] ++
        (List.replicate fields
          [.copier, .copier, .tick napNs, .copier]).flatten ++
        [.copier, .timer, .tick afterNs, .timer, .timer, .timer, .copier,
          .main, .main, .main]

/-- Every such run ends with as many fields copied. -/
theorem ends_runFor :
    ∀ fields ≤ src.length,
      ((State.start 0 zeroRecord).run? (runFor fields)).map
          (fun final => (final.main, final.dst)) =
        some (.returned, torn fields) := by
  decide +kernel

theorem midwrite_safe_torn :
    ∃ final,
      (State.start 0 zeroRecord).run? (runFor 5) = some final ∧
        Transition.EachStep State.step? State.TouchesLive
          (State.start 0 zeroRecord) (runFor 5) ∧
        MidwriteEnds final := by
  obtain ⟨final, ran, same⟩ :=
    Option.map_eq_some_iff.mp (ends_runFor 5 (by decide))
  obtain ⟨safe, ends⟩ := midwrite_safe ran
  exact ⟨final, ran, safe, ends (congrArg Prod.fst same)⟩

/--
The records that `tcm_run` can leave behind and report are exactly the ones
copied up to some field: a cancelled copy is torn after any of its fields, and
in no other way.
-/
theorem midwrite_torn_exact :
    (∀ dst,
      (∃ now old labels final,
          (State.start now old).run? labels = some final ∧
            final.main = .returned ∧ final.dst = dst) ↔
        ∃ fields ≤ src.length, dst = torn fields) ∧
      ∀ reports,
        (∃ now old labels final,
            (State.start now old).run? labels = some final ∧
              final.main = .returned ∧ final.reports = reports) ↔
          ∃ fields ≤ src.length,
            reports = midwritePreamble ++ midwriteReport (torn fields) := by
  have told : ∀ {now old labels final},
      (State.start now old).run? labels = some final →
        final.main = .returned →
          final.reports =
            midwritePreamble ++ midwriteReport final.dst := by
    intro now old labels final ran stage
    have printed := (sound_of_run ran).printed
    rwa [State.printed, stage] at printed
  have leaves : ∀ {now old labels final},
      (State.start now old).run? labels = some final →
        final.main = .returned →
          ∃ fields ≤ src.length, final.dst = torn fields := by
    intro now old labels final ran stage
    obtain ⟨fields, small, _, here⟩ :=
      torn_of_returned (sound_of_run ran) stage
    exact ⟨fields, small, here⟩
  have reached : ∀ fields ≤ src.length,
      ∃ labels final,
        (State.start 0 zeroRecord).run? labels = some final ∧
          final.main = .returned ∧ final.dst = torn fields := by
    intro fields small
    obtain ⟨final, ran, same⟩ :=
      Option.map_eq_some_iff.mp (ends_runFor fields small)
    exact ⟨runFor fields, final, ran, congrArg Prod.fst same,
      congrArg Prod.snd same⟩
  refine ⟨fun dst => ⟨?_, ?_⟩, fun reports => ⟨?_, ?_⟩⟩
  · rintro ⟨now, old, labels, final, ran, stage, rfl⟩
    exact leaves ran stage
  · rintro ⟨fields, small, rfl⟩
    obtain ⟨labels, final, ran, stage, here⟩ := reached fields small
    exact ⟨0, zeroRecord, labels, final, ran, stage, here⟩
  · rintro ⟨now, old, labels, final, ran, stage, rfl⟩
    obtain ⟨fields, small, here⟩ := leaves ran stage
    exact ⟨fields, small, here ▸ told ran stage⟩
  · rintro ⟨fields, small, rfl⟩
    obtain ⟨labels, final, ran, stage, here⟩ := reached fields small
    exact ⟨0, zeroRecord, labels, final, ran, stage,
      here ▸ told ran stage⟩

end Report

end FailurePlayground.CancelMidwrite
