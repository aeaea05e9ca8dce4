import FailurePlayground.ConnectionRun

namespace FailurePlayground.ConnectionReset

/-!
# The reset connection comes to its end

Every byte that a call hands over, every call, every error and every step of
the peer is one of finitely many.  Short of the end some thread can go on: a
full socket is read, or closed, by a peer that is still there.

Two things go wrong.  Without a peer the main thread waits for ever; and when
signals interrupt the first three writes it joins a peer that waits for a byte.
-/

section Measure

variable
  {setup : Setup}
  {capacity : Nat}
  {state next : State}
  {label : Label}

/-- The steps that an iteration takes at most. -/
def iterationCost (setup : Setup) : Nat :=
  setup.chunkBytes + 2

/-- What the iterations from `i` on and the report still take. -/
def loopCost (setup : Setup) (i : Nat) : Nat :=
  3 + (setup.iterations - i) * iterationCost setup

/-- What the main thread has still to do. -/
def MainStage.rank (setup : Setup) : MainStage → Nat
  | .pairing => 5 + loopCost setup 0
  | .ignoring => 4 + loopCost setup 0
  | .announcing => 3 + loopCost setup 0
  | .creating => 2 + loopCost setup 0
  | .announcingWrites => 1 + loopCost setup 0
  | .writing i done =>
      loopCost setup (i + 1) + (setup.chunkBytes - done) + 2
  | .failed i _ => loopCost setup (i + 1) + 1
  | .joining => 3
  | .closing => 2
  | .reporting => 1
  | .returned _ => 0

/-- What the peer has still to do. -/
def PeerStage.rank : PeerStage → Nat
  | .absent => 7
  | .reading => 6
  | .announcing => 5
  | .falling => 4
  | .sleeping _ => 3
  | .closing => 2
  | .closed => 1
  | .returned => 0

/-- What both threads have still to do. -/
def State.measure (setup : Setup) (state : State) : Nat :=
  state.main.rank setup + state.peer.rank

/-- A step of a thread or of the socket, a call that fails, or a signal. -/
def Label.acts : Label → Bool
  | .tick _ => false
  | _ => true

/-- A step of a thread or of the socket. -/
def Label.own : Label → Bool
  | .main | .accept _ | .broken _ | .peer | .receive _ => true
  | .socketpairFails | .createFails | .interrupt _ | .tick _ => false

/-- The peer is not created, or a signal interrupts the main thread. -/
def Label.Disturbs : Label → Prop
  | .createFails | .interrupt .main => True
  | .socketpairFails | .main | .accept _ | .broken _ | .peer | .receive _
  | .interrupt .peer | .tick _ => False

/-- An iteration has its cost. -/
theorem loopCost_succ
    {i : Nat}
    (inside : i < setup.iterations) :
    loopCost setup i = loopCost setup (i + 1) + iterationCost setup := by
  have split : setup.iterations - i = setup.iterations - (i + 1) + 1 := by
    omega
  rw [loopCost, split, Nat.add_mul, Nat.one_mul, loopCost]
  omega

/-- The loop takes no more than its iterations do. -/
theorem rank_loopHead (setup : Setup) (i : Nat) :
    (MainStage.loopHead setup.iterations i).rank setup ≤
      loopCost setup i := by
  unfold MainStage.loopHead
  split
  · rename_i inside
    rw [loopCost_succ inside]
    simp only [MainStage.rank, iterationCost]
    omega
  · simp only [MainStage.rank, loopCost]
    omega

/-- After an error no more is left than the loop would take. -/
theorem rank_afterError (setup : Setup) (errors i : Nat) :
    (MainStage.afterError setup errors i).rank setup ≤
      loopCost setup i := by
  unfold MainStage.afterError
  split
  · simp only [MainStage.rank, loopCost]
    omega
  · exact rank_loopHead setup i

/-- Every step of a thread lowers what is left. -/
theorem measure_lt
    (threads : Threads setup capacity state)
    (acts : label.acts = true)
    (taken : state.step? setup capacity label = some next) :
    next.measure setup < state.measure setup := by
  rcases move_of_step? taken with moved | ⟨ns, rfl, _⟩
  swap
  · exact absurd acts Bool.false_ne_true
  unfold State.measure
  generalize state.written label = ended at moved
  cases moved with
  | kills i stage heeded =>
      have ignored := threads.ignored (by rw [stage]; rfl)
      rw [ignored] at heeded
      cases heeded
  | announcesWrites stage =>
      have head := rank_loopHead setup 0
      have before : state.main.rank setup = 1 + loopCost setup 0 := by
        rw [stage]
        rfl
      simp only [State.report]
      omega
  | returns i done stage finished | cuts i done stage positive =>
      have head := rank_loopHead setup (i + 1)
      have before :
          state.main.rank setup =
            loopCost setup (i + 1) + (setup.chunkBytes - done) + 2 := by
        rw [stage]
        rfl
      simp only
      omega
  | notes i errno stage =>
      have head := rank_afterError setup (state.errors + 1) (i + 1)
      have same : (state.note i errno).peer = state.peer := by
        unfold State.note
        split <;> rfl
      have before :
          state.main.rank setup = loopCost setup (i + 1) + 1 := by
        rw [stage]
        rfl
      simp only [same]
      omega
  | accepts i done count stage isOpen positive small room =>
      simp only [stage, MainStage.rank]
      omega
  | pairingFails stage | pairs stage | ignores stage | announces stage
  | fails i errno stage gone | createFails stage | joins stage done | closes stage
  | reports stage =>
      simp only [State.report, stage, MainStage.rank]
      omega
  | creates stage =>
      rw [threads.absent (by rw [stage]; rfl)]
      simp only [stage, MainStage.rank, PeerStage.rank]
      omega
  | receives count stage positive small there | receivesNothing stage =>
      simp only [stage, PeerStage.rank]
      omega
  | peerAnnounces stage | peerSleeps stage | peerWakes wakeAt stage
  | peerCloses stage | peerReturns stage =>
      simp only [State.report, stage, PeerStage.rank]
      omega

end Measure

section Progress

variable
  {setup : Setup}
  {capacity : Nat}
  {state next : State}
  {label : Label}

/-- Some thread goes on by itself, if need be after a sleep. -/
def Moves (setup : Setup) (capacity : Nat) (state : State) : Prop :=
  ∃ ns label, label.own = true ∧
    ({ state with now := state.now + ns }.step? setup capacity
      label).isSome = true

/--
The main thread waits for a peer that was not created, or for one that waits
for a byte.
-/
def Stranded
    (setup : Setup)
    (capacity : Nat)
    (state : State) : Prop :=
  match state.main with
  | .writing _ done =>
      state.peer = .absent ∧ done < setup.chunkBytes ∧
        capacity ≤ state.queued
  | .joining =>
      state.peer = .absent ∨ state.peer = .reading ∧ state.queued = 0
  | _ => False

/-- A peer that has been created and has not returned goes on. -/
theorem moves_of_peer
    (threads : Threads setup capacity state)
    (created : state.peer ≠ .absent)
    (running : state.peer ≠ .returned)
    (waiting : state.peer = .reading → 0 < state.queued) :
    Moves setup capacity state := by
  have alive := threads.alive
  cases stage : state.peer with
  | absent =>
      exact absurd stage created
  | returned =>
      exact absurd stage running
  | reading =>
      have positive := waiting stage
      have readable := setup.rbufPositive
      refine ⟨0, .receive 1, rfl, ?_⟩
      have here : 1 ≤ setup.rbufBytes ∧ 1 ≤ state.queued :=
        ⟨readable, positive⟩
      simp [State.step?, alive, stage, here]
  | sleeping wakeAt =>
      exact ⟨wakeAt, .peer, rfl, by
        simp [State.step?, State.peerStep?, alive, stage]⟩
  | announcing | falling | closing | closed =>
      exact ⟨0, .peer, rfl, by
        simp [State.step?, State.peerStep?, alive, stage]⟩

/-- A step of the main thread that leaves nothing to the kernel. -/
theorem moves_of_main
    (threads : Threads setup capacity state)
    (taken : (state.mainStep? setup).isSome = true) :
    Moves setup capacity state := by
  refine ⟨0, .main, rfl, ?_⟩
  have alive : ¬ state.killed = true := by
    simp [threads.alive]
  simp only [Nat.add_zero, State.step?, if_neg alive]
  exact taken

/-- Until `cr_run` returns something can move, unless it is stranded. -/
theorem moves_of_not_stranded
    (wide : 0 < capacity)
    (threads : Threads setup capacity state)
    (small : ∀ i done, state.main = .writing i done →
      done ≤ setup.chunkBytes)
    (unfinished : ∀ rc, state.main ≠ .returned rc)
    (free : ¬ Stranded setup capacity state) :
    Moves setup capacity state := by
  unfold Stranded at free
  cases stage : state.main with
  | pairing | ignoring | announcing | creating | announcingWrites
  | failed i errno | closing | reporting =>
      exact moves_of_main threads (by simp [State.mainStep?, stage])
  | joining =>
      simp only [stage] at free
      by_cases returned : state.peer = .returned
      · exact moves_of_main threads
          (by simp [State.mainStep?, stage, returned])
      · refine moves_of_peer threads (fun absent => free (Or.inl absent))
          returned fun reading => ?_
        exact Nat.pos_of_ne_zero fun empty =>
          free (Or.inr ⟨reading, empty⟩)
  | returned rc =>
      exact absurd stage (unfinished rc)
  | writing i done =>
      simp only [stage] at free
      have small := small i done stage
      cases isOpen : state.peerOpen with
      | false =>
          by_cases some : 0 < done
          · exact moves_of_main threads
              (by simp [State.mainStep?, stage, isOpen, some])
          · obtain rfl : done = 0 := by
              omega
            exact ⟨0, .broken .econnreset, rfl, by
              simp [State.step?, threads.alive, stage, isOpen]⟩
      | true =>
          by_cases whole : done = setup.chunkBytes
          · exact moves_of_main threads
              (by simp [State.mainStep?, stage, whole])
          by_cases room : state.queued < capacity
          · have fits :
                done + 1 ≤ setup.chunkBytes ∧
                  state.queued + 1 ≤ capacity := by
              omega
            exact ⟨0, .accept 1, rfl, by
              simp [State.step?, threads.alive, stage, isOpen, fits]⟩
          · refine moves_of_peer threads (fun absent => ?_) ?_
              fun _ => by omega
            · exact free ⟨absent, by omega, by omega⟩
            · intro returned
              rw [threads.peerOpen, returned] at isOpen
              simp [PeerStage.gone] at isOpen

/-- And nothing can when it is. -/
theorem stranded_stays
    (threads : Threads setup capacity state)
    (stranded : Stranded setup capacity state) :
    ¬ Moves setup capacity state := by
  rintro ⟨ns, label, own, enabled⟩
  have alive := threads.alive
  have isOpen := threads.peerOpen
  unfold Stranded at stranded
  split at stranded
  · rename_i i done stage
    obtain ⟨absent, part, full⟩ := stranded
    rw [stage, absent] at isOpen
    simp only [MainStage.paired, PeerStage.gone, Bool.not_false,
      Bool.and_true] at isOpen
    cases label with
    | main =>
        simp only [State.step?, State.mainStep?, alive, stage, isOpen] at enabled
        simp [part.ne] at enabled
    | accept count =>
        simp only [State.step?, alive, stage, isOpen] at enabled
        split at enabled
        · cases enabled
        · simp at enabled
          omega
    | broken errno =>
        cases done <;> simp [State.step?, alive, stage, isOpen] at enabled
    | peer =>
        simp [State.step?, State.peerStep?, alive, absent] at enabled
    | receive count =>
        simp [State.step?, alive, absent] at enabled
    | socketpairFails | createFails | interrupt thread | tick more =>
        exact Bool.false_ne_true own
  · rename_i stage
    cases label with
    | main =>
        rcases stranded with absent | ⟨reading, _⟩
        · simp [State.step?, State.mainStep?, alive, stage,
            absent] at enabled
        · simp [State.step?, State.mainStep?, alive, stage,
            reading] at enabled
    | accept count | broken errno =>
        simp [State.step?, alive, stage] at enabled
    | peer =>
        rcases stranded with absent | ⟨reading, _⟩
        · simp [State.step?, State.peerStep?, alive, absent] at enabled
        · simp [State.step?, State.peerStep?, alive, reading] at enabled
    | receive count =>
        rcases stranded with absent | ⟨_, empty⟩
        · simp [State.step?, alive, absent] at enabled
        · simp [State.step?, alive, empty] at enabled
          omega
    | socketpairFails | createFails | interrupt thread | tick more =>
        exact Bool.false_ne_true own
  · exact stranded

end Progress

section Undisturbed

variable
  {setup : Setup}
  {capacity now : Nat}
  {state next : State}
  {label : Label}
  {labels : List Label}

/-- A write of the main thread has ended. -/
def MainStage.tried : MainStage → Bool
  | .writing i _ => i != 0
  | .failed _ _ | .joining | .closing | .reporting => true
  | .returned rc => rc == 0
  | .pairing | .ignoring | .announcing | .creating | .announcingWrites =>
      false

/-- The peer is there, and has something to read or is gone. -/
structure Fed (state : State) : Prop where
  created : state.main.spawned = true → state.peer ≠ .absent
  calm : state.main.interrupted = false
  sent : state.main.tried = true →
    0 < state.total ∨ state.peerOpen = false

/-- The loop has no write behind it when it starts. -/
theorem tried_loopHead (setup : Setup) :
    (MainStage.loopHead setup.iterations 0).tried = false := by
  rw [MainStage.loopHead, if_pos setup.iterationsPositive]
  rfl

/-- The peer's steps do not undo its creation. -/
theorem created_peerStep?
    (taken : state.peerStep? setup = some next) :
    next.peer ≠ .absent := by
  unfold State.peerStep? at taken
  split at taken
  case h_6 =>
    simp only [Option.ite_none_right_eq_some, Option.some.injEq] at taken
    rw [← taken.2]
    exact PeerStage.noConfusion
  all_goals
    cases taken
    try exact PeerStage.noConfusion

/-- The main thread has created its peer, or not come to it. -/
theorem created_mainStep?
    (created : state.main.spawned = true → state.peer ≠ .absent)
    (taken : state.mainStep? setup = some next)
    (spawned : next.main.spawned = true) :
    next.peer ≠ .absent := by
  unfold State.mainStep? at taken
  cases stage : state.main with
  | pairing | ignoring | announcing =>
      simp only [stage, Option.some.injEq] at taken
      rw [← taken] at spawned
      exact absurd spawned Bool.false_ne_true
  | creating =>
      simp only [stage, Option.some.injEq] at taken
      rw [← taken]
      exact PeerStage.noConfusion
  | announcingWrites | closing | reporting =>
      simp only [stage, Option.some.injEq] at taken
      rw [← taken]
      exact created (by rw [stage]; rfl)
  | failed i errno =>
      have same : (state.note i errno).peer = state.peer := by
        unfold State.note
        split <;> rfl
      simp only [stage, Option.some.injEq] at taken
      rw [← taken]
      exact same ▸ created (by rw [stage]; rfl)
  | writing i done | joining =>
      simp only [stage, Option.ite_none_right_eq_some,
        Option.some.injEq] at taken
      rw [← taken.2]
      exact created (by rw [stage]; rfl)
  | returned rc =>
      simp [stage] at taken

/-- A step without a failing `pthread_create` keeps the peer created. -/
theorem created_step
    (created : state.main.spawned = true → state.peer ≠ .absent)
    (kind : ¬ label.Disturbs)
    (taken : state.step? setup capacity label = some next)
    (spawned : next.main.spawned = true) :
    next.peer ≠ .absent := by
  unfold State.step? at taken
  split at taken
  · cases taken
  cases label with
  | main =>
      exact created_mainStep? created taken spawned
  | peer =>
      exact created_peerStep? taken
  | createFails =>
      exact absurd trivial kind
  | socketpairFails =>
      simp only [Option.ite_none_right_eq_some, Option.some.injEq] at taken
      rw [← taken.2] at spawned
      exact absurd spawned Bool.false_ne_true
  | receive count =>
      simp only [Option.ite_none_right_eq_some, Option.some.injEq] at taken
      rw [← taken.2]
      exact PeerStage.noConfusion
  | tick ns =>
      rw [← Option.some.inj taken] at spawned ⊢
      exact created spawned
  | accept count =>
      simp only at taken
      split at taken
      · rename_i i done stage
        simp only [Option.ite_none_right_eq_some,
          Option.some.injEq] at taken
        rw [← taken.2]
        exact created (by rw [stage]; rfl)
      · cases taken
  | broken errno =>
      simp only at taken
      split at taken
      · rename_i i stage
        have there := created (by rw [stage]; rfl)
        split at taken
        · cases taken
        · split at taken <;>
          · rw [← Option.some.inj taken]
            exact there
      · cases taken
  | interrupt thread =>
      cases thread with
      | main =>
          exact absurd trivial kind
      | peer =>
          simp only [State.interrupted?] at taken
          split at taken
          · rw [← Option.some.inj taken]
            exact PeerStage.noConfusion
          · rw [← Option.some.inj taken]
            exact PeerStage.noConfusion
          · cases taken

/-- A step that nothing disturbs keeps the peer fed. -/
theorem Fed.step
    (threads : Threads setup capacity state)
    (fed : Fed state)
    (kind : ¬ label.Disturbs)
    (taken : state.step? setup capacity label = some next) :
    Fed next := by
  have calm : next.main.interrupted = false := by
    refine interrupted_step fed.calm ?_ taken
    rintro rfl
    exact kind trivial
  refine ⟨created_step fed.created kind taken, calm, fun tried => ?_⟩
  have sent := fed.sent
  rcases move_of_step? taken with moved | ⟨ns, rfl, rfl⟩
  swap
  · exact sent tried
  generalize state.written label = ended at moved
  cases moved with
  | pairingFails stage | pairs stage | ignores stage | announces stage
  | creates stage | createFails stage =>
      exact absurd tried Bool.false_ne_true
  | announcesWrites stage =>
      exact absurd ((tried_loopHead setup).symm.trans tried)
        Bool.false_ne_true
  | kills i stage heeded =>
      have ignored := threads.ignored (by rw [stage]; rfl)
      exact absurd (heeded.symm.trans ignored) Bool.false_ne_true
  | returns i done stage finished =>
      have positive := setup.chunkPositive
      exact Or.inl (by simp only; omega)
  | cuts i done stage positive =>
      exact Or.inl (by simp only; omega)
  | accepts i done count stage isOpen positive small room =>
      rw [stage] at sent
      exact sent tried
  | fails i errno stage gone =>
      refine Or.inr (gone.resolve_left ?_)
      exact beq_eq_false_iff_ne.mp calm
  | notes i errno stage =>
      have same : (state.note i errno).total = state.total ∧
          (state.note i errno).peerOpen = state.peerOpen := by
        unfold State.note
        split <;> exact ⟨rfl, rfl⟩
      change 0 < (state.note i errno).total ∨
        (state.note i errno).peerOpen = false
      rw [same.1, same.2]
      exact sent (by rw [stage]; rfl)
  | joins stage done | closes stage | reports stage =>
      exact sent (by rw [stage]; rfl)
  | peerCloses stage =>
      exact Or.inr rfl
  | receives count stage positive small there | receivesNothing stage
  | peerAnnounces stage | peerSleeps stage | peerWakes wakeAt stage
  | peerReturns stage =>
      exact sent tried

/-- A peer that is fed strands nobody. -/
theorem Fed.not_stranded
    (threads : Threads setup capacity state)
    (fed : Fed state) :
    ¬ Stranded setup capacity state := by
  intro stranded
  unfold Stranded at stranded
  split at stranded
  · rename_i i done stage
    exact fed.created (by rw [stage]; rfl) stranded.1
  · rename_i stage
    rcases stranded with absent | ⟨reading, empty⟩
    · exact fed.created (by rw [stage]; rfl) absent
    · have unread := threads.unread (by rw [reading]; rfl)
      have flow := threads.flow
      have isOpen := threads.peerOpen
      rw [stage, unread, empty] at flow
      rw [stage, reading] at isOpen
      rcases fed.sent (by rw [stage]; rfl) with some | closed
      · simp only [MainStage.inCall] at flow
        omega
      · exact Bool.false_ne_true (closed.symm.trans isOpen)
  · exact stranded

/-- Nobody is stranded in a run that nothing disturbs. -/
theorem not_stranded_of_run
    (kind : ∀ label ∈ labels, ¬ label.Disturbs)
    (ran :
      State.run? setup capacity (State.start now) labels = some state) :
    ¬ Stranded setup capacity state := by
  have kept : ∀ {before : State} {label : Label} {after : State},
      Threads setup capacity before ∧ Fed before →
      ¬ label.Disturbs →
      before.step? setup capacity label = some after →
      Threads setup capacity after ∧ Fed after :=
    fun both kind taken =>
      ⟨both.1.step taken, both.2.step both.1 kind taken⟩
  have fed : Fed (State.start now) :=
    ⟨fun spawned => absurd spawned Bool.false_ne_true, rfl,
      fun tried => absurd tried Bool.false_ne_true⟩
  obtain ⟨threads, fed⟩ := Transition.run?_invariant_of_eachStep kept ran
    (Transition.eachStep_of_forall kind _) ⟨Threads.start now, fed⟩
  exact fed.not_stranded threads

end Undisturbed

/-- More steps than these no run makes. -/
def stepBound (setup : Setup) : Nat :=
  15 + setup.iterations * (setup.chunkBytes + 2)

/-- What is known of the end of a run that has come to a state. -/
structure Terminates
    (setup : Setup)
    (capacity : Nat)
    (labels : List Label)
    (state : State) : Prop where
  bounded : labels.countP Label.acts ≤ stepBound setup
  moves_iff :
    (∀ rc, state.main ≠ .returned rc) →
      (Moves setup capacity state ↔ ¬ Stranded setup capacity state)
  free :
    (∀ label ∈ labels, ¬ label.Disturbs) →
      ¬ Stranded setup capacity state

/--
A run makes no more steps than its constants allow, whatever the socket holds,
and until `cr_run` has returned some thread goes on, at most after a sleep,
unless the main thread is stranded.  It is not when the peer is created and no
signal comes: a writer before a full socket waits for a peer that reads or
closes.
-/
theorem connection_terminates
    {setup : Setup}
    {capacity now : Nat}
    {labels : List Label}
    {state : State}
    (wide : 0 < capacity)
    (ran :
      State.run? setup capacity (State.start now) labels = some state) :
    Terminates setup capacity labels state := by
  obtain ⟨threads, counted, _⟩ := sound_of_run ran
  refine ⟨?_, fun unfinished => ⟨fun moves stranded => ?_, ?_⟩,
    fun kind => not_stranded_of_run kind ran⟩
  · have initial :
        (State.start now).measure setup = stepBound setup := by
      simp only [State.measure, State.start, MainStage.rank,
        PeerStage.rank, loopCost, iterationCost, stepBound, Nat.sub_zero]
      omega
    rw [← initial]
    refine Transition.countP_productive_le Label.acts
      (State.measure setup)
      (fun threads (_ : True) taken => Threads.step threads taken) ?_ ?_
      ran (Transition.eachStep_of_forall (fun _ _ => trivial) _)
      (Threads.start now)
    · intro before label after threads _ taken acts
      exact measure_lt threads acts taken
    · intro before label after threads _ taken idle
      cases label with
      | tick ns =>
          simp only [State.step?, threads.alive, Bool.false_eq_true,
            if_false, Option.some.injEq] at taken
          rw [← taken]
          exact Nat.le_refl _
      | socketpairFails | createFails | main | accept count | broken errno
      | peer | receive count | interrupt thread =>
          exact absurd idle (by simp [Label.acts])
  · exact stranded_stays threads stranded moves
  · refine moves_of_not_stranded wide threads (fun i done stage => ?_)
      unfinished
    have placed := counted.placed
    rw [Placed, stage] at placed
    exact placed.2.2.2

/-- One chunk is read, and two more fill the socket. -/
def fullRun : List Label :=
  [.main, .main, .main, .main, .main, .accept 4096, .receive 4096, .main,
    .peer, .accept 4096, .main, .accept 4096, .main, .peer]

/-- The fourth write waits before a full socket while the peer sleeps. -/
theorem connection_terminates_full :
    ∃ state,
      State.run? reset 8192 (State.start 0) fullRun = some state ∧
        state.queued = 8192 ∧
        fullRun.countP Label.acts ≤ stepBound reset ∧
        Moves reset 8192 state := by
  have enabled :
      (State.run? reset 8192 (State.start 0) fullRun).map
        (fun state => (state.main, state.queued)) =
          some (.writing 3 0, 8192) := by
    decide +kernel
  have kind : ∀ label ∈ fullRun, ¬ label.Disturbs := by
    simp [fullRun, Label.Disturbs]
  obtain ⟨state, ran, reached⟩ := Option.map_eq_some_iff.mp enabled
  obtain ⟨writing, full⟩ := Prod.mk.inj reached
  have terminates := connection_terminates (by decide) ran
  have unfinished : ∀ rc, state.main ≠ .returned rc := fun rc returned => by
    rw [writing] at returned
    cases returned
  exact ⟨state, ran, full, terminates.bounded,
    (terminates.moves_iff unfinished).mpr (terminates.free kind)⟩

end FailurePlayground.ConnectionReset
