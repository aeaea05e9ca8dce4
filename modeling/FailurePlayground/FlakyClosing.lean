import FailurePlayground.FlakyProgress
import FailurePlayground.NetCloseProgress

namespace FailurePlayground.FlakyEnvironment

/-!
# The heartbeat returns

Beside the main thread run the forwarders of the pair and a drainer that reads
what comes out of it.  `chaos_net_close` may close `fd_b` while the drainer is
inside its `read`, which then holds the socket until it returns; afterwards the
drainer's `read` fails, and until then no forwarder writes to a closed end.
No drainer may come to be, since `pthread_create` is not checked; the last join
is then one of an unset `drain_th`.
-/

open ChaosNet

/-- `net_k`: 2 to 5 ms of delay and chunks of 32 bytes. -/
def flakyKnobs : Knobs where
  lossProb := .finite 0
  delayMinNs := 2 * 1000000
  delayMaxNs := 5 * 1000000
  maxChunkBytes := 32

/-- The size of the buffer of `drain_fn`. -/
def drainBufSize : Nat := 512

/-- Where the drainer stands in `drain_fn`. -/
inductive Drainer where
  | notCreated
  | absent
  | starting
  | calling
  | reading
  | returned
  deriving Repr, DecidableEq

/--
The main thread, the pair, the drainer, whether `fd_b` is open, and how far
`chaos_net_close` and the join after it have come.
-/
structure System where
  heart : State
  pair : Pair
  drainer : Drainer
  fdOpen : Bool
  closing : Closing
  returned : Bool

/--
The main thread takes a step, sleeps or is interrupted; it writes a token that
the socket takes; `pthread_create` answers; a forwarder or the drainer takes a
step; the main thread takes everything down.
-/
inductive Event where
  | heart (label : Label)
  | beats (answer : Option Nat)
  | creates (succeeds : Bool)
  | forward (label : ChaosNet.Label)
  | drain (answer : Option Nat)
  | close
  deriving DecidableEq

/-- `tok`. -/
def token (i : Nat) : UInt8 :=
  65 + UInt8.ofNat (i % 26)

/-- There is a pair. -/
def Stage.paired : Stage → Bool
  | .pairing | .returned _ => false
  | _ => true

namespace System

/-- The drainer leaves its `read`, and lets go of a socket that was closed. -/
def leave? (system : System) (drainer : Drainer) : Option System :=
  if system.fdOpen then
    some { system with drainer := drainer }
  else
    (system.pair.step? (.closeUser .b)).map fun pair =>
      { system with pair := pair, drainer := drainer }

/-- A step of `drain_fn`. -/
def drainStep? (system : System) (answer : Option Nat) : Option System :=
  match system.drainer with
  | .notCreated | .absent | .returned =>
      none
  | .starting =>
      -- The drainer loads `fd_b`, which may be -1 by now.
      some { system with
        drainer := if system.fdOpen then .calling else .returned }
  | .calling =>
      some { system with
        drainer := if system.fdOpen then .reading else .returned }
  | .reading =>
      match answer with
      | none =>
          system.leave? .returned
      | some count =>
          if count = 0 then
            if (system.pair.direction .a).arrived = [] ∧
                (system.pair.direction .a).ended then
              system.leave? .returned
            else
              none
          else if count ≤ drainBufSize then
            (system.pair.step? (.receive .b count)).bind fun pair =>
              { system with pair := pair }.leave? .calling
          else
            none

/-- A step of `chaos_net_close`, or the join of the drainer after it. -/
def closeStep? (system : System) (rc : Int) : Option System :=
  match system.closing with
  | .notCalled =>
      (system.pair.step? (.closeUser .a)).map fun pair =>
        { system with pair := pair, closing := .closedA }
  | .closedA =>
      if system.drainer = .reading then
        some { system with fdOpen := false, closing := .closedBoth }
      else
        (system.pair.step? (.closeUser .b)).map fun pair =>
          { system with
            pair := pair
            fdOpen := false
            closing := .closedBoth }
  | .closedBoth =>
      if (system.pair.direction .a).forward = .returned then
        some { system with closing := .joinedA }
      else
        none
  | .joinedA =>
      if (system.pair.direction .b).forward = .returned then
        some { system with closing := .joinedBoth }
      else
        none
  | .joinedBoth =>
      if system.returned = false ∧
          (rc = 0 → system.drainer = .returned) then
        some { system with returned := true }
      else
        none

/-- Execute one enabled event; a killed process has none. -/
def step? (setup : Setup) (system : System) : Event → Option System
  | .heart label =>
      if system.pair.killed ∨
          system.heart.main = .announcing ∧
            system.drainer = .notCreated then
        none
      else
        (system.heart.step? setup label).map fun heart =>
          { system with heart := heart }
  | .beats answer =>
      match system.heart.main with
      | .writing i =>
          (system.pair.step? (.send .a [token i])).bind fun pair =>
            (system.heart.mainStep? setup answer).map fun heart =>
              { system with heart := heart, pair := pair }
      | _ => none
  | .creates succeeds =>
      if system.pair.killed = false ∧
          system.heart.main = .announcing ∧
            system.drainer = .notCreated then
        some { system with
          drainer := if succeeds then .starting else .absent }
      else
        none
  | .forward label =>
      if system.heart.main.paired ∧
          (CloseLabel.step label).ofClosing then
        (system.pair.step? label).map fun pair =>
          { system with pair := pair }
      else
        none
  | .drain answer =>
      if system.pair.killed then
        none
      else
        system.drainStep? answer
  | .close =>
      match system.heart.main with
      | .closing rc =>
          if system.pair.killed then
            none
          else
            system.closeStep? rc
      | _ => none

/-- Execute a finite interleaving. -/
abbrev run? (setup : Setup) : System → List Event → Option System :=
  Transition.run? (step? setup)

/-- The system before the first step of `run`. -/
def init (k : Knobs) (seed : UInt64) (now : Nat) : System where
  heart := State.init seed now
  pair := Pair.start k seed
  drainer := .notCreated
  fdOpen := true
  closing := .notCalled
  returned := false

end System

section Moves

variable
  {setup : Setup}
  {system next : System}
  {event : Event}
  {drainer : Drainer}

/-- What becomes of the socket when the drainer leaves its `read`. -/
theorem leave?_cases
    (left : system.leave? drainer = some next) :
    (system.fdOpen = true ∧ next = { system with drainer := drainer }) ∨
      (system.fdOpen = false ∧
        ∃ pair,
          system.pair.step? (.closeUser .b) = some pair ∧
            next = { system with pair := pair, drainer := drainer }) := by
  unfold System.leave? at left
  split at left
  · rename_i isOpen
    exact Or.inl ⟨isOpen, (Option.some.inj left).symm⟩
  · rename_i closed
    obtain ⟨pair, closes, rfl⟩ := Option.map_eq_some_iff.mp left
    exact Or.inr ⟨Bool.eq_false_of_not_eq_true closed, pair, closes, rfl⟩

/-- The steps of the system. -/
inductive Happens (setup : Setup) (system : System) :
    Event → System → Prop where
  | heart
      (label : Label)
      (heart : State)
      (alive : system.pair.killed = false)
      (free : ¬ (system.heart.main = .announcing ∧
        system.drainer = .notCreated))
      (taken : system.heart.step? setup label = some heart) :
      Happens setup system (.heart label) { system with heart := heart }
  | beats
      (answer : Option Nat)
      (i : Nat)
      (pair : Pair)
      (heart : State)
      (stage : system.heart.main = .writing i)
      (sent : system.pair.step? (.send .a [token i]) = some pair)
      (taken : system.heart.mainStep? setup answer = some heart) :
      Happens setup system (.beats answer)
        { system with heart := heart, pair := pair }
  | creates
      (succeeds : Bool)
      (alive : system.pair.killed = false)
      (stage : system.heart.main = .announcing)
      (drainer : system.drainer = .notCreated) :
      Happens setup system (.creates succeeds)
        { system with
          drainer := if succeeds then .starting else .absent }
  | forwards
      (label : ChaosNet.Label)
      (pair : Pair)
      (own : (CloseLabel.step label).ofClosing = true)
      (taken : system.pair.step? label = some pair) :
      Happens setup system (.forward label) { system with pair := pair }
  | starts
      (answer : Option Nat)
      (alive : system.pair.killed = false)
      (stage : system.drainer = .starting) :
      Happens setup system (.drain answer)
        { system with
          drainer := if system.fdOpen then .calling else .returned }
  | calls
      (answer : Option Nat)
      (alive : system.pair.killed = false)
      (stage : system.drainer = .calling) :
      Happens setup system (.drain answer)
        { system with
          drainer := if system.fdOpen then .reading else .returned }
  | stops
      (answer : Option Nat)
      (next : System)
      (alive : system.pair.killed = false)
      (stage : system.drainer = .reading)
      (left : system.leave? .returned = some next) :
      Happens setup system (.drain answer) next
  | drains
      (count : Nat)
      (pair : Pair)
      (next : System)
      (stage : system.drainer = .reading)
      (received : system.pair.step? (.receive .b count) = some pair)
      (left : { system with pair := pair }.leave? .calling = some next) :
      Happens setup system (.drain (some count)) next
  | closesA
      (rc : Int)
      (pair : Pair)
      (main : system.heart.main = .closing rc)
      (here : system.closing = .notCalled)
      (taken : system.pair.step? (.closeUser .a) = some pair) :
      Happens setup system .close
        { system with pair := pair, closing := .closedA }
  | closesHeld
      (rc : Int)
      (main : system.heart.main = .closing rc)
      (alive : system.pair.killed = false)
      (here : system.closing = .closedA)
      (reading : system.drainer = .reading) :
      Happens setup system .close
        { system with fdOpen := false, closing := .closedBoth }
  | closesB
      (rc : Int)
      (pair : Pair)
      (main : system.heart.main = .closing rc)
      (here : system.closing = .closedA)
      (reading : system.drainer ≠ .reading)
      (taken : system.pair.step? (.closeUser .b) = some pair) :
      Happens setup system .close
        { system with
          pair := pair
          fdOpen := false
          closing := .closedBoth }
  | joinsA
      (rc : Int)
      (main : system.heart.main = .closing rc)
      (alive : system.pair.killed = false)
      (here : system.closing = .closedBoth)
      (returned : (system.pair.direction .a).forward = .returned) :
      Happens setup system .close { system with closing := .joinedA }
  | joinsB
      (rc : Int)
      (main : system.heart.main = .closing rc)
      (alive : system.pair.killed = false)
      (here : system.closing = .joinedA)
      (returned : (system.pair.direction .b).forward = .returned) :
      Happens setup system .close { system with closing := .joinedBoth }
  | returns
      (rc : Int)
      (main : system.heart.main = .closing rc)
      (alive : system.pair.killed = false)
      (here : system.closing = .joinedBoth)
      (waiting : system.returned = false)
      (joined : rc = 0 → system.drainer = .returned) :
      Happens setup system .close { system with returned := true }

/-- Every step of the drainer is one of these. -/
theorem happens_of_drainStep?
    {answer : Option Nat}
    (alive : system.pair.killed = false)
    (taken : system.drainStep? answer = some next) :
    Happens setup system (.drain answer) next := by
  unfold System.drainStep? at taken
  cases stage : system.drainer with
  | notCreated | absent | returned =>
      simp [stage] at taken
  | starting =>
      simp only [stage, Option.some.injEq] at taken
      exact taken ▸ .starts answer alive stage
  | calling =>
      simp only [stage, Option.some.injEq] at taken
      exact taken ▸ .calls answer alive stage
  | reading =>
      simp only [stage] at taken
      split at taken
      · exact .stops _ next alive stage taken
      · rename_i count
        split at taken
        · simp only [Option.ite_none_right_eq_some] at taken
          exact .stops _ next alive stage taken.2
        · simp only [Option.ite_none_right_eq_some] at taken
          obtain ⟨pair, received, left⟩ :=
            Option.bind_eq_some_iff.mp taken.2
          exact .drains count pair next stage received left

/-- Every step of `chaos_net_close` and the join after it is one of these. -/
theorem happens_of_closeStep?
    {rc : Int}
    (main : system.heart.main = .closing rc)
    (alive : system.pair.killed = false)
    (taken : system.closeStep? rc = some next) :
    Happens setup system .close next := by
  unfold System.closeStep? at taken
  cases here : system.closing with
  | notCalled =>
      simp only [here, Option.map_eq_some_iff] at taken
      obtain ⟨pair, closes, rfl⟩ := taken
      exact .closesA rc pair main here closes
  | closedA =>
      simp only [here] at taken
      split at taken
      · rename_i reading
        exact Option.some.inj taken ▸
          .closesHeld rc main alive here reading
      · rename_i reading
        obtain ⟨pair, closes, rfl⟩ := Option.map_eq_some_iff.mp taken
        exact .closesB rc pair main here reading closes
  | closedBoth =>
      simp only [here, Option.ite_none_right_eq_some,
        Option.some.injEq] at taken
      obtain ⟨returned, rfl⟩ := taken
      exact .joinsA rc main alive here returned
  | joinedA =>
      simp only [here, Option.ite_none_right_eq_some,
        Option.some.injEq] at taken
      obtain ⟨returned, rfl⟩ := taken
      exact .joinsB rc main alive here returned
  | joinedBoth =>
      simp only [here, Option.ite_none_right_eq_some,
        Option.some.injEq] at taken
      obtain ⟨⟨waiting, joined⟩, same⟩ := taken
      rw [← here] at same
      exact same ▸ .returns rc main alive here waiting joined

/-- Every step is one of these. -/
theorem happens_of_step?
    (taken : system.step? setup event = some next) :
    Happens setup system event next := by
  cases event with
  | heart label =>
      simp only [System.step?, Option.ite_none_left_eq_some, not_or,
        Option.map_eq_some_iff] at taken
      obtain ⟨⟨alive, free⟩, heart, stepped, rfl⟩ := taken
      exact .heart label heart (Bool.eq_false_of_not_eq_true alive) free
        stepped
  | beats answer =>
      simp only [System.step?] at taken
      split at taken
      · rename_i i stage
        obtain ⟨pair, sent, rest⟩ := Option.bind_eq_some_iff.mp taken
        obtain ⟨heart, stepped, rfl⟩ := Option.map_eq_some_iff.mp rest
        exact .beats answer i pair heart stage sent stepped
      · cases taken
  | creates succeeds =>
      simp only [System.step?, Option.ite_none_right_eq_some,
        Option.some.injEq] at taken
      obtain ⟨⟨alive, stage, drainer⟩, rfl⟩ := taken
      exact .creates succeeds alive stage drainer
  | forward label =>
      simp only [System.step?, Option.ite_none_right_eq_some,
        Option.map_eq_some_iff] at taken
      obtain ⟨⟨_, own⟩, pair, stepped, rfl⟩ := taken
      exact .forwards label pair own stepped
  | drain answer =>
      simp only [System.step?, Option.ite_none_left_eq_some] at taken
      exact happens_of_drainStep? (Bool.eq_false_of_not_eq_true taken.1)
        taken.2
  | close =>
      simp only [System.step?] at taken
      split at taken
      · rename_i rc main
        simp only [Option.ite_none_left_eq_some] at taken
        exact happens_of_closeStep? main
          (Bool.eq_false_of_not_eq_true taken.1) taken.2
      · cases taken

end Moves

section Measure

variable
  {setup : Setup}
  {system next : System}
  {event : Event}

/-- What the drainer does between two reads. -/
def Drainer.rank : Drainer → Nat
  | .notCreated => 4
  | .starting => 3
  | .calling => 2
  | .reading => 1
  | .absent | .returned => 0

/-- A token takes this much to get through the pair, with its own step. -/
def tokenCost : Nat := 25

/-- What the system has still to do. -/
def System.left (setup : Setup) (system : System) : Nat :=
  tokenCost * system.heart.measure setup + flow (system.pair.direction .a) +
    flow (system.pair.direction .b) + system.drainer.rank +
    system.closing.stepsLeft + (if system.returned then 0 else 1) +
    if system.pair.killed then 0 else 1

/-- A step, but for the passing of time. -/
def Event.acts : Event → Bool
  | .heart label => label.acts
  | .beats _ | .creates _ | .forward _ | .drain _ | .close => true

/-- A signal ends a sleep. -/
def Event.Cuts : Event → Prop
  | .heart label => label.Cuts
  | .beats _ | .creates _ | .forward _ | .drain _ | .close => False

instance (event : Event) : Decidable event.Cuts :=
  match event with
  | .heart .cutSync | .heart .cutSleep => inferInstanceAs (Decidable True)
  | .heart (.main _) | .heart (.tick _) | .beats _ | .creates _
  | .forward _ | .drain _ | .close => inferInstanceAs (Decidable False)

/-- Both forwarders are within their buffers. -/
def System.BothSound (system : System) : Prop :=
  ∀ x, (system.pair.direction x).Sound

/-- Closing an end changes neither direction. -/
theorem closeUser_frame
    {pair after : Pair}
    {y : End}
    (closes : pair.step? (.closeUser y) = some after) :
    after.direction = pair.direction ∧ after.killed = pair.killed := by
  rw [Pair.step?_closeUser closes]
  exact ⟨rfl, rfl⟩

/-- It closes that end and no other. -/
theorem closed_closeUser
    {pair after : Pair}
    {y : End}
    (closes : pair.step? (.closeUser y) = some after) :
    after.closed y = true ∧
      ∀ x, x ≠ y → after.closed x = pair.closed x := by
  rw [Pair.step?_closeUser closes]
  exact ⟨Function.update_self y true pair.closed,
    fun x other => Function.update_of_ne other true pair.closed⟩

/-- The drainer leaves its `read` without another effect on the bytes. -/
theorem leave?_frame
    {drainer : Drainer}
    (left : system.leave? drainer = some next) :
    next.heart = system.heart ∧ next.drainer = drainer ∧
      next.closing = system.closing ∧ next.returned = system.returned ∧
      next.fdOpen = system.fdOpen ∧
      next.pair.direction = system.pair.direction ∧
      next.pair.killed = system.pair.killed := by
  rcases leave?_cases left with ⟨_, rfl⟩ | ⟨_, pair, closes, rfl⟩
  · simp
  · simp [closeUser_frame closes]

/-- A token adds less than it costs. -/
theorem flow_send
    {pair after : Pair}
    {byte : UInt8}
    (sent : pair.step? (.send .a [byte]) = some after) :
    flow (after.direction .a) = flow (pair.direction .a) + 24 ∧
      after.direction .b = pair.direction .b ∧
      after.killed = pair.killed := by
  obtain ⟨_, rfl⟩ := Pair.step?_send sent
  rw [Pair.direction_setDirection_same,
    Pair.direction_setDirection_other _ (show End.b ≠ .a by simp)]
  refine ⟨?_, rfl, rfl⟩
  simp only [flow, Direction.work, List.length_append, List.length_cons,
    List.length_nil]
  omega

/-- A read of the drainer takes at least a byte. -/
theorem flow_receive
    {pair after : Pair}
    {count : Nat}
    (received : pair.step? (.receive .b count) = some after) :
    flow (after.direction .a) + 5 ≤ flow (pair.direction .a) ∧
      after.direction .b = pair.direction .b ∧
      after.killed = pair.killed := by
  obtain ⟨_, positive, available, rfl⟩ := Pair.step?_receive received
  simp only [End.other] at available ⊢
  rw [Pair.direction_setDirection_same,
    Pair.direction_setDirection_other _ (show End.b ≠ .a by simp)]
  refine ⟨?_, rfl, rfl⟩
  simp only [flow, Direction.work, List.length_drop]
  omega

/-- A step of a forwarder, if only its last, leaves less to do. -/
theorem flow_ofClosing
    {pair after : Pair}
    {label : ChaosNet.Label}
    (sound : ∀ x, (pair.direction x).Sound)
    (own : (CloseLabel.step label).ofClosing = true)
    (taken : pair.step? label = some after) :
    flow (after.direction .a) + flow (after.direction .b) +
        (if after.killed then 0 else 1) <
      flow (pair.direction .a) + flow (pair.direction .b) +
        if pair.killed then 0 else 1 := by
  have alive := (Pair.step?_alive taken).1
  rcases forwards_of_ofClosing own with ⟨x, rfl⟩ | forwards
  · obtain ⟨_, _, _, _, _, _, rfl⟩ := Pair.step?_writeBroken taken
    simp [alive]
  · rw [alive, alive_of_forwards forwards taken]
    rcases forwards with fromA | fromB
    · have lower := flow_lt_of_forwards (sound .a) taken fromA
      rw [direction_of_forwards (show End.b ≠ .a by simp) fromA taken]
      omega
    · have lower := flow_lt_of_forwards (sound .b) taken fromB
      rw [direction_of_forwards (show End.a ≠ .b by simp) fromB taken]
      omega

/-- Every step but the passing of time leaves less to do. -/
theorem Happens.left_lt
    (sound : Sound setup system.heart)
    (both : system.BothSound)
    (late : system.heart.now < 2 ^ 62)
    (kind : ¬ event.Cuts)
    (acts : event.acts = true)
    (happens : Happens setup system event next) :
    next.left setup < system.left setup := by
  cases happens with
  | heart label heart alive free taken =>
      cases label with
      | main answer =>
          have lower :=
            measure_lt sound late (move_of_mainStep? taken)
          simp only [System.left, tokenCost]
          omega
      | cutSync | cutSleep =>
          exact absurd trivial kind
      | tick ns =>
          exact absurd acts Bool.false_ne_true
  | beats answer i pair heart stage sent taken =>
      have lower := measure_lt sound late (move_of_mainStep? taken)
      obtain ⟨grown, back, alive⟩ := flow_send sent
      simp only [System.left, tokenCost, grown, back, alive]
      omega
  | creates succeeds alive stage drainer =>
      cases succeeds <;>
        simp [System.left, drainer, Drainer.rank]
  | forwards label pair own taken =>
      have lower := flow_ofClosing both own taken
      simp only [System.left]
      omega
  | starts answer alive stage =>
      cases system.fdOpen <;>
        simp [System.left, stage, Drainer.rank]
  | calls answer alive stage =>
      cases system.fdOpen <;>
        simp [System.left, stage, Drainer.rank]
  | stops answer _ alive stage left =>
      obtain ⟨heart, drainer, closing, returned, _, same, alive⟩ :=
        leave?_frame left
      simp only [System.left, heart, drainer, closing, returned, same,
        alive, stage, Drainer.rank]
      omega
  | drains count pair _ stage received left =>
      obtain ⟨lower, back, alive⟩ := flow_receive received
      obtain ⟨heart, drainer, closing, returned, _, same, killed⟩ :=
        leave?_frame left
      simp only [System.left, heart, drainer, closing, returned, same,
        killed, back, alive, stage, Drainer.rank]
      omega
  | closesA rc pair main here taken | closesB rc pair main here _ taken =>
      obtain ⟨same, alive⟩ := closeUser_frame taken
      simp only [System.left, same, alive, here, Closing.stepsLeft]
      omega
  | closesHeld rc main alive here _ | joinsA rc main alive here _
  | joinsB rc main alive here _ =>
      simp only [System.left, here, Closing.stepsLeft]
      omega
  | returns rc main alive here waiting joined =>
      simp [System.left, waiting]

/-- Time that passes leaves no more to do. -/
theorem Happens.left_le
    (idle : event.acts = false)
    (happens : Happens setup system event next) :
    next.left setup ≤ system.left setup := by
  cases happens with
  | heart label heart alive free taken =>
      cases label with
      | tick ns =>
          obtain rfl := Option.some.inj taken
          have less := measure_tick setup system.heart ns
          simp only [System.left, tokenCost]
          omega
      | main answer | cutSync | cutSleep =>
          exact absurd idle (by simp [Event.acts, Label.acts])
  | beats | creates | forwards | starts | calls | stops | drains
  | closesA | closesHeld | closesB | joinsA | joinsB | returns =>
      exact absurd idle (by simp [Event.acts])

end Measure

section Standing

variable
  {setup : Setup}
  {system next : System}
  {event : Event}

/-- The drainer has been created, or its creation has failed. -/
def Stage.created : Stage → Bool
  | .pairing | .opening | .settingDelay | .settingJitter | .announcing
  | .returned _ => false
  | .closing rc => rc == 0
  | .starting | .writing _ | .syncing _ | .sleepingSync _ _ | .checking _
  | .sleeping _ _ | .stamping _ | .reporting | .calming => true

/-- What is known of the ends and the threads while they are taken down. -/
structure Standing (system : System) : Prop where
  both : system.BothSound
  /-- Nothing is ever sent from `fd_b`. -/
  back : (system.pair.direction .b).Idle
  spared : system.pair.killed = true → system.fdOpen = false
  created : system.heart.main.created = true → system.drainer ≠ .notCreated
  closedA : system.closing ≠ .notCalled → system.pair.closed .a = true
  fd : system.closing.closes? = none → system.fdOpen = false
  /-- The socket of `fd_b` is there while it is open or read. -/
  held : system.fdOpen = true ∨ system.drainer = .reading →
    system.pair.closed .b = false
  letGo : system.fdOpen = false → system.drainer ≠ .reading →
    system.pair.closed .b = true
  joined : system.closing = .joinedA ∨ system.closing = .joinedBoth →
    (system.pair.direction .a).forward = .returned

/-- The drainer is created before `run` goes on to its report. -/
theorem created_of_move
    {state next : State}
    (moved : Move setup state next)
    (created : next.main.created = true) :
    state.main.created = true ∨ state.main = .announcing := by
  cases moved with
  | fails main what stage =>
      rcases stage with ⟨_, rfl⟩ | ⟨_, rfl⟩ <;>
        exact absurd created Bool.false_ne_true
  | announces stage =>
      exact Or.inr stage
  | pairs | opens | setsDelay | setsJitter =>
      exact absurd created Bool.false_ne_true
  | starts stage | writes _ _ stage | syncs _ stage
  | syncsAtOnce _ stage | wakesSync _ _ stage | meets _ stage
  | naps _ stage | wakes _ _ stage | stamps _ stage | reports stage
  | calms stage =>
      exact Or.inl (by rw [stage]; rfl)

/-- The same for every step of the main thread. -/
theorem created_of_step
    {state next : State}
    {label : Label}
    (taken : state.step? setup label = some next)
    (created : next.main.created = true) :
    state.main.created = true ∨ state.main = .announcing := by
  cases label with
  | main answer =>
      exact created_of_move (move_of_mainStep? taken) created
  | cutSync | cutSleep =>
      simp only [State.step?] at taken
      split at taken
      · rename_i stage
        exact Or.inl (by rw [stage]; rfl)
      · cases taken
  | tick ns =>
      simp only [State.step?, Option.some.injEq] at taken
      subst taken
      exact Or.inl created

/-- A call that closes nothing and moves no forwarder that has returned. -/
theorem Standing.calls
    (standing : Standing system)
    {call : ChaosNet.Label}
    {pair : Pair}
    (taken : system.pair.step? call = some pair)
    (silent : ∀ y, call ≠ .closeUser y)
    (back : (pair.direction .b).Idle)
    (spared : pair.killed = true → system.fdOpen = false)
    (kept : (system.pair.direction .a).forward = .returned →
      (pair.direction .a).forward = .returned) :
    Standing { system with pair := pair } := by
  have closed := closed_of_not_closeUser taken silent
  obtain ⟨both, _, _, created, closedA, fd, held, letGo, joined⟩ := standing
  exact ⟨fun x => sound_step (both x) taken, back, spared, created,
    closed ▸ closedA, fd, closed ▸ held, closed ▸ letGo,
    fun past => kept (joined past)⟩

/-- The drainer comes to its next call, or finds `fd_b` closed. -/
theorem Standing.enters
    (standing : Standing system)
    (idle : system.drainer ≠ .reading)
    {drainer : Drainer}
    (present : drainer ≠ .notCreated)
    (closed : drainer = .reading → system.fdOpen = true) :
    Standing { system with drainer := drainer } := by
  exact { standing with
    created := fun _ => present
    held := fun here => standing.held (Or.inl (here.elim id closed))
    letGo := fun closed _ => standing.letGo closed idle }

/-- The drainer leaves its `read`. -/
theorem Standing.leaves
    (standing : Standing system)
    {drainer : Drainer}
    (present : drainer ≠ .notCreated)
    (away : drainer ≠ .reading)
    (left : system.leave? drainer = some next) :
    Standing next := by
  rcases leave?_cases left with ⟨isOpen, rfl⟩ | ⟨closed, pair, closes, rfl⟩
  · exact { standing with
      created := fun _ => present
      held := fun _ => standing.held (Or.inl isOpen)
      letGo := fun closed =>
        Bool.noConfusion (isOpen.symm.trans closed) }
  · obtain ⟨same, alive⟩ := closeUser_frame closes
    obtain ⟨shut, others⟩ := closed_closeUser closes
    exact {
      both := fun x => same ▸ standing.both x
      back := same ▸ standing.back
      spared := fun _ => closed
      created := fun _ => present
      closedA := fun called =>
        (others .a (by simp)).trans (standing.closedA called)
      fd := standing.fd
      held := fun here =>
        here.elim (fun isOpen => Bool.noConfusion (closed.symm.trans isOpen))
          (fun here => absurd here away)
      letGo := fun _ _ => shut
      joined := fun past => same ▸ standing.joined past }

/-- Every step keeps it. -/
theorem Standing.step
    (standing : Standing system)
    (happens : Happens setup system event next) :
    Standing next := by
  cases happens with
  | heart label heart alive free taken =>
      refine { standing with created := fun created => ?_ }
      rcases created_of_step taken created with before | stage
      · exact standing.created before
      · exact fun missing => free ⟨stage, missing⟩
  | beats answer i pair heart stage sent taken =>
      obtain ⟨_, after⟩ := Pair.step?_send sent
      have alive : pair.killed = false :=
        Pair.killed_of_not_writeBroken sent (by simp)
      have kept := standing.calls sent (by simp)
        (idle_elsewhere standing.back sent
          (by simp [ChaosNet.Label.direction?]))
        (fun killed => Bool.noConfusion (alive.symm.trans killed))
        fun returned => by
          rw [after, Pair.direction_setDirection_same]
          exact returned
      exact { kept with
        created := fun _ => standing.created (by rw [stage]; rfl) }
  | creates succeeds alive stage drainer =>
      refine standing.enters (by rw [drainer]; simp) ?_ ?_
      · cases succeeds <;> simp
      · cases succeeds <;> simp
  | forwards label pair own taken =>
      rcases forwards_of_ofClosing own with ⟨x, rfl⟩ | forwards
      · obtain ⟨_, _, _, _, here, far, after⟩ :=
          Pair.step?_writeBroken taken
        have same : pair.direction = system.pair.direction := by
          rw [after]
        refine standing.calls taken (by simp) (same ▸ standing.back)
          (fun _ => ?_) (fun returned => same ▸ returned)
        cases x with
        | a =>
            by_contra isOpen
            have stillOpen := standing.held
              (Or.inl (Bool.eq_true_of_not_eq_false isOpen))
            exact Bool.noConfusion (stillOpen.symm.trans far)
        | b =>
            rcases standing.back with stands | ⟨stands, _⟩
            · exact Forward.noConfusion (stands.symm.trans here)
            · exact Forward.noConfusion (stands.symm.trans here)
      · have alive := alive_of_forwards forwards taken
        refine standing.calls taken ?_
          (forwards.elim (idle_either standing.back · taken)
            (idle_either standing.back · taken))
          (fun killed => Bool.noConfusion (alive.symm.trans killed))
          fun returned => ?_
        · rintro y rfl
          exact forwards.elim Bool.noConfusion Bool.noConfusion
        · rw [forwards.elim (elsewhere_of_returned returned · taken)
            (elsewhere_of_returned returned · taken)]
          exact returned
  | starts answer alive stage | calls answer alive stage =>
      refine standing.enters (by rw [stage]; simp) ?_ ?_
      · cases system.fdOpen <;> simp
      · cases system.fdOpen <;> simp
  | stops answer _ alive stage left =>
      exact standing.leaves (by simp) (by simp) left
  | drains count pair _ stage received left =>
      obtain ⟨_, _, _, after⟩ := Pair.step?_receive received
      have alive : pair.killed = false :=
        Pair.killed_of_not_writeBroken received (by simp)
      have kept := standing.calls received (by simp)
        (idle_elsewhere standing.back received
          (by simp [ChaosNet.Label.direction?, End.other]))
        (fun killed => Bool.noConfusion (alive.symm.trans killed))
        fun returned => by
          rw [after]
          simp only [End.other, Pair.direction_setDirection_same]
          exact returned
      exact kept.leaves (by simp) (by simp) left
  | closesA rc pair main here taken =>
      obtain ⟨same, killed⟩ := closeUser_frame taken
      obtain ⟨shut, others⟩ := closed_closeUser taken
      exact {
        both := fun x => same ▸ standing.both x
        back := same ▸ standing.back
        spared := fun dead => standing.spared (killed ▸ dead)
        created := standing.created
        closedA := fun _ => shut
        fd := fun past => by cases past
        held := fun here =>
          (others .b (by simp)).trans (standing.held here)
        letGo := fun closed away =>
          (others .b (by simp)).trans (standing.letGo closed away)
        joined := fun past => by simp at past }
  | closesB rc pair main here reading taken =>
      obtain ⟨same, _⟩ := closeUser_frame taken
      obtain ⟨shut, others⟩ := closed_closeUser taken
      exact {
        both := fun x => same ▸ standing.both x
        back := same ▸ standing.back
        spared := fun _ => rfl
        created := standing.created
        closedA := fun _ =>
          (others .a (by simp)).trans (standing.closedA (by simp [here]))
        fd := fun _ => rfl
        held := fun held =>
          absurd (held.resolve_left Bool.false_ne_true) reading
        letGo := fun _ _ => shut
        joined := fun past => by simp at past }
  | closesHeld rc main alive here reading =>
      exact { standing with
        spared := fun _ => rfl
        closedA := fun _ => standing.closedA (by simp [here])
        fd := fun _ => rfl
        held := fun _ => standing.held (Or.inr reading)
        letGo := fun _ away => absurd reading away
        joined := fun past => by simp at past }
  | joinsA rc main alive here returned =>
      exact { standing with
        closedA := fun _ => standing.closedA (by rw [here]; simp)
        fd := fun _ => standing.fd (by rw [here]; rfl)
        joined := fun _ => returned }
  | joinsB rc main alive here returned =>
      exact { standing with
        closedA := fun _ => standing.closedA (by rw [here]; simp)
        fd := fun _ => standing.fd (by rw [here]; rfl)
        joined := fun _ => standing.joined (Or.inl here) }
  | returns rc main alive here waiting joined =>
      exact { standing with }

end Standing

section Progress

variable
  {setup : Setup}
  {system : System}

/-- A step whose call does not fail; `read` fails of an `fd_b` that is closed. -/
def Event.Succeeds : Event → Prop
  | .heart (.main answer) | .drain answer => answer ≠ none
  | .heart (.tick _) | .heart .cutSync | .heart .cutSleep => False
  | .beats _ | .close => True
  | .creates succeeds => succeeds = true
  | .forward label => (CloseLabel.step label).Succeeds

/-- Something can go on without a failing call, if need be after a sleep. -/
def System.Moves (setup : Setup) (system : System) : Prop :=
  ∃ ns event,
    event.Succeeds ∧
      ({ system with
        heart := { system.heart with now := system.heart.now + ns } }.step?
          setup event).isSome = true

/-- `run` has returned. -/
def System.Over (system : System) : Prop :=
  system.returned = true ∨ ∃ rc, system.heart.main = .returned rc

/-- A step that needs no sleep. -/
theorem moves_at_once
    (event : Event)
    (succeeds : event.Succeeds)
    (enabled : (system.step? setup event).isSome = true) :
    system.Moves setup :=
  ⟨0, event, succeeds, enabled⟩

/-- A drainer that is there goes on once nothing more is to come. -/
theorem moves_of_drainer
    (standing : Standing system)
    (alive : system.pair.killed = false)
    (past : (system.pair.direction .a).forward = .returned)
    (there : system.drainer ≠ .notCreated ∧ system.drainer ≠ .absent ∧
      system.drainer ≠ .returned) :
    system.Moves setup := by
  obtain ⟨created, present, running⟩ := there
  have leaves (system : System) (drainer : Drainer)
      (alive : system.pair.killed = false) :
      (system.leave? drainer).isSome = true := by
    unfold System.leave?
    split <;> simp [Pair.step?, Pair.stepAlive?, alive]
  cases stage : system.drainer with
  | notCreated =>
      exact absurd stage created
  | absent =>
      exact absurd stage present
  | returned =>
      exact absurd stage running
  | starting | calling =>
      exact moves_at_once (.drain (some 0)) (by simp [Event.Succeeds])
        (by simp [System.step?, alive, System.drainStep?, stage])
  | reading =>
      have stillOpen := standing.held (Or.inr stage)
      have ended := (standing.both .a).ended.mpr past
      cases arrived : (system.pair.direction .a).arrived with
      | nil =>
          exact moves_at_once (.drain (some 0)) (by simp [Event.Succeeds])
            (by simp [System.step?, alive, System.drainStep?, stage,
              arrived, ended, leaves])
      | cons byte rest =>
          refine moves_at_once (.drain (some 1))
            (by simp [Event.Succeeds]) ?_
          have received :
              (system.pair.step? (.receive .b 1)).isSome = true := by
            simp [Pair.step?, Pair.stepAlive?, alive, stillOpen,
              End.other, arrived]
          obtain ⟨pair, received⟩ := Option.isSome_iff_exists.mp received
          have aliveAfter : pair.killed = false :=
            Pair.killed_of_not_writeBroken received (by simp)
          simp [System.step?, alive, System.drainStep?, stage,
            drainBufSize, received, leaves, aliveAfter]

/-- A forwarder whose user end is closed goes on. -/
theorem moves_of_forwarder
    (standing : Standing system)
    (alive : system.pair.killed = false)
    (paired : system.heart.main.paired = true)
    {x : End}
    (closed : system.pair.closed x = true)
    (running : (system.pair.direction x).forward ≠ .returned) :
    system.Moves setup := by
  obtain ⟨label, succeeds, enabled⟩ :=
    forwarder_goes_on alive (standing.both x) closed running
  exact moves_at_once (.forward label) succeeds
    (by simpa [System.step?, paired, succeeds.1] using enabled)

/-- `chaos_net_close` and the join after it come to their end. -/
theorem moves_of_closing
    (standing : Standing system)
    (alive : system.pair.killed = false)
    {rc : Int}
    (main : system.heart.main = .closing rc)
    (waiting : system.returned = false)
    (present : system.drainer ≠ .absent) :
    system.Moves setup := by
  have paired : system.heart.main.paired = true := by
    rw [main]
    rfl
  have closes (enabled : (system.closeStep? rc).isSome = true) :
      system.Moves setup :=
    moves_at_once .close trivial
      (by simpa [System.step?, main, alive] using enabled)
  cases here : system.closing with
  | notCalled =>
      exact closes (by simp [System.closeStep?, here, Pair.step?,
        Pair.stepAlive?, alive])
  | closedA =>
      refine closes ?_
      simp only [System.closeStep?, here]
      split
      · rfl
      · simp [Pair.step?, Pair.stepAlive?, alive]
  | closedBoth =>
      by_cases returned : (system.pair.direction .a).forward = .returned
      · exact closes (by simp [System.closeStep?, here, returned])
      · exact moves_of_forwarder standing alive paired
          (standing.closedA (by simp [here])) returned
  | joinedA =>
      by_cases returned : (system.pair.direction .b).forward = .returned
      · exact closes (by simp [System.closeStep?, here, returned])
      · by_cases reading : system.drainer = .reading
        · exact moves_of_drainer standing alive
            (standing.joined (Or.inl here)) (by simp [reading])
        · exact moves_of_forwarder standing alive paired
            (standing.letGo (standing.fd (by rw [here]; rfl)) reading)
            returned
  | joinedBoth =>
      by_cases joined : rc = 0 → system.drainer = .returned
      · refine closes ?_
        simp only [System.closeStep?, here, waiting, true_and]
        rw [if_pos joined]
        rfl
      · obtain ⟨zero, running⟩ := Classical.not_imp.mp joined
        refine moves_of_drainer standing alive
          (standing.joined (Or.inr here)) ⟨standing.created ?_, present,
            running⟩
        rw [main, zero]
        rfl

/-- Until `run` has returned something goes on, if there is a drainer. -/
theorem moves_of_not_over
    (standing : Standing system)
    (alive : system.pair.killed = false)
    (present : system.drainer ≠ .absent)
    (unfinished : ¬ system.Over) :
    system.Moves setup := by
  obtain ⟨waiting, running⟩ := not_or.mp unfinished
  by_cases closing : ∃ rc, system.heart.main = .closing rc
  · obtain ⟨rc, main⟩ := closing
    exact moves_of_closing standing alive main
      (Bool.eq_false_of_not_eq_true waiting) present
  · by_cases held :
        system.heart.main = .announcing ∧ system.drainer = .notCreated
    · exact moves_at_once (.creates true) rfl
        (by simp [System.step?, alive, held.1, held.2])
    · obtain ⟨ns, answer, enabled⟩ :=
        moves_of_unfinished fun rc =>
          ⟨fun main => closing ⟨rc, main⟩, fun main => running ⟨rc, main⟩⟩
      refine ⟨ns, .heart (.main (some answer)),
        by simp [Event.Succeeds], ?_⟩
      have free :
          ¬ (system.pair.killed = true ∨
            system.heart.main = .announcing ∧
              system.drainer = .notCreated) :=
        not_or.mpr ⟨by simp [alive], held⟩
      simp only [System.step?, free, if_false, Option.isSome_map]
      exact enabled

end Progress

section Ends

variable
  {setup : Setup}
  {k : Knobs}
  {seed : UInt64}
  {now : Nat}
  {events : List Event}
  {system next : System}

/-- More steps than these no run makes. -/
def systemBound (setup : Setup) : Nat :=
  tokenCost * stepBound setup + 22

/-- What a run without interrupted sleeps keeps. -/
structure Kept (setup : Setup) (system : System) : Prop where
  sound : Sound setup system.heart
  standing : Standing system

/-- It holds before the first step. -/
theorem kept_init (k : Knobs) (seed : UInt64) (now : Nat) :
    Kept setup (System.init k seed now) where
  sound := Sound.init seed now
  standing := {
    both := fun _ => ⟨trivial, by simp [System.init, Pair.start]⟩
    back := Or.inr ⟨rfl, rfl⟩
    spared := fun dead => by cases dead
    created := fun created => by cases created
    closedA := fun called => absurd rfl called
    fd := fun past => by cases past
    held := fun _ => rfl
    letGo := fun closed => by cases closed
    joined := fun past => by rcases past with past | past <;> cases past }

/-- The main thread steps on its own or not at all. -/
theorem Happens.heart_cases
    {event : Event}
    (happens : Happens setup system event next) :
    next.heart = system.heart ∨
      ∃ label,
        (label.Cuts → event.Cuts) ∧
          system.heart.step? setup label = some next.heart := by
  cases happens with
  | heart label heart alive free taken =>
      exact Or.inr ⟨label, id, taken⟩
  | beats answer i pair heart stage sent taken =>
      exact Or.inr ⟨.main answer, id, taken⟩
  | stops answer _ alive stage left =>
      exact Or.inl (leave?_frame left).1
  | drains count pair _ stage received left =>
      exact Or.inl (leave?_frame left).1
  | creates | forwards | starts | calls | closesA | closesHeld | closesB
  | joinsA | joinsB | returns =>
      exact Or.inl rfl

/-- Every step keeps it. -/
theorem Kept.step
    {event : Event}
    (kept : Kept setup system)
    (kind : ¬ event.Cuts)
    (taken : system.step? setup event = some next) :
    Kept setup next := by
  have happens := happens_of_step? taken
  refine ⟨?_, kept.standing.step happens⟩
  rcases happens.heart_cases with same | ⟨label, cuts, stepped⟩
  · exact same ▸ kept.sound
  · refine kept.sound.step ?_ stepped
    rintro rfl
    exact kind (cuts trivial)

/-- Time does not go back. -/
theorem System.now_le
    {event : Event}
    (taken : system.step? setup event = some next) :
    system.heart.now ≤ next.heart.now := by
  rcases (happens_of_step? taken).heart_cases with same | ⟨_, _, stepped⟩
  · rw [same]
  · exact now_le_of_step? stepped

/-- A heartbeat whose token comes through to the drainer. -/
def tokenBeat : List Event :=
  [.beats (some 64), .forward (.read .a 1), .forward (.snapshot .a),
    .forward (.decide .a), .forward (.write .a 1), .drain (some 1),
    .drain none] ++ (beat.drop 1).map Event.heart

/-- Twenty heartbeats; the pair is closed while the drainer reads. -/
def wholeRun : List Event :=
  [[.main (some 0), .main (some 3), .main none, .main none].map Event.heart,
    [.creates true, .drain none, .drain none],
    [.main none, .main none].map Event.heart,
    (List.replicate 20 tokenBeat).flatten,
    [.main none, .main none].map Event.heart,
    [.close, .close, .forward (.readEof .a), .close, .drain (some 0),
      .forward (.readEof .b), .close, .close]].flatten

/-- The first heartbeat sleeps exactly as long as it was told. -/
def twoSleeps : List Event :=
  [[.main (some 0), .main (some 3), .main none, .main none].map Event.heart,
    [.creates true],
    [.main none, .main none, .main (some 64), .main none, .tick 15000000,
      .main none, .main none, .tick 84975780, .main none,
      .main none].map Event.heart].flatten

end Ends

end FailurePlayground.FlakyEnvironment
