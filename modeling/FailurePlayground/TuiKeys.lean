import Mathlib.Data.UInt
import FailurePlayground.Lib.Bytes
import FailurePlayground.Lib.Transition
import FailurePlayground.Lib.XorWalk

namespace FailurePlayground.TuiKeys

/-!
# The keys of the TUI

`tui_run` selects a scenario in the menu, runs it, and runs it again with the
same seed or with a new one.  A new seed is made of the clock's second and the
seed before, so two presses can cancel each other.
-/

/-- What a scenario shows of itself in the TUI. -/
structure PgScenario where
  id : List UInt8
  title : List UInt8
  lesson : Option (List UInt8)
  deriving Repr, DecidableEq

/-- The keys that `tui_run` and `run_scenario` tell apart. -/
inductive Key where
  | q
  | up
  | down
  | resize
  | enter
  | escape
  | r
  | R
  | e
  | other
  deriving Repr, DecidableEq

/-- What reads the next key; `quit` is `running = 0`. -/
inductive Screen where
  | menu
  | post
  | overlay (title : List UInt8) (body : Option (List UInt8))
  | running (aborted : Bool)
  | quit
  deriving Repr, DecidableEq

/-- Why a scenario runs; a new seed keeps the second of its press. -/
inductive Cause where
  | menu
  | rerun
  | newSeed (now : Int64)
  deriving Repr, DecidableEq

/-- A call of `run_scenario`. -/
structure Run where
  s : PgScenario
  seed : UInt64
  cause : Cause
  deriving Repr, DecidableEq

/-- `0x5A5A5A5AULL`. -/
def seedMask : UInt64 := 0x5A5A5A5A

/-- The overlay's title, in an array of 128 characters. -/
def lessonTitle (s : PgScenario) : List UInt8 :=
  (Bytes.ascii "Lesson: " ++ s.title).take 127

/-- The variables of `tui_run`, the clock, and the runs so far. -/
structure State (gScens : List PgScenario) where
  gSel : Nat
  gLastSeed : UInt64
  last : Option PgScenario
  screen : Screen
  now : Int64
  runs : List Run
  selects : 0 < gScens.length → gSel < gScens.length

/-- A key at a second of the clock, or the return of `run_scenario`. -/
inductive Label where
  | press (key : Key) (now : Int64)
  | ends
  deriving Repr, DecidableEq

section Session

variable {gScens : List PgScenario}

namespace State

/-- `run_scenario` up to its loop, which also runs when the start fails. -/
def runScenario
    (state : State gScens)
    (s : PgScenario)
    (seed : UInt64)
    (cause : Cause) : State gScens :=
  { state with
    gLastSeed := seed
    last := some s
    screen := .running false
    runs := state.runs ++ [{ s := s, seed := seed, cause := cause }] }

/-- The `switch` of `tui_run` in `S_MENU`. -/
def menuKey (state : State gScens) : Key → State gScens
  | .q => { state with screen := .quit }
  | .up =>
      if 0 < state.gSel then
        { state with
          gSel := state.gSel - 1
          selects := fun listed =>
            Nat.lt_of_le_of_lt (Nat.sub_le ..) (state.selects listed) }
      else
        state
  | .down =>
      if more : state.gSel + 1 < gScens.length then
        { state with
          gSel := state.gSel + 1
          selects := fun _ => more }
      else
        state
  | .enter =>
      if listed : 0 < gScens.length then
        let s := gScens.get ⟨state.gSel, state.selects listed⟩
        state.runScenario s state.now.toUInt64 .menu
      else
        state
  | .resize | .escape | .r | .R | .e | .other => state

/-- The `switch` of `tui_run` in `S_POST`. -/
def postKey (state : State gScens) : Key → State gScens
  | .q => { state with screen := .quit }
  | .r =>
      match state.last with
      | some s => state.runScenario s state.gLastSeed .rerun
      | none => state
  | .R =>
      match state.last with
      | some s =>
          state.runScenario s
            (state.now.toUInt64 ^^^ state.gLastSeed ^^^ seedMask)
            (.newSeed state.now)
      | none => state
  | .e =>
      match state.last with
      | some s =>
          { state with screen := .overlay (lessonTitle s) s.lesson }
      | none => state
  | .enter | .escape => { state with screen := .menu }
  | .up | .down | .resize | .other => state

/-- The `getch` of `run_scenario`. -/
def runningKey (state : State gScens) (aborted : Bool) :
    Key → State gScens
  | .q => { state with screen := .running true }
  | .up | .down | .resize | .enter | .escape | .r | .R | .e | .other =>
      { state with screen := .running aborted }

/-- Execute one enabled label; the clock does not go back. -/
def step? (state : State gScens) : Label → Option (State gScens)
  | .press key now =>
      if state.now ≤ now then
        let ticked := { state with now := now }
        match state.screen with
        | .menu => some (ticked.menuKey key)
        | .post => some (ticked.postKey key)
        | .overlay _ _ => some { ticked with screen := .post }
        | .running aborted => some (ticked.runningKey aborted key)
        | .quit => none
      else
        none
  | .ends =>
      match state.screen with
      | .running _ => some { state with screen := .post }
      | .menu | .post | .overlay _ _ | .quit => none

/-- Execute a finite session. -/
abbrev run? : State gScens → List Label → Option (State gScens) :=
  Transition.run? step?

/-- `tui_run` before its loop, at a second of the clock. -/
def start (gScens : List PgScenario) (now : Int64) : State gScens where
  gSel := 0
  gLastSeed := 0
  last := none
  screen := .menu
  now := now
  runs := []
  selects := id

end State

/-- What one run leaves of the runs since the menu. -/
def Run.since (earlier : List Run) (run : Run) : List Run :=
  match run.cause with
  | .menu => [run]
  | .rerun | .newSeed _ => earlier ++ [run]

/-- The runs since a scenario was last started from the menu. -/
def sinceMenu (runs : List Run) : List Run :=
  runs.foldl Run.since []

/-- The second of the press for a new seed. -/
def Run.newSeedTime? (run : Run) : Option Int64 :=
  match run.cause with
  | .newSeed now => some now
  | .menu | .rerun => none

/-- The seconds of the presses for a new seed, in order. -/
def newSeedTimes (runs : List Run) : List Int64 :=
  runs.filterMap Run.newSeedTime?

/--
What the keys promise on the status line: after a run, a rerun reuses the seed
of the run before, and a new seed is one that no run of the scenario has had
since the menu.
-/
def SeedsKept (state : State gScens) (label : Label) : Prop :=
  ∀ next,
    state.screen = .post →
    state.step? label = some next →
    match label with
    | .press .r _ =>
        ∃ s previous,
          state.last = some s ∧
            state.runs.getLast? = some previous ∧
            next.runs =
              state.runs ++
                [{ s := s, seed := previous.seed, cause := .rerun }]
    | .press .R now =>
        ∃ s seed,
          state.last = some s ∧
            next.runs =
              state.runs ++
                [{ s := s, seed := seed, cause := .newSeed now }] ∧
            ∀ run ∈ sinceMenu state.runs, run.s = s → run.seed ≠ seed
    | .press _ _ | .ends => True

/--
No block of the last presses for a new seed cancels: the exclusive or of their
seconds is the mask for no odd number of them, and zero for no even number.
-/
def FreshTimes (state : State gScens) (label : Label) : Prop :=
  match label with
  | .press .R now =>
      state.screen = .post →
      ∀ block ∈ (newSeedTimes (sinceMenu state.runs) ++ [now]).tails,
        block ≠ [] →
        XorWalk.total (block.map Int64.toUInt64) ≠
          if block.length % 2 = 1 then seedMask else 0
  | .press _ _ | .ends => True

/-- The presses and seconds alone say whether a seed is fresh. -/
instance decidableFreshTimes
    (state : State gScens) :
    (label : Label) → Decidable (FreshTimes state label)
  | .press .R _ =>
      inferInstanceAs (Decidable (state.screen = .post → _))
  | .press .q _ | .press .up _ | .press .down _ | .press .resize _
  | .press .enter _ | .press .escape _ | .press .r _ | .press .e _
  | .press .other _ | .ends =>
      inferInstanceAs (Decidable True)

end Session

section Walks

variable
  {s : PgScenario}
  {gLastSeed first : UInt64}
  {runs : List Run}
  {now : Int64}

/-- What the presses for a new seed combine with the seed. -/
def newSeedSteps (runs : List Run) : List UInt64 :=
  (newSeedTimes runs).map fun now => now.toUInt64 ^^^ seedMask

/-- The runs since the menu: one scenario, and seeds that walk. -/
structure Walked
    (s : PgScenario)
    (gLastSeed first : UInt64)
    (runs : List Run) : Prop where
  same : ∀ run ∈ runs, run.s = s
  ended : gLastSeed = first ^^^ XorWalk.total (newSeedSteps runs)
  seeds :
    ∀ seed,
      seed ∈ runs.map Run.seed ↔
        seed ∈ XorWalk.visited first (newSeedSteps runs)

theorem newSeedSteps_concat_rerun (seed : UInt64) :
    newSeedSteps (runs ++ [{ s := s, seed := seed, cause := .rerun }]) =
      newSeedSteps runs := by
  rw [newSeedSteps, newSeedTimes, List.filterMap_append]
  exact congrArg (List.map _) (List.append_nil _)

theorem newSeedSteps_concat_newSeed (seed : UInt64) :
    newSeedSteps
        (runs ++ [{ s := s, seed := seed, cause := .newSeed now }]) =
      newSeedSteps runs ++ [now.toUInt64 ^^^ seedMask] := by
  rw [newSeedSteps, newSeedTimes, List.filterMap_append, List.map_append]
  rfl

/-- The run from the menu starts the walk. -/
theorem walked_menu (s : PgScenario) (seed : UInt64) :
    Walked s seed seed [{ s := s, seed := seed, cause := .menu }] where
  same := by
    simp
  ended := (UInt64.xor_zero).symm
  seeds := fun _ => Iff.rfl

/-- A rerun stays where the walk is. -/
theorem Walked.rerun
    (walked : Walked s gLastSeed first runs) :
    Walked s gLastSeed first
      (runs ++ [{ s := s, seed := gLastSeed, cause := .rerun }]) where
  same :=
    List.forall_mem_append.mpr
      ⟨walked.same, List.forall_mem_singleton.mpr rfl⟩
  ended := by
    rw [newSeedSteps_concat_rerun]
    exact walked.ended
  seeds := by
    intro seed
    have here : gLastSeed ∈ runs.map Run.seed := by
      rw [walked.seeds, walked.ended]
      exact XorWalk.end_mem_visited first (newSeedSteps runs)
    rw [newSeedSteps_concat_rerun, ← walked.seeds, List.map_append,
      List.mem_append]
    refine or_iff_left_of_imp fun again => ?_
    obtain rfl := List.mem_singleton.mp again
    exact here

/-- A new seed is one step further. -/
theorem Walked.newSeed_eq
    (walked : Walked s gLastSeed first runs)
    (now : Int64) :
    now.toUInt64 ^^^ gLastSeed ^^^ seedMask =
      first ^^^ XorWalk.total (newSeedSteps runs) ^^^
        (now.toUInt64 ^^^ seedMask) := by
  rw [← walked.ended]
  ac_rfl

theorem Walked.newSeed
    (walked : Walked s gLastSeed first runs)
    (now : Int64) :
    Walked s (now.toUInt64 ^^^ gLastSeed ^^^ seedMask) first
      (runs ++
        [{  s := s
            seed := now.toUInt64 ^^^ gLastSeed ^^^ seedMask
            cause := .newSeed now }]) where
  same :=
    List.forall_mem_append.mpr
      ⟨walked.same, List.forall_mem_singleton.mpr rfl⟩
  ended := by
    rw [newSeedSteps_concat_newSeed, XorWalk.total_append,
      XorWalk.total_cons, XorWalk.total_nil, UInt64.xor_zero,
      walked.newSeed_eq, UInt64.xor_assoc first]
  seeds := by
    intro seed
    rw [newSeedSteps_concat_newSeed, XorWalk.visited_concat,
      List.map_append, List.mem_append, List.mem_append, walked.seeds,
      List.map_singleton, walked.newSeed_eq]

/-- A new seed is fresh just when no block of the last presses cancels. -/
theorem Walked.fresh_iff
    (walked : Walked s gLastSeed first runs)
    (now : Int64) :
    (∀ run ∈ runs,
        run.s = s →
        run.seed ≠ now.toUInt64 ^^^ gLastSeed ^^^ seedMask) ↔
      ∀ block ∈ (newSeedTimes runs ++ [now]).tails,
        block ≠ [] →
        XorWalk.total (block.map Int64.toUInt64) ≠
          if block.length % 2 = 1 then seedMask else 0 := by
  have unvisited :
      (∀ run ∈ runs,
          run.s = s →
          run.seed ≠ now.toUInt64 ^^^ gLastSeed ^^^ seedMask) ↔
        now.toUInt64 ^^^ gLastSeed ^^^ seedMask ∉
          XorWalk.visited first (newSeedSteps runs) := by
    rw [← walked.seeds, List.mem_map]
    constructor
    · rintro fresh ⟨run, member, seed⟩
      exact fresh run member (walked.same run member) seed
    · exact fun fresh run member _ seed => fresh ⟨run, member, seed⟩
  have blocks :
      newSeedSteps runs ++ [now.toUInt64 ^^^ seedMask] =
        (newSeedTimes runs ++ [now]).map
          fun now => now.toUInt64 ^^^ seedMask := by
    rw [List.map_append]
    rfl
  rw [unvisited, walked.newSeed_eq, XorWalk.notMem_visited_iff, blocks,
    List.map_tails, List.forall_mem_map]
  refine forall₂_congr fun block _ => ?_
  have masked :
      block.map (fun now => now.toUInt64 ^^^ seedMask) =
        (block.map Int64.toUInt64).map (· ^^^ seedMask) := by
    rw [List.map_map]
    rfl
  rw [masked, XorWalk.total_map_xor, List.length_map, Ne, Ne, Ne,
    List.map_eq_nil_iff, List.map_eq_nil_iff, UInt64.xor_eq_zero_iff]

end Walks

section Sessions

variable
  {gScens : List PgScenario}
  {state next : State gScens}
  {label : Label}

/-- A screen that a run leads to. -/
def Screen.afterRun : Screen → Bool
  | .post | .overlay _ _ | .running _ => true
  | .menu | .quit => false

/-- What every session keeps. -/
structure Session (state : State gScens) : Prop where
  walked :
    ∀ s,
      state.last = some s →
      ∃ first, Walked s state.gLastSeed first (sinceMenu state.runs)
  previous :
    ∀ s,
      state.last = some s →
      ∃ run,
        state.runs.getLast? = some run ∧ run.seed = state.gLastSeed
  ran : state.screen.afterRun = true → ∃ s, state.last = some s

/-- A key that runs nothing keeps it. -/
theorem Session.idle
    (session : Session state)
    (last : next.last = state.last)
    (gLastSeed : next.gLastSeed = state.gLastSeed)
    (runs : next.runs = state.runs)
    (screen :
      next.screen.afterRun = true → state.screen.afterRun = true) :
    Session next where
  walked := by
    rw [last, gLastSeed, runs]
    exact session.walked
  previous := by
    rw [last, gLastSeed, runs]
    exact session.previous
  ran := by
    rw [last]
    exact fun after => session.ran (screen after)

theorem sinceMenu_concat (runs : List Run) (run : Run) :
    sinceMenu (runs ++ [run]) = run.since (sinceMenu runs) := by
  rw [sinceMenu, List.foldl_concat]
  rfl

/-- A run keeps it when its seed goes on with the walk. -/
theorem session_runScenario
    {s : PgScenario}
    {seed first : UInt64}
    {cause : Cause}
    (walked :
      Walked s seed first
        (Run.since (sinceMenu state.runs)
          { s := s, seed := seed, cause := cause })) :
    Session (state.runScenario s seed cause) where
  walked := by
    intro other same
    obtain rfl := Option.some.inj same
    refine ⟨first, ?_⟩
    rw [State.runScenario, sinceMenu_concat]
    exact walked
  previous := fun _ _ => ⟨_, List.getLast?_concat, rfl⟩
  ran := fun _ => ⟨s, rfl⟩

/-- The menu's keys keep it. -/
theorem Session.menuKey
    (session : Session state)
    (key : Key) :
    Session (state.menuKey key) := by
  cases key with
  | q =>
      exact session.idle rfl rfl rfl nofun
  | up =>
      simp only [State.menuKey]
      split
      · exact session.idle rfl rfl rfl id
      · exact session
  | down =>
      simp only [State.menuKey]
      split
      · exact session.idle rfl rfl rfl id
      · exact session
  | enter =>
      simp only [State.menuKey]
      split
      · exact session_runScenario (walked_menu _ _)
      · exact session
  | resize | escape | r | R | e | other =>
      exact session

/-- The keys after a run keep it. -/
theorem Session.postKey
    (session : Session state)
    (post : state.screen = .post)
    (key : Key) :
    Session (state.postKey key) := by
  obtain ⟨s, last⟩ := session.ran (post ▸ rfl)
  obtain ⟨first, walked⟩ := session.walked s last
  cases key with
  | q =>
      exact session.idle rfl rfl rfl nofun
  | r =>
      simp only [State.postKey, last]
      exact session_runScenario walked.rerun
  | R =>
      simp only [State.postKey, last]
      exact session_runScenario (walked.newSeed state.now)
  | e =>
      simp only [State.postKey, last]
      exact session.idle last.symm rfl rfl fun _ => post ▸ rfl
  | enter | escape =>
      exact session.idle rfl rfl rfl nofun
  | up | down | resize | other =>
      exact session

/-- The keys during a run keep it. -/
theorem Session.runningKey
    {aborted : Bool}
    (session : Session state)
    (running : state.screen = .running aborted)
    (key : Key) :
    Session (state.runningKey aborted key) := by
  cases key with
  | q | up | down | resize | enter | escape | r | R | e | other =>
      exact session.idle rfl rfl rfl fun _ => running ▸ rfl

/-- Every step keeps it. -/
theorem Session.step
    (session : Session state)
    (stepped : state.step? label = some next) :
    Session next := by
  cases label with
  | press key now =>
      simp only [State.step?, Option.ite_none_right_eq_some] at stepped
      obtain ⟨_, stepped⟩ := stepped
      have ticked : Session { state with now := now } :=
        session.idle rfl rfl rfl id
      split at stepped
      · obtain rfl := Option.some.inj stepped
        exact ticked.menuKey key
      · rename_i post
        obtain rfl := Option.some.inj stepped
        exact ticked.postKey post key
      · rename_i title body overlay
        obtain rfl := Option.some.inj stepped
        exact session.idle rfl rfl rfl fun _ => overlay ▸ rfl
      · rename_i aborted running
        obtain rfl := Option.some.inj stepped
        exact ticked.runningKey running key
      · contradiction
  | ends =>
      simp only [State.step?] at stepped
      split at stepped
      · rename_i aborted running
        obtain rfl := Option.some.inj stepped
        exact session.idle rfl rfl rfl fun _ => running ▸ rfl
      all_goals contradiction

/-- A session starts without a run. -/
theorem session_start (gScens : List PgScenario) (now : Int64) :
    Session (State.start gScens now) where
  walked := nofun
  previous := nofun
  ran := nofun

/-- A key after a run. -/
theorem step?_post
    {key : Key}
    {now : Int64}
    (post : state.screen = .post)
    (stepped : state.step? (.press key now) = some next) :
    next = State.postKey { state with now := now } key := by
  cases state with
  | mk gSel gLastSeed last screen clock runs selects =>
      obtain rfl : screen = .post := post
      simp only [State.step?, Option.ite_none_right_eq_some] at stepped
      exact (Option.some.inj stepped.2).symm

/-- A rerun always reuses the seed of the run before. -/
theorem Session.seedsKept_rerun
    (session : Session state)
    (now : Int64) :
    SeedsKept state (.press .r now) := by
  intro next post stepped
  obtain rfl := step?_post post stepped
  obtain ⟨s, last⟩ := session.ran (post ▸ rfl)
  obtain ⟨previous, runs, seed⟩ := session.previous s last
  refine ⟨s, previous, last, runs, ?_⟩
  simp only [State.postKey, last, State.runScenario, seed]

/-- A new seed is kept just when the presses do not cancel. -/
theorem Session.seedsKept_newSeed_iff
    {now : Int64}
    (session : Session state)
    (stepped : state.step? (.press .R now) = some next) :
    SeedsKept state (.press .R now) ↔ FreshTimes state (.press .R now) := by
  constructor
  · intro kept post
    obtain ⟨s, seed, last, runs, fresh⟩ := kept next post stepped
    obtain rfl := step?_post post stepped
    obtain ⟨first, walked⟩ := session.walked s last
    simp only [State.postKey, last, State.runScenario] at runs
    have seeds :=
      congrArg Run.seed
        (List.singleton_inj.mp (List.append_cancel_left runs))
    obtain rfl := seeds
    exact (walked.fresh_iff now).mp fresh
  · intro fresh next post stepped
    obtain rfl := step?_post post stepped
    obtain ⟨s, last⟩ := session.ran (post ▸ rfl)
    obtain ⟨first, walked⟩ := session.walked s last
    refine ⟨s, _, last, ?_, (walked.fresh_iff now).mpr (fresh post)⟩
    simp only [State.postKey, last, State.runScenario]

/-- The condition is about the presses for a new seed alone. -/
theorem Session.seedsKept_iff
    (session : Session state)
    (stepped : state.step? label = some next) :
    SeedsKept state label ↔ FreshTimes state label := by
  cases label with
  | press key now =>
      cases key with
      | r =>
          exact iff_of_true (session.seedsKept_rerun now) trivial
      | R =>
          exact session.seedsKept_newSeed_iff stepped
      | q | up | down | resize | enter | escape | e | other =>
          exact iff_of_true (fun _ _ _ => trivial) trivial
  | ends =>
      exact iff_of_true (fun _ _ _ => trivial) trivial

/-- Two new seeds in one second are the old one. -/
theorem newSeed_twice
    {now : Int64}
    {final : State gScens}
    {s : PgScenario}
    (post : state.screen = .post)
    (last : state.last = some s)
    (ran :
      state.run? [.press .R now, .ends, .press .R now] = some final) :
    final.gLastSeed = state.gLastSeed := by
  obtain ⟨first, pressed, ran⟩ := Transition.run?_cons_eq_some.mp ran
  obtain ⟨again, ended, ran⟩ := Transition.run?_cons_eq_some.mp ran
  obtain ⟨second, pressedAgain, ran⟩ :=
    Transition.run?_cons_eq_some.mp ran
  obtain rfl := Option.some.inj ran
  obtain rfl := step?_post post pressed
  simp only [State.postKey, last, State.runScenario] at ended
  obtain rfl := Option.some.inj ended
  obtain rfl := step?_post rfl pressedAgain
  simp only [State.postKey, State.runScenario]
  calc
    now.toUInt64 ^^^ (now.toUInt64 ^^^ state.gLastSeed ^^^ seedMask) ^^^
          seedMask =
        state.gLastSeed ^^^ (now.toUInt64 ^^^ now.toUInt64) ^^^
          (seedMask ^^^ seedMask) := by
      ac_rfl
    _ = state.gLastSeed := by
      rw [UInt64.xor_self, UInt64.xor_self, UInt64.xor_zero,
        UInt64.xor_zero]

end Sessions

section Runs

variable
  {gScens : List PgScenario}
  {now : Int64}
  {labels : List Label}
  {final : State gScens}

/-- A session whose seeds are kept has no block that cancels. -/
theorem freshTimes_of_seedsKept
    (ran : (State.start gScens now).run? labels = some final)
    (kept :
      Transition.EachStep State.step? SeedsKept (State.start gScens now)
        labels) :
    Transition.EachStep State.step? FreshTimes (State.start gScens now)
      labels :=
  Transition.eachStep_mono
    (fun session _ stepped => session.step stepped)
    (fun session kept stepped =>
      (session.seedsKept_iff stepped).mp kept)
    ran kept (session_start gScens now)

/-- A session without a block that cancels keeps its seeds. -/
theorem seedsKept_of_freshTimes
    (ran : (State.start gScens now).run? labels = some final)
    (fresh :
      Transition.EachStep State.step? FreshTimes (State.start gScens now)
        labels) :
    Transition.EachStep State.step? SeedsKept (State.start gScens now)
      labels :=
  Transition.eachStep_mono
    (fun session _ stepped => session.step stepped)
    (fun session fresh stepped =>
      (session.seedsKept_iff stepped).mpr fresh)
    ran fresh (session_start gScens now)

/--
In every session, the keys keep their promise about seeds just when no block of
presses for a new seed cancels.
-/
theorem newSeed_fresh_iff
    (ran : (State.start gScens now).run? labels = some final) :
    Transition.EachStep State.step? SeedsKept (State.start gScens now)
        labels ↔
      Transition.EachStep State.step? FreshTimes (State.start gScens now)
        labels :=
  ⟨freshTimes_of_seedsKept ran, seedsKept_of_freshTimes ran⟩

end Runs

/-- A scenario without a lesson. -/
def unexplained : PgScenario where
  id := Bytes.ascii "race_counter"
  title := Bytes.ascii "Race: lost increments"
  lesson := none

/-- A run, a rerun, and two new seeds some seconds apart. -/
def fourRuns : List Label :=
  [.press .enter 1760000000, .ends, .press .r 1760000002, .ends,
    .press .R 1760000002, .ends, .press .R 1760000005, .ends]

theorem newSeed_fresh_iff_fourRuns :
    ∃ final,
      (State.start [unexplained] 1760000000).run? fourRuns = some final ∧
        Transition.EachStep State.step? SeedsKept
          (State.start [unexplained] 1760000000) fourRuns := by
  have reached :
      ((State.start [unexplained] 1760000000).run? fourRuns).isSome =
        true := by
    decide +kernel
  obtain ⟨final, ran⟩ := Option.isSome_iff_exists.mp reached
  exact ⟨final, ran, (newSeed_fresh_iff ran).mpr (by decide +kernel)⟩

/-- A run, and two new seeds in its second. -/
def hastyRuns : List Label :=
  [.press .enter 1760000000, .ends, .press .R 1760000000, .ends,
    .press .R 1760000000]

/-- The second of the two is the seed of the run from the menu. -/
theorem newSeed_repeats :
    ∃ final,
      (State.start [unexplained] 1760000000).run? hastyRuns = some final ∧
        final.runs.map Run.seed = [1760000000, 0x5A5A5A5A, 1760000000] ∧
        ¬ Transition.EachStep State.step? SeedsKept
          (State.start [unexplained] 1760000000) hastyRuns := by
  have reached :
      ((State.start [unexplained] 1760000000).run? hastyRuns).map
          (fun final => final.runs.map Run.seed) =
        some [1760000000, 0x5A5A5A5A, 1760000000] := by
    decide +kernel
  obtain ⟨final, ran, seeds⟩ := Option.map_eq_some_iff.mp reached
  refine ⟨final, ran, seeds, fun kept => ?_⟩
  have cancelled :
      ¬ Transition.EachStep State.step? FreshTimes
        (State.start [unexplained] 1760000000) hastyRuns := by
    decide +kernel
  exact cancelled (freshTimes_of_seedsKept ran kept)

end FailurePlayground.TuiKeys
