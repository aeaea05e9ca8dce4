import FailurePlayground.Registry
import FailurePlayground.Lib.Strtoull

namespace FailurePlayground.CommandLine

/-!
# The command line

The loop of `main` reads options from the left until one of them stops it.
An option with a value takes the next word, whatever it looks like, and an
option given twice counts as it is given last.
-/

open Scenarios

/-- A string of `argv`. -/
abbrev Word := List UInt8

/-- The variables that the loop of `main` sets. -/
structure Options where
  scenarioId : Option Word
  seed : UInt64
  json : Bool
  list : Bool
  deriving Repr, DecidableEq

/-- Why the loop of `main` stops before the last word. -/
inductive Stop where
  | help
  | unknownArg (arg : Word)
  deriving Repr, DecidableEq

section Parsing

/-- `"--scenario"`. -/
def scenarioFlag : Word := Bytes.ascii "--scenario"

/-- `"--seed"`. -/
def seedFlag : Word := Bytes.ascii "--seed"

/-- `"--json"`. -/
def jsonFlag : Word := Bytes.ascii "--json"

/-- `"--list"`. -/
def listFlag : Word := Bytes.ascii "--list"

/-- `"-h"`. -/
def shortHelpFlag : Word := Bytes.ascii "-h"

/-- `"--help"`. -/
def helpFlag : Word := Bytes.ascii "--help"

/-- The branches of the loop that take no value. -/
def parseFlag (options : Options) (arg : Word) : Except Stop Options :=
  if arg = jsonFlag then
    .ok { options with json := true }
  else if arg = listFlag then
    .ok { options with list := true }
  else if arg = shortHelpFlag ∨ arg = helpFlag then
    .error .help
  else
    .error (.unknownArg arg)

/-- The loop of `main` over the words after the first one. -/
def parseArgs : Options → List Word → Except Stop Options
  | options, [] =>
      .ok options
  | options, [arg] =>
      parseFlag options arg
  | options, arg :: value :: rest =>
      if arg = scenarioFlag then
        parseArgs { options with scenarioId := some value } rest
      else if arg = seedFlag then
        parseArgs
          { options with seed := Strtoull.strtoull value } rest
      else
        match parseFlag options arg with
        | .ok options => parseArgs options (value :: rest)
        | .error stop => .error stop

end Parsing

section Program

/-- What `print_usage` prints. -/
def usage (argv0 : Word) : List UInt8 :=
  Bytes.ascii "usage: " ++ argv0 ++
    Bytes.ascii " [--scenario ID] [--seed N] [--json] [--list]\n" ++
    Bytes.ascii
      "  default (no flags) : launches interactive TUI (if built in)\n" ++
    Bytes.ascii
      "  --scenario ID      : run one scenario headless and stream events\n" ++
    Bytes.ascii
      "  --seed N           : seed the deterministic RNG (default: time(NULL))\n" ++
    Bytes.ascii
      "  --json             : emit one JSON object per event (otherwise plain text)\n" ++
    Bytes.ascii
      "  --list             : list registered scenarios and exit\n"

/-- A line of `list_scenarios`. -/
def listLine (s : PgScenario) : List UInt8 :=
  Bytes.ascii "  " ++ Numeral.padRight 14 s.id ++ Bytes.ascii "  " ++
    Numeral.padRight 32 s.title ++ Bytes.ascii "  [" ++
    pgCategoryName s.category ++ Bytes.ascii "]\n"

/-- What `list_scenarios` prints. -/
def listScenarios (all : List PgScenario) : List UInt8 :=
  if all.length = 0 then
    Bytes.ascii "(no scenarios registered)\n"
  else
    all.flatMap listLine

/-- The warning about a seed of zero. -/
def seedWarning : List UInt8 :=
  Bytes.ascii
    "warning: seed=0 is internally remapped to a fixed default for the\n" ++
    Bytes.ascii
      "         RNG; pass a non-zero --seed for true reproducibility.\n"

/-- The complaint about a word that is no option. -/
def unknownArg (argv0 arg : Word) : List UInt8 :=
  Bytes.ascii "unknown arg: " ++ arg ++ Bytes.ascii "\n" ++ usage argv0

/-- The complaint about an id that no scenario has. -/
def unknownScenario (id : Word) : List UInt8 :=
  Bytes.ascii "unknown scenario: " ++ id ++ Bytes.ascii "\n"

/-- The complaint of a binary without a TUI. -/
def headlessOnly (argv0 : Word) : List UInt8 :=
  Bytes.ascii "this binary is headless-only. " ++
    Bytes.ascii "pass --scenario ID, or use ./playground.\n" ++
    usage argv0

/-- What the process does after its command line has been read. -/
inductive Next where
  | exits (code : Nat)
  | runs (s : PgScenario) (seed : UInt64) (json : Bool)
  | tui
  deriving Repr, DecidableEq

/-- What `main` has printed before that. -/
structure Outcome where
  stdout : List UInt8
  stderr : List UInt8
  next : Next
  deriving Repr, DecidableEq

/-- `run_headless` up to `pg_run_start`. -/
def runHeadless
    (registry : Registry)
    (id : Word)
    (seed : UInt64)
    (json : Bool)
    (warned : List UInt8) : Outcome :=
  match pgRegistryFind registry (some id) with
  | none => {
      stdout := []
      stderr := warned ++ unknownScenario id
      next := .exits 2 }
  | some s => {
      stdout := []
      stderr := warned
      next := .runs s seed json }

/-- `main`; `hasTui` is `PG_HAS_TUI` and `now` is `time(NULL)`. -/
def main
    (hasTui : Bool)
    (registry : Registry)
    (now : UInt64)
    (argv0 : Word)
    (args : List Word) : Outcome :=
  let initial : Options := {
    scenarioId := none
    seed := now
    json := false
    list := false }
  match parseArgs initial args with
  | .error .help => {
      stdout := usage argv0
      stderr := []
      next := .exits 0 }
  | .error (.unknownArg arg) => {
      stdout := []
      stderr := unknownArg argv0 arg
      next := .exits 2 }
  | .ok options =>
      if options.list then {
        stdout := listScenarios (pgRegistryList registry)
        stderr := []
        next := .exits 0 }
      else
        let warned := if options.seed = 0 then seedWarning else []
        match options.scenarioId with
        | some id =>
            runHeadless registry id options.seed options.json warned
        | none =>
            if hasTui then {
              stdout := []
              stderr := warned
              next := .tui }
            else {
              stdout := []
              stderr := warned ++ headlessOnly argv0
              next := .exits 2 }

end Program

section Grammar

/-- An option as its user means it. -/
inductive Item where
  | scenario (id : Word)
  | seed (numeral : Word)
  | json
  | list
  deriving Repr, DecidableEq

namespace Item

/-- The words of an option. -/
def words : Item → List Word
  | .scenario id => [scenarioFlag, id]
  | .seed numeral => [seedFlag, numeral]
  | .json => [jsonFlag]
  | .list => [listFlag]

/-- What an option sets. -/
def apply (options : Options) : Item → Options
  | .scenario id => { options with scenarioId := some id }
  | .seed numeral =>
      { options with seed := Strtoull.strtoull numeral }
  | .json => { options with json := true }
  | .list => { options with list := true }

/-- The id an option names. -/
def scenario? : Item → Option Word
  | .scenario id => some id
  | .seed _ | .json | .list => none

/-- The numeral an option gives as the seed. -/
def seed? : Item → Option Word
  | .seed numeral => some numeral
  | .scenario _ | .json | .list => none

end Item

/-- How a command line goes on after its options. -/
inductive Ending where
  | complete
  | help (arg : Word) (rest : List Word)
  | unknown (arg : Word) (rest : List Word)
  deriving Repr, DecidableEq

namespace Ending

/-- The words from the one that stops the loop. -/
def words : Ending → List Word
  | .complete => []
  | .help arg rest | .unknown arg rest => arg :: rest

/--
The first word is what it is said to be; an option that lacks its value is
unknown, and so is every word that is no option.
-/
def Stands : Ending → Prop
  | .complete => True
  | .help arg _ => arg = shortHelpFlag ∨ arg = helpFlag
  | .unknown arg rest =>
      ((arg = scenarioFlag ∨ arg = seedFlag) ∧ rest = []) ∨
        arg ∉ [scenarioFlag, seedFlag, jsonFlag, listFlag,
          shortHelpFlag, helpFlag]

end Ending

/-- The id given last. -/
def lastScenario (items : List Item) : Option Word :=
  (items.filterMap Item.scenario?).getLast?

/-- The seed given last, or the time. -/
def lastSeed (now : UInt64) (items : List Item) : UInt64 :=
  ((items.filterMap Item.seed?).getLast?.map Strtoull.strtoull).getD now

/-- What a command line asks for, among the scenarios that are listed. -/
def asked
    (hasTui : Bool)
    (listed : List PgScenario)
    (now : UInt64)
    (argv0 : Word)
    (items : List Item) : Ending → Outcome
  | .help _ _ =>
      { stdout := usage argv0, stderr := [], next := .exits 0 }
  | .unknown arg _ => {
      stdout := []
      stderr := unknownArg argv0 arg
      next := .exits 2 }
  | .complete =>
      let seed := lastSeed now items
      let warned := if seed = 0 then seedWarning else []
      if .list ∈ items then
        { stdout := listScenarios listed, stderr := [], next := .exits 0 }
      else
        match lastScenario items with
        | some id =>
            match listed.find? fun s => s.id == id with
            | some s => {
                stdout := []
                stderr := warned
                next := .runs s seed (decide (.json ∈ items)) }
            | none => {
                stdout := []
                stderr := warned ++ unknownScenario id
                next := .exits 2 }
        | none =>
            if hasTui then
              { stdout := [], stderr := warned, next := .tui }
            else {
              stdout := []
              stderr := warned ++ headlessOnly argv0
              next := .exits 2 }

end Grammar

section Texts

/-- The bytes hold these words, one after the other and apart. -/
def Mentions : List Word → List UInt8 → Prop
  | [], _ => True
  | word :: words, bytes =>
      ∃ front rest, bytes = front ++ word ++ rest ∧ Mentions words rest

/-- Every option that the usage has to name. -/
def namedFlags : List Word :=
  [scenarioFlag, seedFlag, jsonFlag, listFlag]

/-- One line for every scenario, with its id, title and category. -/
def Lists (listed : List PgScenario) (bytes : List UInt8) : Prop :=
  ∃ lines : List (List UInt8),
    bytes = lines.flatMap (fun line => line ++ Bytes.ascii "\n") ∧
      if listed = [] then
        lines = [Bytes.ascii "(no scenarios registered)"]
      else
        List.Forall₂
          (fun s line =>
            Mentions [s.id, s.title, pgCategoryName s.category] line)
          listed lines

/-- A seed of zero is warned of, and no other. -/
def Warns (seed : UInt64) (bytes : List UInt8) : Prop :=
  if seed = 0 then
    Mentions [Bytes.ascii "warning", Bytes.ascii "seed=0", seedFlag] bytes
  else
    bytes = []

/-- What a user finds in the answer to a command line. -/
def Answers
    (hasTui : Bool)
    (listed : List PgScenario)
    (now : UInt64)
    (argv0 : Word)
    (items : List Item)
    (outcome : Outcome) : Ending → Prop
  | .help _ _ =>
      Mentions (argv0 :: namedFlags) outcome.stdout ∧
        outcome.stderr = [] ∧ outcome.next = .exits 0
  | .unknown arg _ =>
      outcome.stdout = [] ∧
        Mentions (arg :: argv0 :: namedFlags) outcome.stderr ∧
        outcome.next = .exits 2
  | .complete =>
      if .list ∈ items then
        Lists listed outcome.stdout ∧ outcome.stderr = [] ∧
          outcome.next = .exits 0
      else
        ∃ warned complaint,
          outcome.stdout = [] ∧ outcome.stderr = warned ++ complaint ∧
            Warns (lastSeed now items) warned ∧
            match lastScenario items with
            | some id =>
                match listed.find? fun s => s.id == id with
                | some s =>
                    complaint = [] ∧
                      outcome.next =
                        .runs s (lastSeed now items)
                          (decide (.json ∈ items))
                | none =>
                    Mentions [id] complaint ∧ outcome.next = .exits 2
            | none =>
                if hasTui then
                  complaint = [] ∧ outcome.next = .tui
                else
                  Mentions (argv0 :: namedFlags) complaint ∧
                    outcome.next = .exits 2

variable {words : List Word} {bytes : List UInt8}

/-- A word at the front is mentioned before the others. -/
theorem Mentions.word
    (mentions : Mentions words bytes)
    (word : Word) :
    Mentions (word :: words) (word ++ bytes) :=
  ⟨[], bytes, rfl, mentions⟩

/-- What stands before does not matter. -/
theorem Mentions.after
    (mentions : Mentions words bytes)
    (front : List UInt8) :
    Mentions words (front ++ bytes) := by
  cases words with
  | nil =>
      trivial
  | cons word words =>
      obtain ⟨between, rest, rfl, later⟩ := mentions
      exact ⟨front ++ between, rest, by simp, later⟩

/-- Nor does what comes after. -/
theorem Mentions.before
    (mentions : Mentions words bytes)
    (more : List UInt8) :
    Mentions words (bytes ++ more) := by
  induction words generalizing bytes with
  | nil =>
      trivial
  | cons word words inductionHypothesis =>
      obtain ⟨front, rest, rfl, later⟩ := mentions
      exact ⟨front, rest ++ more, by simp, inductionHypothesis later⟩

/-- The usage names the program and its options. -/
theorem mentions_usage (argv0 : Word) :
    Mentions (argv0 :: namedFlags) (usage argv0) := by
  have shape :
      Bytes.ascii " [--scenario ID] [--seed N] [--json] [--list]\n" =
        Bytes.ascii " [" ++ (scenarioFlag ++ (Bytes.ascii " ID] [" ++
          (seedFlag ++ (Bytes.ascii " N] [" ++ (jsonFlag ++
            (Bytes.ascii "] [" ++ (listFlag ++
              Bytes.ascii "]\n"))))))) := by
    decide +kernel
  have flags : Mentions namedFlags
      (Bytes.ascii " [--scenario ID] [--seed N] [--json] [--list]\n") := by
    have done : Mentions [] (Bytes.ascii "]\n") := trivial
    rw [shape]
    exact ((((((done.word listFlag).after _).word jsonFlag).after _).word
      seedFlag).after _ |>.word scenarioFlag).after _
  have named := (flags.word argv0).after (Bytes.ascii "usage: ")
  rw [← List.append_assoc] at named
  exact named.before _ |>.before _ |>.before _ |>.before _ |>.before _

/-- The listing has a line for every scenario. -/
theorem lists_listScenarios (listed : List PgScenario) :
    Lists listed (listScenarios listed) := by
  by_cases none : listed = []
  · subst none
    refine ⟨[Bytes.ascii "(no scenarios registered)"], ?_, ?_⟩
    · decide +kernel
    · rw [if_pos rfl]
  · refine ⟨listed.map fun s =>
      Bytes.ascii "  " ++ Numeral.padRight 14 s.id ++ Bytes.ascii "  " ++
        Numeral.padRight 32 s.title ++ Bytes.ascii "  [" ++
        pgCategoryName s.category ++ Bytes.ascii "]", ?_, ?_⟩
    · have newline : Bytes.ascii "]\n" =
          Bytes.ascii "]" ++ Bytes.ascii "\n" := by
        decide +kernel
      rw [listScenarios, if_neg (by simpa using none), List.flatMap_map]
      congr 1
      funext s
      simp only [listLine, newline, List.append_assoc]
    · rw [if_neg none, List.forall₂_map_right_iff, List.forall₂_same]
      intro s _
      have done : Mentions [] (Bytes.ascii "]") := trivial
      have category := (done.word (pgCategoryName s.category)).after
        (List.replicate (32 - s.title.length) 32 ++ Bytes.ascii "  [")
      have title := (category.word s.title).after
        (List.replicate (14 - s.id.length) 32 ++ Bytes.ascii "  ")
      have id := (title.word s.id).after (Bytes.ascii "  ")
      simpa only [Numeral.padRight, List.append_assoc] using id

/-- The warning is about the seed. -/
theorem warns_seedWarning (seed : UInt64) :
    Warns seed (if seed = 0 then seedWarning else []) := by
  by_cases zero : seed = 0
  · have shape : seedWarning =
        Bytes.ascii "warning" ++ (Bytes.ascii ": " ++
          (Bytes.ascii "seed=0" ++
            (Bytes.ascii
                " is internally remapped to a fixed default for the\n" ++
              (Bytes.ascii "         RNG; pass a non-zero " ++
                (seedFlag ++
                  Bytes.ascii " for true reproducibility.\n"))))) := by
      decide +kernel
    have done :
        Mentions [] (Bytes.ascii " for true reproducibility.\n") :=
      trivial
    rw [Warns, if_pos zero, if_pos zero, shape]
    exact ((((done.word seedFlag).after _).after _).word _).after _
      |>.word _
  · rw [Warns, if_neg zero, if_neg zero]

/-- A complaint about a word mentions it and the usage. -/
theorem mentions_unknownArg (argv0 arg : Word) :
    Mentions (arg :: argv0 :: namedFlags) (unknownArg argv0 arg) := by
  have named := ((mentions_usage argv0).after (Bytes.ascii "\n")).word arg
  simpa only [unknownArg, List.append_assoc] using
    named.after (Bytes.ascii "unknown arg: ")

/-- What a command line asks for answers it. -/
theorem answers_asked
    (hasTui : Bool)
    (listed : List PgScenario)
    (now : UInt64)
    (argv0 : Word)
    (items : List Item)
    (ending : Ending) :
    Answers hasTui listed now argv0 items
      (asked hasTui listed now argv0 items ending) ending := by
  cases ending with
  | help arg rest =>
      exact ⟨mentions_usage argv0, rfl, rfl⟩
  | unknown arg rest =>
      exact ⟨rfl, mentions_unknownArg argv0 arg, rfl⟩
  | complete =>
      have warns := warns_seedWarning (lastSeed now items)
      simp only [Answers, asked]
      by_cases list : .list ∈ items
      · rw [if_pos list, if_pos list]
        exact ⟨lists_listScenarios listed, rfl, rfl⟩
      · rw [if_neg list, if_neg list]
        cases lastScenario items with
        | some id =>
            simp only
            cases listed.find? fun s => s.id == id with
            | some s =>
                exact ⟨_, [], rfl, (List.append_nil _).symm, warns, rfl,
                  rfl⟩
            | none =>
                exact ⟨_, _, rfl, rfl, warns,
                  ⟨Bytes.ascii "unknown scenario: ", Bytes.ascii "\n",
                    rfl, trivial⟩, rfl⟩
        | none =>
            simp only
            cases hasTui with
            | true =>
                exact ⟨_, [], rfl, (List.append_nil _).symm, warns, rfl,
                  rfl⟩
            | false =>
                exact ⟨_, _, rfl, rfl, warns,
                  (mentions_usage argv0).after _, rfl⟩

end Texts

section Correspondence

variable
  {options after : Options}
  {arg : Word}
  {rest : List Word}
  {stop : Stop}

/-- An option without a value is read on its own. -/
theorem parseArgs_flag
    (parsed : parseFlag options arg = .ok after)
    (noScenario : arg ≠ scenarioFlag)
    (noSeed : arg ≠ seedFlag) :
    parseArgs options (arg :: rest) = parseArgs after rest := by
  cases rest with
  | nil =>
      simp only [parseArgs, parsed]
  | cons value rest =>
      rw [parseArgs, if_neg noScenario, if_neg noSeed, parsed]

/-- A word that is no option stops the loop. -/
theorem parseArgs_stop
    (parsed : parseFlag options arg = .error stop)
    (noValue : rest = [] ∨ arg ≠ scenarioFlag ∧ arg ≠ seedFlag) :
    parseArgs options (arg :: rest) = .error stop := by
  cases rest with
  | nil =>
      rw [parseArgs, parsed]
  | cons value rest =>
      rcases noValue with none | ⟨noScenario, noSeed⟩
      · cases none
      · rw [parseArgs, if_neg noScenario, if_neg noSeed, parsed]

/-- The six options are six words. -/
theorem flags_nodup :
    [scenarioFlag, seedFlag, jsonFlag, listFlag, shortHelpFlag,
      helpFlag].Nodup := by
  decide +kernel

/-- The loop reads an option as it is meant. -/
theorem parseArgs_item (item : Item) :
    parseArgs options (item.words ++ rest) =
      parseArgs (item.apply options) rest := by
  have distinct := flags_nodup
  simp only [List.nodup_cons, List.mem_cons, List.not_mem_nil, or_false,
    not_or] at distinct
  obtain ⟨scenario, seed, json, _⟩ := distinct
  cases item with
  | scenario id =>
      simp only [Item.words, List.cons_append, List.nil_append, parseArgs,
        if_true, Item.apply]
  | seed numeral =>
      simp only [Item.words, List.cons_append, List.nil_append, parseArgs,
        Ne.symm scenario.1, if_false, if_true, Item.apply]
  | json =>
      exact parseArgs_flag (by simp [parseFlag, Item.apply])
        (Ne.symm scenario.2.1) (Ne.symm seed.1)
  | list =>
      exact parseArgs_flag
        (by simp [parseFlag, Item.apply, Ne.symm json.1])
        (Ne.symm scenario.2.2.1) (Ne.symm seed.2.1)

/-- The loop stops where the options end. -/
theorem parseArgs_ending
    {ending : Ending}
    (stands : ending.Stands) :
    parseArgs options ending.words =
      match ending with
      | .complete => .ok options
      | .help _ _ => .error .help
      | .unknown arg _ => .error (.unknownArg arg) := by
  have distinct := flags_nodup
  simp only [List.nodup_cons, List.mem_cons, List.not_mem_nil, or_false,
    not_or] at distinct
  obtain ⟨scenario, seed, json, list, _⟩ := distinct
  cases ending with
  | complete =>
      rfl
  | help arg rest =>
      rcases stands with rfl | rfl
      · exact parseArgs_stop
          (by simp [parseFlag, Ne.symm json.2.1, Ne.symm list.1])
          (Or.inr ⟨Ne.symm scenario.2.2.2.1, Ne.symm seed.2.2.1⟩)
      · exact parseArgs_stop
          (by simp [parseFlag, Ne.symm json.2.2, Ne.symm list.2])
          (Or.inr ⟨Ne.symm scenario.2.2.2.2, Ne.symm seed.2.2.2⟩)
  | unknown arg rest =>
      rcases stands with ⟨rfl | rfl, noValue⟩ | foreign
      · exact parseArgs_stop
          (by simp [parseFlag, scenario.2.1, scenario.2.2.1,
            scenario.2.2.2.1, scenario.2.2.2.2]) (Or.inl noValue)
      · exact parseArgs_stop
          (by simp [parseFlag, seed.1, seed.2.1, seed.2.2.1,
            seed.2.2.2]) (Or.inl noValue)
      · simp only [List.mem_cons, List.not_mem_nil, or_false,
          not_or] at foreign
        exact parseArgs_stop (by simp [parseFlag, foreign])
          (Or.inr ⟨foreign.1, foreign.2.1⟩)

/-- The loop reads options as they are meant until they end. -/
theorem parseArgs_items
    (items : List Item)
    {ending : Ending}
    (stands : ending.Stands) :
    parseArgs options (items.flatMap Item.words ++ ending.words) =
      match ending with
      | .complete => .ok (items.foldl Item.apply options)
      | .help _ _ => .error .help
      | .unknown arg _ => .error (.unknownArg arg) := by
  induction items generalizing options with
  | nil =>
      exact parseArgs_ending stands
  | cons item rest inductionHypothesis =>
      rw [List.flatMap_cons, List.append_assoc, parseArgs_item,
        inductionHypothesis, List.foldl_cons]

/-- Options and an ending still are that with one option before them. -/
theorem items_cons
    (item : Item)
    (decomposed :
      ∃ (items : List Item) (ending : Ending),
        ending.Stands ∧
          rest = items.flatMap Item.words ++ ending.words) :
    ∃ (items : List Item) (ending : Ending),
      ending.Stands ∧
        item.words ++ rest =
          items.flatMap Item.words ++ ending.words := by
  obtain ⟨items, ending, stands, rfl⟩ := decomposed
  refine ⟨item :: items, ending, stands, ?_⟩
  rw [List.flatMap_cons, List.append_assoc]

/-- Every command line consists of options and an ending. -/
theorem exists_items : ∀ args : List Word,
    ∃ (items : List Item) (ending : Ending),
      ending.Stands ∧
        args = items.flatMap Item.words ++ ending.words
  | [] =>
      ⟨[], .complete, trivial, rfl⟩
  | arg :: rest => by
      by_cases valued : arg = scenarioFlag ∨ arg = seedFlag
      · cases rest with
        | nil =>
            exact ⟨[], .unknown arg [], Or.inl ⟨valued, rfl⟩, rfl⟩
        | cons value rest =>
            rcases valued with rfl | rfl
            · exact items_cons (.scenario value) (exists_items rest)
            · exact items_cons (.seed value) (exists_items rest)
      · by_cases json : arg = jsonFlag
        · subst json
          exact items_cons .json (exists_items rest)
        by_cases list : arg = listFlag
        · subst list
          exact items_cons .list (exists_items rest)
        by_cases help : arg = shortHelpFlag ∨ arg = helpFlag
        · exact ⟨[], .help arg rest, help, rfl⟩
        refine ⟨[], .unknown arg rest, Or.inr ?_, rfl⟩
        simp only [List.mem_cons, List.not_mem_nil, or_false]
        simp only [not_or] at valued help ⊢
        exact ⟨valued.1, valued.2, json, list, help.1, help.2⟩

end Correspondence

section Exactness

variable
  (hasTui : Bool)
  (now : UInt64)
  (argv0 : Word)

/-- A later id counts before an earlier one. -/
theorem lastScenario_cons
    (item : Item)
    (items : List Item) :
    lastScenario (item :: items) =
      (lastScenario items).or item.scenario? := by
  unfold lastScenario
  cases item with
  | scenario id =>
      have kept :
          (Item.scenario id :: items).filterMap Item.scenario? =
            id :: items.filterMap Item.scenario? := rfl
      rw [kept, List.getLast?_cons]
      cases (items.filterMap Item.scenario?).getLast? <;> rfl
  | seed _ | json | list =>
      rw [List.filterMap_cons_none rfl, Item.scenario?, Option.or_none]

/-- A later seed counts before an earlier one. -/
theorem lastSeed_cons
    (options : Options)
    (item : Item)
    (items : List Item) :
    lastSeed options.seed (item :: items) =
      lastSeed (item.apply options).seed items := by
  unfold lastSeed
  cases item with
  | seed numeral =>
      have kept :
          (Item.seed numeral :: items).filterMap Item.seed? =
            numeral :: items.filterMap Item.seed? := rfl
      rw [kept, List.getLast?_cons]
      cases (items.filterMap Item.seed?).getLast? <;> rfl
  | scenario _ | json | list =>
      rw [List.filterMap_cons_none rfl]
      rfl

/-- What the options set, all together. -/
theorem foldl_apply
    (items : List Item)
    (options : Options) :
    items.foldl Item.apply options = {
      scenarioId := (lastScenario items).or options.scenarioId
      seed := lastSeed options.seed items
      json := options.json || decide (.json ∈ items)
      list := options.list || decide (.list ∈ items) } := by
  induction items generalizing options with
  | nil =>
      simp [lastScenario, lastSeed]
  | cons item rest inductionHypothesis =>
      rw [List.foldl_cons, inductionHypothesis, lastScenario_cons,
        lastSeed_cons]
      cases item <;>
        simp [Item.apply, Item.scenario?]

/-- The program does what its options and their ending ask for. -/
theorem main_items
    (registry : Registry)
    (items : List Item)
    {ending : Ending}
    (stands : ending.Stands) :
    main hasTui registry now argv0
        (items.flatMap Item.words ++ ending.words) =
      asked hasTui (pgRegistryList registry) now argv0 items ending := by
  unfold main
  simp only [parseArgs_items items stands]
  cases ending with
  | help arg rest =>
      rfl
  | unknown arg rest =>
      rfl
  | complete =>
      simp only [foldl_apply, Option.or_none, Bool.false_or, asked,
        decide_eq_true_eq]
      split
      · rfl
      · cases lastScenario items with
        | none =>
            rfl
        | some id =>
            simp only [runHeadless, pgRegistryFind, pgRegistryList]
            cases registry.entries.find? fun s => s.id == id <;> rfl

/--
The program does what its command line asks for, whatever the words are, and
however they are taken apart into options and an ending, and its user finds
the answer in what it prints.  The scenarios it lists and runs are the first
ones that registered.
-/
theorem commandLine_exact
    (calls : List (Option PgScenario))
    (args : List Word) :
    (∃ (items : List Item) (ending : Ending),
        ending.Stands ∧
          args = items.flatMap Item.words ++ ending.words) ∧
      ∀ (items : List Item) (ending : Ending),
        ending.Stands →
          args = items.flatMap Item.words ++ ending.words →
            main hasTui (registered calls) now argv0 args =
                asked hasTui (calls.reduceOption.take pgRegMax) now argv0
                  items ending ∧
              Answers hasTui (calls.reduceOption.take pgRegMax) now argv0
                items (main hasTui (registered calls) now argv0 args)
                ending := by
  refine ⟨exists_items args, fun items ending stands decomposed => ?_⟩
  subst decomposed
  rw [← entries_registered,
    main_items hasTui now argv0 (registered calls) items stands]
  exact ⟨rfl, answers_asked _ _ _ _ _ _⟩

/-- The value of an option is taken even when it looks like an option. -/
theorem commandLine_exact_valued :
    main false (registered [some ⟨listFlag, [], 0⟩]) 7 [112]
        [scenarioFlag, listFlag, seedFlag, [48, 120, 49, 102]] =
      { stdout := []
        stderr := []
        next := .runs ⟨listFlag, [], 0⟩ 31 false } := by
  have exact :=
    (commandLine_exact false 7 [112] [some ⟨listFlag, [], 0⟩]
      [scenarioFlag, listFlag, seedFlag, [48, 120, 49, 102]]).2
      [.scenario listFlag, .seed [48, 120, 49, 102]] .complete trivial rfl
  rw [exact.1]
  decide +kernel

/-- `seed=%llu` as the TUI shows it when a scenario starts. -/
def shownSeed (seed : UInt64) : Word :=
  Numeral.decimal seed.toNat

/-- A seed is read back as it is shown. -/
theorem strtoull_shownSeed (seed : UInt64) :
    Strtoull.strtoull (shownSeed seed) = seed := by
  have small : seed.toNat ≤ 2 ^ 64 - 1 := by
    have := seed.toNat_lt
    omega
  rw [shownSeed, Strtoull.strtoull_decimal, Nat.min_eq_left small,
    UInt64.ofNat_toNat]

/--
A run can be repeated from what was shown of it: with the seed given last as
it was shown and the id given last, the program starts the first scenario
listed under the id with that very seed, whatever other options there are.
-/
theorem shownSeed_reruns
    {calls : List (Option PgScenario)}
    {items : List Item}
    {id : Word}
    {seed : UInt64}
    (noList : .list ∉ items)
    (scenario : lastScenario items = some id)
    (shown :
      (items.filterMap Item.seed?).getLast? = some (shownSeed seed))
    (listed : ∃ s ∈ pgRegistryList (registered calls), s.id = id) :
    ∃ s,
      pgRegistryFind (registered calls) (some id) = some s ∧
        s.id = id ∧
        (main hasTui (registered calls) now argv0
          (items.flatMap Item.words)).next =
            .runs s seed (decide (.json ∈ items)) := by
  have found := (pgRegistryFind_isSome_iff (registered calls) id).mpr listed
  obtain ⟨s, isFound⟩ := Option.isSome_iff_exists.mp found
  have read : lastSeed now items = seed := by
    rw [lastSeed, shown, Option.map_some, strtoull_shownSeed,
      Option.getD_some]
  refine ⟨s, isFound, (pgRegistryFind_some isFound).1, ?_⟩
  have started :=
    main_items hasTui now argv0 (registered calls) items
      (show Ending.complete.Stands from trivial)
  have here :
      (pgRegistryList (registered calls)).find? (fun s => s.id == id) =
        some s := isFound
  rw [Ending.words, List.append_nil] at started
  simp only [started, asked, noList, if_false, scenario, here, read]

/-- A seed given in two ways, and a scenario given after both. -/
theorem shownSeed_reruns_lastWins :
    ∃ s,
      pgRegistryFind
          (registered
            [some { id := [120], title := [], category := 0 }, none])
          (some [120]) = some s ∧
        s.id = [120] ∧
        (main false
          (registered
            [some { id := [120], title := [], category := 0 }, none])
          7 []
          (List.flatMap Item.words
            [.seed [49], .json, .seed (shownSeed 907), .scenario [120]])
          ).next = .runs s 907 true :=
  shownSeed_reruns false 7 [] (by decide) (by decide) (by rfl)
    ⟨{ id := [120], title := [], category := 0 }, by
      rw [pgRegistryList, entries_registered]
      decide, rfl⟩

end Exactness

end FailurePlayground.CommandLine
