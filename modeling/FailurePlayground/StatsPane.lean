import FailurePlayground.StatsTable

namespace FailurePlayground

/-!
# The stats pane

`draw_stats` prints the rows in use under three headings, as far down as the
window reaches.  Under the last one it looks up, for each expected key, the
actual row of the same key, and colors the line by what it finds.
-/

/-- One line of the pane; a gauge's bar is drawn from its three numbers. -/
inductive StatsLine where
  | counters
  | gauges
  | expectedVsActual
  | counter (key : List UInt8) (value : Int64)
  | gauge (key : List UInt8) (value low high : Int64)
  | diff
      (key : List UInt8)
      (expected : Int64)
      (actual : Option Int64)
      (color : ColorPair)
  deriving Repr, DecidableEq

/-- The rows of one heading, each on a line of its own. -/
def drawRows (rows : Int) (line? : Stat → Option StatsLine) :
    List Stat → Int → List (Int × StatsLine) × Int
  | [], row =>
      ([], row)
  | stat :: rest, row =>
      if row < rows - 1 then
        match line? stat with
        | none => drawRows rows line? rest row
        | some line =>
            let (lines, row') := drawRows rows line? rest (row + 1)
            ((row, line) :: lines, row')
      else
        ([], row)

/-- A heading with its rows, when there is something to put under it. -/
def drawSection
    (rows : Int)
    (present : Bool)
    (heading : StatsLine)
    (line? : Stat → Option StatsLine)
    (used : List Stat)
    (blank : Bool)
    (row : Int) : List (Int × StatsLine) × Int :=
  if present ∧ row < rows - 1 then
    let (lines, after) := drawRows rows line? used (row + 1)
    ((row, heading) :: lines,
      if blank ∧ after < rows - 1 then after + 1 else after)
  else
    ([], row)

namespace Stats

/-- The search of `draw_stats` for the actual row of a key. -/
def actualOf (stats : Stats) (key : List UInt8) : Option Int64 :=
  (stats.used.find? fun stat =>
    stat.kind = .actual ∧ stat.string = key).map Stat.value

/-- The color of a line under the last heading. -/
def diffColor (expected : Int64) : Option Int64 → ColorPair
  | none => .dim
  | some act => if expected = act then .match else .miss

/-- The line of a counter. -/
def counterLine? (stat : Stat) : Option StatsLine :=
  if stat.kind = .counter then
    some (.counter stat.string stat.value)
  else
    none

/-- The line of a gauge. -/
def gaugeLine? (stat : Stat) : Option StatsLine :=
  if stat.kind = .gauge then
    some (.gauge stat.string stat.value stat.gaugeMin stat.gaugeMax)
  else
    none

/-- The line of an expected value. -/
def diffLine? (stats : Stats) (stat : Stat) : Option StatsLine :=
  if stat.kind = .expect then
    some (.diff stat.string stat.value (stats.actualOf stat.string)
      (diffColor stat.value (stats.actualOf stat.string)))
  else
    none

/-- The lines `draw_stats` prints, each with its row of the window. -/
def draw (stats : Stats) (rows : Int) : List (Int × StatsLine) :=
  let has (kind : PgEventKind) : Bool :=
    stats.used.any fun stat => stat.kind = kind
  let (counters, row) :=
    drawSection rows (has .counter) .counters counterLine? stats.used
      true 1
  let (gauges, row) :=
    drawSection rows (has .gauge) .gauges gaugeLine? stats.used true row
  let (diffs, _) :=
    drawSection rows (has .expect || has .actual) .expectedVsActual
      stats.diffLine? stats.used false row
  counters ++ gauges ++ diffs

end Stats

/-- The key on a line under the last heading. -/
def StatsLine.diffKey? : StatsLine → Option (List UInt8)
  | .diff key _ _ _ => some key
  | .counters | .gauges | .expectedVsActual | .counter _ _
  | .gauge _ _ _ _ => none

/-- The keys of the events of one kind, in order of first appearance. -/
def kindKeys
    (kind : PgEventKind)
    (samples : List Sample) : List (List UInt8) :=
  (statRules.keys samples).filterMap fun key =>
    if key.1 = kind then some key.2 else none

/-- The rows that a heading, some lines and a blank line take up. -/
def headedRows (lines : Nat) : Int :=
  if lines = 0 then 0 else lines + 2

/-- The rows of the window that are left for expected keys. -/
def roomForKeys (rows : Int) (samples : List Sample) : Nat :=
  (rows - 3 - headedRows (kindKeys .counter samples).length -
    headedRows (kindKeys .gauge samples).length).toNat

/-- What the pane decides about a run, told from its samples alone. -/
structure PaneSpec
    (samples : List Sample)
    (lines : Int → List (Int × StatsLine)) : Prop where
  /-- The keys decided are the expected ones, as many as there is room for. -/
  keys :
    ∀ rows,
      (lines rows).filterMap (fun line => line.2.diffKey?) =
        (kindKeys .expect samples).take (roomForKeys rows samples)
  /-- A window of 71 rows reaches all of them. -/
  all :
    ∀ rows, 71 ≤ rows →
      (lines rows).filterMap (fun line => line.2.diffKey?) =
        kindKeys .expect samples
  /-- Each is decided by its last expected and its last actual value. -/
  decided :
    ∀ rows row key expected actual color,
      (row, StatsLine.diff key expected actual color) ∈ lines rows →
      (valuesOf samples (.expect, key)).getLast? = some expected ∧
        actual = (valuesOf samples (.actual, key)).getLast? ∧
        (color = .dim ↔ valuesOf samples (.actual, key) = []) ∧
        (color = .match ↔
          (valuesOf samples (.actual, key)).getLast? = some expected) ∧
        (color = .miss ↔
          ∃ act,
            (valuesOf samples (.actual, key)).getLast? = some act ∧
              act ≠ expected)

section Draw

variable
  {rows : Int}
  {line? : Stat → Option StatsLine}

/-- The rows drawn are the first that fit. -/
theorem drawRows_lines
    (rows : Int)
    (line? : Stat → Option StatsLine)
    (used : List Stat)
    (row : Int) :
    (drawRows rows line? used row).1.map Prod.snd =
        (used.filterMap line?).take (rows - 1 - row).toNat ∧
      (drawRows rows line? used row).2 =
        row +
          min (rows - 1 - row).toNat (used.filterMap line?).length := by
  induction used generalizing row with
  | nil =>
      simp [drawRows]
  | cons stat rest inductionHypothesis =>
      unfold drawRows
      by_cases room : row < rows - 1
      · rw [if_pos room]
        cases made : line? stat with
        | none =>
            rw [List.filterMap_cons_none made]
            exact inductionHypothesis row
        | some line =>
            obtain ⟨lines, last⟩ := inductionHypothesis (row + 1)
            have more :
                (rows - 1 - row).toNat =
                  (rows - 1 - (row + 1)).toNat + 1 := by
              omega
            rw [List.filterMap_cons_some made, more, List.take_succ_cons]
            refine ⟨?_, ?_⟩
            · simp only [List.map_cons, lines]
            · simp only [List.length_cons]
              omega
      · rw [if_neg room]
        have full : (rows - 1 - row).toNat = 0 := by omega
        exact ⟨by simp [full], by simp [full]⟩

variable
  {present blank : Bool}
  {heading : StatsLine}
  {used : List Stat}
  {row : Int}

/-- Every line drawn under a heading is one of its rows. -/
theorem mem_drawSection
    {place : Int}
    {line : StatsLine}
    (drawn :
      (place, line) ∈
        (drawSection rows present heading line? used blank row).1) :
    line = heading ∨ ∃ stat ∈ used, line? stat = some line := by
  unfold drawSection at drawn
  split at drawn
  · rcases List.mem_cons.mp drawn with here | later
    · exact Or.inl (congrArg Prod.snd here)
    · have member := List.mem_map_of_mem (f := Prod.snd) later
      rw [(drawRows_lines rows line? used (row + 1)).1] at member
      exact Or.inr
        (List.mem_filterMap.mp (List.mem_of_mem_take member))
  · exact absurd drawn List.not_mem_nil

/-- A section ends a heading, its rows and a blank line further down. -/
theorem drawSection_row
    (shown : present = true ↔ used.filterMap line? ≠ []) :
    (drawSection rows present heading line? used true row).2 =
      if row < rows - 1 then
        min (rows - 1) (row + headedRows (used.filterMap line?).length)
      else
        row := by
  have last := (drawRows_lines rows line? used (row + 1)).2
  unfold drawSection headedRows
  by_cases room : row < rows - 1
  · cases none : present with
    | false =>
        have empty : used.filterMap line? = [] := by
          by_contra some
          exact absurd (none ▸ shown.mpr some) Bool.false_ne_true
        simp only [Bool.false_eq_true, false_and, ↓reduceIte, room, empty,
          List.length_nil]
        omega
    | true =>
        have some : 0 < (used.filterMap line?).length :=
          List.length_pos_iff.mpr (shown.mp none)
        simp only [true_and, room, ↓reduceIte, Nat.ne_of_gt some, last]
        split
        · omega
        · omega
  · simp only [room, and_false, ↓reduceIte]

/-- The keys that lines of a section decide. -/
def keysDrawn (lines : List (Int × StatsLine)) : List (List UInt8) :=
  lines.filterMap fun line => line.2.diffKey?

/-- The sections of counters and gauges decide nothing. -/
theorem keysDrawn_eq_nil
    (headingNone : heading.diffKey? = none)
    (rowsNone :
      ∀ stat line, line? stat = some line → line.diffKey? = none) :
    keysDrawn
        (drawSection rows present heading line? used blank row).1 =
      [] := by
  refine List.filterMap_eq_nil_iff.mpr ?_
  rintro ⟨place, line⟩ drawn
  rcases mem_drawSection drawn with rfl | ⟨stat, _, made⟩
  · exact headingNone
  · exact rowsNone stat line made

end Draw

namespace Stats

variable {stats : Stats} {samples : List Sample}

/-- The key of a row of some kind. -/
def kindKey? (kind : PgEventKind) (stat : Stat) : Option (List UInt8) :=
  if stat.kind = kind then some stat.string else none

/-- The rows of a kind have as many lines as keys. -/
theorem length_filterMap_line
    {line? : Stat → Option StatsLine}
    {kind : PgEventKind}
    (lines : ∀ stat, (line? stat).isSome = decide (stat.kind = kind))
    (used : List Stat) :
    (used.filterMap line?).length =
      (used.filterMap (kindKey? kind)).length := by
  rw [List.length_filterMap_eq_countP, List.length_filterMap_eq_countP]
  refine List.countP_congr fun stat _ => ?_
  rw [lines stat, kindKey?]
  by_cases same : stat.kind = kind
  · simp [same]
  · simp [same]

/-- A heading is printed exactly when there are lines to put under it. -/
theorem any_kind_iff
    {line? : Stat → Option StatsLine}
    {kind : PgEventKind}
    (lines : ∀ stat, (line? stat).isSome = decide (stat.kind = kind))
    (used : List Stat) :
    (used.any fun stat => stat.kind = kind) = true ↔
      used.filterMap line? ≠ [] := by
  rw [List.any_eq_true, Ne, List.filterMap_eq_nil_iff, not_forall]
  refine exists_congr fun stat => ?_
  rw [Classical.not_imp, ← Ne, ← Option.isSome_iff_ne_none, lines stat]

/-- Every row of a counter has a line. -/
theorem isSome_counterLine (stat : Stat) :
    (counterLine? stat).isSome = decide (stat.kind = .counter) := by
  by_cases kind : stat.kind = .counter
  · simp [counterLine?, kind]
  · simp [counterLine?, kind]

/-- Every row of a gauge has a line. -/
theorem isSome_gaugeLine (stat : Stat) :
    (gaugeLine? stat).isSome = decide (stat.kind = .gauge) := by
  by_cases kind : stat.kind = .gauge
  · simp [gaugeLine?, kind]
  · simp [gaugeLine?, kind]

/-- The lines of expected rows are those with a key to decide. -/
theorem diffKey?_diffLine (used : List Stat) :
    (used.filterMap stats.diffLine?).map StatsLine.diffKey? =
      (used.filterMap (kindKey? .expect)).map some := by
  induction used with
  | nil =>
      rfl
  | cons stat rest inductionHypothesis =>
      by_cases kind : stat.kind = .expect
      · simp [diffLine?, kindKey?, kind, StatsLine.diffKey?]
        simpa [diffLine?, kindKey?] using inductionHypothesis
      · simp [diffLine?, kindKey?, kind]
        simpa [diffLine?, kindKey?] using inductionHypothesis

/-- The rows drawn under the last heading decide the first keys that fit. -/
theorem keysDrawn_drawRows
    (rows row : Int)
    (used : List Stat) :
    keysDrawn (drawRows rows stats.diffLine? used row).1 =
      (used.filterMap (kindKey? .expect)).take (rows - 1 - row).toNat := by
  have lines := (drawRows_lines rows stats.diffLine? used row).1
  have keys :
      ((drawRows rows stats.diffLine? used row).1.map Prod.snd).map
          StatsLine.diffKey? =
        ((used.filterMap (kindKey? .expect)).take
          (rows - 1 - row).toNat).map some := by
    rw [lines, List.map_take, diffKey?_diffLine, List.map_take]
  have shape :
      keysDrawn (drawRows rows stats.diffLine? used row).1 =
        (((drawRows rows stats.diffLine? used row).1.map Prod.snd).map
          StatsLine.diffKey?).filterMap id := by
    rw [List.filterMap_map, List.filterMap_map]
    exact rfl
  rw [shape, keys, List.filterMap_map, Function.id_comp,
    List.filterMap_some]

/-- There are no more keys of three kinds than rows. -/
theorem filterMap_lengths (used : List Stat) :
    (used.filterMap (kindKey? .counter)).length +
        (used.filterMap (kindKey? .gauge)).length +
        (used.filterMap (kindKey? .expect)).length ≤
      used.length := by
  induction used with
  | nil =>
      simp
  | cons stat rest inductionHypothesis =>
      simp only [List.filterMap_cons, List.length_cons]
      cases kind : stat.kind with
      | counter | gauge | expect =>
          simp only [kindKey?, kind, reduceCtorEq, ↓reduceIte,
            List.length_cons]
          omega
      | log | phase | actual | sutFault | done | childCrash | watchdog =>
          simp only [kindKey?, kind, reduceCtorEq, ↓reduceIte]
          omega

/-- The keys that the pane decides are those drawn under the last heading. -/
theorem keysDrawn_draw (stats : Stats) (rows : Int) :
    ∃ row : Int,
      (rows - 1 - (row + 1)).toNat =
          (rows - 3 -
            headedRows (stats.used.filterMap (kindKey? .counter)).length -
            headedRows
              (stats.used.filterMap (kindKey? .gauge)).length).toNat ∧
        keysDrawn (stats.draw rows) =
          keysDrawn
            (drawSection rows
              ((stats.used.any fun stat => stat.kind = .expect) ||
                stats.used.any fun stat => stat.kind = .actual)
              .expectedVsActual stats.diffLine? stats.used false row).1 := by
  have counterNone :
      ∀ stat line,
        counterLine? stat = some line → line.diffKey? = none := by
    intro stat line made
    unfold counterLine? at made
    split at made
    · obtain rfl := Option.some.inj made
      exact rfl
    · simp at made
  have gaugeNone :
      ∀ stat line,
        gaugeLine? stat = some line → line.diffKey? = none := by
    intro stat line made
    unfold gaugeLine? at made
    split at made
    · obtain rfl := Option.some.inj made
      exact rfl
    · simp at made
  refine ⟨(drawSection rows
    (stats.used.any fun stat => stat.kind = .gauge) .gauges gaugeLine?
    stats.used true
    (drawSection rows
      (stats.used.any fun stat => stat.kind = .counter) .counters
      counterLine? stats.used true 1).2).2, ?_, ?_⟩
  · rw [drawSection_row (any_kind_iff isSome_gaugeLine stats.used),
      drawSection_row (any_kind_iff isSome_counterLine stats.used),
      length_filterMap_line isSome_counterLine,
      length_filterMap_line isSome_gaugeLine]
    unfold headedRows
    split
    · split
      · omega
      · omega
    · omega
  · have first :
        keysDrawn (drawSection rows
          (stats.used.any fun stat => stat.kind = .counter) .counters
          counterLine? stats.used true 1).1 = [] :=
      keysDrawn_eq_nil rfl counterNone
    have second (row : Int) :
        keysDrawn (drawSection rows
          (stats.used.any fun stat => stat.kind = .gauge) .gauges
          gaugeLine? stats.used true row).1 = [] :=
      keysDrawn_eq_nil rfl gaugeNone
    unfold keysDrawn at first second ⊢
    simp only [draw, List.filterMap_append, first, second,
      List.nil_append]

/-- The keys of a kind are the keys of its rows. -/
theorem kindKeys_eq
    (spec : TableSpec samples stats)
    (kind : PgEventKind) :
    stats.used.filterMap (kindKey? kind) = kindKeys kind samples := by
  rw [kindKeys, ← spec.keys, List.filterMap_map]
  exact rfl

/-- Without an expected or actual row there is no expected key. -/
theorem expectKeys_eq_nil
    {used : List Stat}
    (absent :
      ((used.any fun stat => stat.kind = .expect) ||
        used.any fun stat => stat.kind = .actual) = false) :
    used.filterMap (kindKey? .expect) = [] := by
  refine List.filterMap_eq_nil_iff.mpr fun stat member => ?_
  rw [Bool.or_eq_false_iff, List.any_eq_false] at absent
  have other := absent.1 stat member
  rw [decide_eq_true_eq] at other
  rw [kindKey?, if_neg other]

/-- The keys under the last heading are the first expected ones that fit. -/
theorem keysDrawn_diffs
    (spec : TableSpec samples stats)
    (rows row : Int) :
    keysDrawn
        (drawSection rows
          ((stats.used.any fun stat => stat.kind = .expect) ||
            stats.used.any fun stat => stat.kind = .actual)
          .expectedVsActual stats.diffLine? stats.used false row).1 =
      (kindKeys .expect samples).take (rows - 1 - (row + 1)).toNat := by
  cases present :
      (stats.used.any fun stat => stat.kind = .expect) ||
        stats.used.any fun stat => stat.kind = .actual with
  | false =>
      have none := expectKeys_eq_nil present
      rw [kindKeys_eq spec .expect] at none
      rw [none, List.take_nil]
      exact rfl
  | true =>
      unfold drawSection
      by_cases room : row < rows - 1
      · rw [if_pos ⟨rfl, room⟩, ← kindKeys_eq spec .expect,
          ← keysDrawn_drawRows]
        exact rfl
      · have full : (rows - 1 - (row + 1)).toNat = 0 := by omega
        rw [if_neg fun both => room both.2, full, List.take_zero]
        exact rfl

/-- The search for an actual row finds the last actual value of a key. -/
theorem actualOf_eq
    (spec : TableSpec samples stats)
    (key : List UInt8) :
    stats.actualOf key = (valuesOf samples (.actual, key)).getLast? := by
  unfold actualOf
  cases found :
      stats.used.find? fun stat =>
        stat.kind = .actual ∧ stat.string = key with
  | none =>
      have unmet : (PgEventKind.actual, key) ∉ statRules.keys samples := by
        rw [← spec.keys]
        intro listed
        obtain ⟨stat, member, same⟩ := List.mem_map.mp listed
        rw [Prod.mk.injEq] at same
        have other := List.find?_eq_none.mp found stat member
        simp [same] at other
      have empty : valuesOf samples (.actual, key) = [] := by
        have none := KeyedTable.Rules.ofKey_eq_nil unmet
        exact List.map_eq_nil_iff.mpr none
      rw [empty]
      exact rfl
  | some stat =>
      have member := List.mem_of_find?_eq_some found
      have same := List.find?_some found
      simp only [decide_eq_true_eq] at same
      have other : stat.kind ≠ .counter := by
        rw [same.1]
        decide
      have last := spec.latest stat member other
      rw [same.1, same.2] at last
      rw [last]
      exact rfl

/-- What the color of a line says about the two values. -/
theorem diffColor_iff (expected : Int64) (actual : Option Int64) :
    (diffColor expected actual = .dim ↔ actual = none) ∧
      (diffColor expected actual = .match ↔ actual = some expected) ∧
      (diffColor expected actual = .miss ↔
        ∃ act, actual = some act ∧ act ≠ expected) := by
  cases actual with
  | none =>
      simp [diffColor]
  | some act =>
      by_cases same : expected = act
      · simp [diffColor, same]
      · simp [diffColor, same, Ne.symm same]

/-- A table that meets its specification is drawn to the pane's. -/
theorem paneSpec
    (spec : TableSpec samples stats)
    (bounded : stats.count ≤ statsMax) :
    PaneSpec samples stats.draw := by
  constructor
  · intro rows
    obtain ⟨row, room, drawn⟩ := keysDrawn_draw stats rows
    rw [keysDrawn_diffs spec, room, kindKeys_eq spec .counter,
      kindKeys_eq spec .gauge] at drawn
    exact drawn
  · intro rows tall
    obtain ⟨row, room, drawn⟩ := keysDrawn_draw stats rows
    rw [keysDrawn_diffs spec, room] at drawn
    unfold keysDrawn at drawn
    have lengths := filterMap_lengths stats.used
    have inUse : stats.used.length ≤ statsMax := by
      rw [used, List.length_take]
      exact Nat.le_trans (Nat.min_le_left _ _) bounded
    rw [kindKeys_eq spec .expect] at lengths
    unfold statsMax at inUse
    rw [drawn]
    refine List.take_of_length_le ?_
    unfold headedRows
    split
    · split
      · omega
      · omega
    · split
      · omega
      · omega
  · intro rows row key expected actual color drawn
    have made :
        ∃ stat ∈ stats.used,
          stats.diffLine? stat = some (.diff key expected actual color) := by
      simp only [draw] at drawn
      rcases List.mem_append.mp drawn with others | diffs
      · rcases List.mem_append.mp others with counters | gauges
        · rcases mem_drawSection counters with heading | ⟨stat, _, made⟩
          · simp at heading
          · simp [counterLine?] at made
        · rcases mem_drawSection gauges with heading | ⟨stat, _, made⟩
          · simp at heading
          · simp [gaugeLine?] at made
      · rcases mem_drawSection diffs with heading | found
        · simp at heading
        · exact found
    obtain ⟨stat, member, made⟩ := made
    simp only [diffLine?, Option.ite_none_right_eq_some,
      Option.some.injEq, StatsLine.diff.injEq] at made
    obtain ⟨kind, rfl, rfl, rfl, rfl⟩ := made
    have last := spec.latest stat member (by rw [kind]; decide)
    rw [kind] at last
    obtain ⟨dim, equal, miss⟩ :=
      diffColor_iff stat.value (stats.actualOf stat.string)
    rw [actualOf_eq spec] at dim equal miss ⊢
    refine ⟨last, rfl, ?_, equal, miss⟩
    exact dim.trans List.getLast?_eq_none_iff

end Stats

/-- The events of a run that have rows have keys that end inside them. -/
def KeysEnd (events : List Received) : Prop :=
  ∀ received ∈ events,
    received.event.sample?.isSome = true →
      0 ∈ received.event.key.toList

instance (events : List Received) : Decidable (KeysEnd events) :=
  inferInstanceAs (Decidable (∀ received ∈ events, _ → _))

/-- The counter samples among some samples. -/
def countersOf (samples : List Sample) : List Sample :=
  samples.filter fun sample => sample.kind = .counter

/-- Two runs with the same counter events agree on every counter. -/
def CountersAgree (stats other : Stats) : Prop :=
  ∀ stat ∈ stats.used, stat.kind = .counter →
    ∃ twin ∈ other.used,
      twin.kind = .counter ∧ twin.string = stat.string ∧
        twin.value = stat.value

/-- The values of a counter are among those of the counter samples. -/
theorem valuesOf_countersOf (samples : List Sample) (key : List UInt8) :
    valuesOf (countersOf samples) (.counter, key) =
      valuesOf samples (.counter, key) := by
  unfold valuesOf countersOf
  rw [List.filter_filter]
  congr 1
  refine List.filter_congr fun sample _ => ?_
  by_cases same : (sample.kind, sample.key) = (PgEventKind.counter, key)
  · have kind : sample.kind = .counter := congrArg Prod.fst same
    simp [kind]
  · simp [same]

/-- A key that has a row has a sample, and the other way round. -/
theorem TableSpec.row_iff
    {samples : List Sample}
    {stats : Stats}
    (spec : TableSpec samples stats)
    (key : StatKey) :
    (∃ stat ∈ stats.used, (stat.kind, stat.string) = key) ↔
      ∃ sample ∈ samples, (sample.kind, sample.key) = key := by
  have listed :
      key ∈ stats.used.map (fun stat => (stat.kind, stat.string)) ↔
        key ∈ statRules.keys samples := by
    rw [spec.keys]
  rw [List.mem_map, KeyedTable.Rules.mem_keys] at listed
  exact listed

/-- Permuting the counter samples changes no counter. -/
theorem countersAgree_of_perm
    {samples others : List Sample}
    {stats other : Stats}
    (spec : TableSpec samples stats)
    (otherSpec : TableSpec others other)
    (permuted : (countersOf samples).Perm (countersOf others)) :
    CountersAgree stats other := by
  intro stat member kind
  obtain ⟨sample, sampled, same⟩ :=
    (spec.row_iff (stat.kind, stat.string)).mp ⟨stat, member, rfl⟩
  have counted : sample ∈ countersOf samples := by
    refine List.mem_filter.mpr ⟨sampled, decide_eq_true ?_⟩
    rw [← kind]
    exact congrArg Prod.fst same
  have otherSampled :=
    (List.mem_filter.mp (permuted.mem_iff.mp counted)).1
  obtain ⟨twin, twinMember, twinSame⟩ :=
    (otherSpec.row_iff (stat.kind, stat.string)).mpr
      ⟨sample, otherSampled, same⟩
  obtain ⟨twinKind, twinKey⟩ := Prod.mk.inj twinSame
  have values :
      (valuesOf samples (.counter, stat.string)).Perm
        (valuesOf others (.counter, stat.string)) := by
    rw [← valuesOf_countersOf samples, ← valuesOf_countersOf others]
    exact (permuted.filter _).map _
  refine ⟨twin, twinMember, twinKind.trans kind, twinKey, ?_⟩
  rw [spec.counters stat member kind,
    otherSpec.counters twin twinMember (twinKind.trans kind), twinKind,
    twinKey, kind]
  exact congrArg Int64.ofInt (values.map Int64.toInt).sum_eq.symm

/-- What `run_scenario` makes of a run with at most 64 kinds and keys. -/
theorem tableSpec_of_run
    (stats : Stats)
    {events : List Received}
    (ends : KeysEnd events)
    (few : (statRules.keys (samplesOf events)).length ≤ statsMax)
    {fuel : Nat}
    (enough : pgEventKeyLen ≤ fuel) :
    ∃ final,
      Transition.run? (statStep? fuel) stats.clear events = some final ∧
        TableSpec (samplesOf events) final ∧
        final.count ≤ statsMax := by
  have empty : stats.clear.Shows [] :=
    ⟨rfl, fun _ member => (List.not_mem_nil member).elim,
      Nat.zero_le _⟩
  have collected :
      statRules.Collected (samplesOf events)
        ((samplesOf events).foldl statRules.receive []) :=
    KeyedTable.Rules.collected_foldl (samplesOf events)
  have room :
      ((samplesOf events).foldl statRules.receive []).length ≤
        statsMax := by
    have lengths := congrArg List.length collected.keyed
    rw [List.length_map] at lengths
    rw [lengths]
    exact few
  obtain ⟨final, ran, shows⟩ := empty.run ends enough room
  exact ⟨final, ran, shows.tableSpec collected, shows.bounded⟩

/--
The table of a run is what its events say, whatever earlier runs left in it,
the pane decides every expected key by them, and permuting the counter events
changes no counter.
-/
def StatsHold
    (fuel : Nat)
    (stats : Stats)
    (events : List Received) : Prop :=
  ∃ final,
    Transition.run? (statStep? fuel) stats.clear events = some final ∧
      TableSpec (samplesOf events) final ∧
      PaneSpec (samplesOf events) final.draw ∧
      ∀ (older : Stats) (others : List Received),
        KeysEnd others →
        (statRules.keys (samplesOf others)).length ≤ statsMax →
        (countersOf (samplesOf events)).Perm
          (countersOf (samplesOf others)) →
        ∃ other,
          Transition.run? (statStep? fuel) older.clear others =
              some other ∧
            CountersAgree final other ∧ CountersAgree other final

/-- Keys that end inside their arrays make the table and the pane hold. -/
theorem statsHold_of_keysEnd
    (stats : Stats)
    {events : List Received}
    (ends : KeysEnd events)
    (few : (statRules.keys (samplesOf events)).length ≤ statsMax)
    {fuel : Nat}
    (enough : pgEventKeyLen ≤ fuel) :
    StatsHold fuel stats events := by
  obtain ⟨final, ran, spec, bounded⟩ :=
    tableSpec_of_run stats ends few enough
  refine ⟨final, ran, spec, Stats.paneSpec spec bounded, ?_⟩
  intro older others othersEnd othersFew permuted
  obtain ⟨other, otherRan, otherSpec, _⟩ :=
    tableSpec_of_run older othersEnd othersFew enough
  exact ⟨other, otherRan, countersAgree_of_perm spec otherSpec permuted,
    countersAgree_of_perm otherSpec spec permuted.symm⟩

/-- An array without a NUL has all of its bytes in the key. -/
theorem sample?_unterminated
    {event : PgEvent}
    {sample : Sample}
    (sampled : event.sample? = some sample)
    (unterminated : 0 ∉ event.key.toList) :
    sample.key.length = pgEventKeyLen := by
  have whole : cStringOf event.key.toList = event.key.toList := by
    refine List.takeWhile_eq_self_iff.mpr fun byte member => ?_
    refine decide_eq_true ?_
    rintro rfl
    exact unterminated member
  unfold PgEvent.sample? at sampled
  split at sampled
  · split at sampled
    · obtain rfl := Option.some.inj sampled
      rw [whole, Vector.length_toList]
    · simp at sampled
  · simp at sampled

/-- A table with a row for every key has no key that fills its array. -/
theorem keysEnd_of_tableSpec
    {events : List Received}
    {final : Stats}
    (spec : TableSpec (samplesOf events) final) :
    KeysEnd events := by
  intro received member sampled
  by_contra unterminated
  obtain ⟨sample, sampled⟩ := Option.isSome_iff_exists.mp sampled
  have listed : sample ∈ samplesOf events :=
    List.mem_filterMap.mpr ⟨received, member, sampled⟩
  obtain ⟨stat, _, same⟩ :=
    (spec.row_iff (sample.kind, sample.key)).mpr ⟨sample, listed, rfl⟩
  have key : stat.string = sample.key := congrArg Prod.snd same
  have short := length_cStringOf_lt stat.terminated
  have long := sample?_unterminated sampled unterminated
  rw [← key] at long
  exact absurd long (Nat.ne_of_lt short)

/--
For a run with at most 64 kinds and keys, the table and the pane are what the
events say exactly when the keys of the events end inside their arrays.
-/
theorem statsTable_exact
    (stats : Stats)
    (events : List Received)
    (few : (statRules.keys (samplesOf events)).length ≤ statsMax)
    (fuel : Nat)
    (enough : pgEventKeyLen ≤ fuel) :
    StatsHold fuel stats events ↔ KeysEnd events := by
  constructor
  · rintro ⟨final, _, spec, _⟩
    exact keysEnd_of_tableSpec spec
  · intro ends
    exact statsHold_of_keysEnd stats ends few enough

/-- A row that an earlier run left behind. -/
def staleStat : Stat where
  key := cArray pgEventKeyLen (Bytes.ascii "hits")
  value := 77
  gaugeMin := -5
  gaugeMax := 99
  touchedGauge := true
  kind := .gauge
  terminated := by decide

/-- A table full of such rows. -/
def staleTable : Stats where
  rows := Vector.replicate statsMax staleStat
  count := 64

/-- An event as the emit helpers build it. -/
def numberEvent
    (kind : PgEventKind)
    (key : String)
    (num : Int64) : Received where
  event := { PgEvent.ofKind kind with
    num := num
    key := cArray pgEventKeyLen (Bytes.ascii key) }
  beyond := fun _ => 0

/-- Counters, a gauge, and an expected value that is not met. -/
def mixedEvents : List Received :=
  [numberEvent .counter "hits" 2, numberEvent .gauge "hits" 4,
    numberEvent .expect "sum" 7, numberEvent .log "sum" 0,
    numberEvent .counter "hits" (-3), numberEvent .gauge "hits" 1,
    numberEvent .actual "sum" 8]

theorem statsTable_exact_mixed :
    StatsHold enoughFuel staleTable mixedEvents := by
  have ends : KeysEnd mixedEvents := by decide +kernel
  have few :
      (statRules.keys (samplesOf mixedEvents)).length ≤ statsMax := by
    decide +kernel
  exact
    (statsTable_exact staleTable mixedEvents few enoughFuel
      (by decide)).mpr ends

/-- A counter event whose key fills its array. -/
def fullKeyEvent : Received where
  event := { PgEvent.ofKind .counter with
    num := 1
    key := Vector.replicate pgEventKeyLen 107 }
  beyond := fun _ => 0

/-- The row keeps 31 of the 32 bytes, so the next event does not find it. -/
theorem full_key_makes_two_rows :
    (statRules.keys (samplesOf [fullKeyEvent, fullKeyEvent])).length = 1 ∧
      (Transition.run? (statStep? enoughFuel) staleTable.clear
          [fullKeyEvent, fullKeyEvent]).map
        (fun stats => stats.used.map Stat.value) = some [1, 1] ∧
      ¬ StatsHold enoughFuel staleTable [fullKeyEvent, fullKeyEvent] := by
  have one :
      (statRules.keys
        (samplesOf [fullKeyEvent, fullKeyEvent])).length = 1 := by
    decide +kernel
  have two :
      (Transition.run? (statStep? enoughFuel) staleTable.clear
          [fullKeyEvent, fullKeyEvent]).map
        (fun stats => stats.used.map Stat.value) = some [1, 1] := by
    decide +kernel
  refine ⟨one, two, ?_⟩
  rintro ⟨final, ran, spec, _⟩
  rw [ran, Option.map_some, Option.some.injEq] at two
  have rows := congrArg List.length two
  have keys := congrArg List.length spec.keys
  rw [List.length_map] at rows keys
  rw [rows, one] at keys
  exact absurd keys (by decide)

end FailurePlayground
