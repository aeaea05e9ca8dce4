import FailurePlayground.Tui

namespace FailurePlayground

/-!
# The log pane

`log_pushf` writes round and round a ring of 512 entries, and `draw_log`
prints a window of the newest ones, oldest first.  The window is as tall as
the screen allows, which nothing relates to the length of the ring.
-/

/-- The calls that change the log. -/
inductive LogOp where
  | clear
  | push (style : Style) (line : List UInt8)
  deriving Repr, DecidableEq

/-- The entry that `log_pushf` makes of a formatted line. -/
def LogEntry.ofLine (style : Style) (line : List UInt8) : LogEntry where
  text := line.take (logLineLen - 1)
  style := style

/-- A printed line with its row of the window. -/
structure LogRow where
  row : Nat
  text : List UInt8
  style : Style
  deriving Repr, DecidableEq

/-- What `"%-*.*s"` makes of a string, its width and precision both `w`. -/
def paddedField (w : Int) (string : List UInt8) : List UInt8 :=
  let shown := if w < 0 then string else string.take w.toNat
  shown ++ List.replicate (w.natAbs - shown.length) (32 : UInt8)

/-- An entry as `draw_log` prints it in a window of some columns. -/
def LogEntry.printed
    (entry : LogEntry)
    (cols : Int32)
    (row : Nat) : LogRow where
  row := row
  text := paddedField (cols.toInt - 2) entry.text
  style := entry.style

namespace Log

/-- `log_clear`. -/
def clear (log : Log) : Log :=
  { log with count := 0 }

/-- One call. -/
def step (log : Log) : LogOp → Log
  | .clear => log.clear
  | .push style line => log.pushf style line

/-- The calls of a run, in order. -/
def run (log : Log) (ops : List LogOp) : Log :=
  ops.foldl step log

/-- The slot of the ring that an index leads to. -/
def slot (index : UInt32) : Fin logLines :=
  ⟨(index % 512).toNat, by
    rw [UInt32.toNat_mod]
    exact Nat.mod_lt _ (by decide)⟩

/-- The loop of `draw_log`, from an index of the window on. -/
def drawFrom
    (log : Log)
    (cols : Int32)
    (start : UInt32) : (remaining i : Nat) → List LogRow
  | 0, _ => []
  | remaining + 1, i =>
      let index := start + UInt32.ofNat i
      if index < log.count then
        (log.entries.get (slot index)).printed cols (1 + i) ::
          drawFrom log cols start remaining (i + 1)
      else
        []

/-- The lines `draw_log` prints in a window of a height and a width. -/
def draw (log : Log) (rows cols : Int32) : List LogRow :=
  let viewable := rows.toInt - 2
  if viewable < 1 then
    []
  else
    let view := UInt32.ofNat viewable.toNat
    let start := if view < log.count then log.count - view else 0
    log.drawFrom cols start viewable.toNat 0

end Log

/-- The number of viewable rows of a window. -/
def viewableRows (rows : Int32) : Nat :=
  (rows.toInt - 2).toNat

/-- What one call leaves of the entries pushed since the last clear. -/
def LogOp.since (pushed : List LogEntry) : LogOp → List LogEntry
  | .clear => []
  | .push style line => pushed ++ [LogEntry.ofLine style line]

/-- The entries pushed since the last clear. -/
def pushedSince (ops : List LogOp) : List LogEntry :=
  ops.foldl LogOp.since []

/-- The last entries of a list, printed top to bottom. -/
def tailRows (cols : Int32) (number : Nat) (pushed : List LogEntry) :
    List LogRow :=
  (pushed.drop (pushed.length - number)).mapIdx fun i entry =>
    entry.printed cols (1 + i)

/-- The pane shows the tail of the log and nothing else. -/
def ShowsTail (log : Log) (pushed : List LogEntry) (rows cols : Int32) :
    Prop :=
  log.draw rows cols =
    tailRows cols
      (min (viewableRows rows) (min pushed.length logLines)) pushed

namespace Log

/-- What the ring keeps of the entries pushed since the last clear. -/
structure Keeps (log : Log) (pushed : List LogEntry) : Prop where
  /-- The count is the number of pushes, as 32 bits hold it. -/
  counted : log.count.toNat = pushed.length % 2 ^ 32
  /-- The last 512 pushes stand at their places. -/
  retained :
    ∀ (i : Nat) (inRange : i < pushed.length),
      pushed.length ≤ i + logLines →
      ∀ (place : Nat) (inRing : place < logLines),
        place = i % logLines →
        log.entries[place] = pushed[i]

section Keeps

variable
  {log : Log}
  {pushed : List LogEntry}

/-- A push writes the slot of its number. -/
theorem Keeps.place
    (keeps : log.Keeps pushed) :
    log.count.toNat % logLines = pushed.length % logLines := by
  rw [keeps.counted]
  exact Nat.mod_mod_of_dvd _ (by decide)

/-- Nothing has been pushed where the count is zero. -/
theorem keeps_nil (new : log.count = 0) : log.Keeps [] where
  counted := by
    rw [new]
    rfl
  retained := by
    intro i inRange
    simp at inRange

/-- A push takes the place of the entry pushed 512 before it, if any. -/
theorem Keeps.pushf
    (keeps : log.Keeps pushed)
    (style : Style)
    (line : List UInt8) :
    (log.pushf style line).Keeps
      (pushed ++ [LogEntry.ofLine style line]) where
  counted := by
    have counted := keeps.counted
    change (log.count + 1).toNat = _
    rw [UInt32.toNat_add, counted, List.length_append]
    exact Nat.mod_add_mod _ _ _
  retained := by
    intro i inRange recent place inRing here
    simp only [List.length_append, List.length_singleton] at inRange recent
    change
      (log.entries.setIfInBounds (log.count.toNat % logLines)
        (LogEntry.ofLine style line))[place] = _
    rw [Vector.getElem_setIfInBounds, keeps.place]
    by_cases newest : i = pushed.length
    · subst newest
      rw [if_pos here.symm]
      simp
    · have earlier : i < pushed.length := by omega
      have elsewhere : pushed.length % logLines ≠ place := by
        intro same
        rw [here] at same
        unfold logLines at same recent
        omega
      rw [if_neg elsewhere, List.getElem_append_left earlier]
      exact keeps.retained i earlier (by omega) place inRing here

/-- Every call keeps the correspondence. -/
theorem Keeps.step
    (keeps : log.Keeps pushed)
    (op : LogOp) :
    (log.step op).Keeps (op.since pushed) := by
  cases op with
  | clear =>
      exact keeps_nil rfl
  | push style line =>
      exact keeps.pushf style line

/-- Every run keeps the correspondence. -/
theorem Keeps.run
    (keeps : log.Keeps pushed)
    (ops : List LogOp) :
    (log.run ops).Keeps (ops.foldl LogOp.since pushed) := by
  induction ops generalizing log pushed with
  | nil =>
      exact keeps
  | cons op rest inductionHypothesis =>
      exact inductionHypothesis (keeps.step op)

end Keeps

section Draw

variable {log : Log}

/-- The loop prints a stretch of the ring, up to the newest entry. -/
theorem drawFrom_eq
    (log : Log)
    (cols : Int32)
    (start : UInt32)
    (remaining i : Nat)
    (fits : start.toNat + i + remaining < 2 ^ 32) :
    log.drawFrom cols start remaining i =
      (List.range' i
        (min remaining (log.count.toNat - (start.toNat + i)))).map
        fun j =>
          (log.entries.get (slot (start + UInt32.ofNat j))).printed cols
            (1 + j) := by
  induction remaining generalizing i with
  | zero =>
      simp [drawFrom]
  | succ remaining inductionHypothesis =>
      have index : (start + UInt32.ofNat i).toNat = start.toNat + i := by
        rw [UInt32.toNat_add, UInt32.toNat_ofNat']
        omega
      rw [drawFrom, inductionHypothesis (i + 1) (by omega)]
      simp only [UInt32.lt_iff_toNat_lt, index]
      split
      · have more :
            min (remaining + 1)
                (log.count.toNat - (start.toNat + i)) =
              min remaining
                (log.count.toNat - (start.toNat + (i + 1))) + 1 := by
          omega
        rw [more, List.range'_succ, List.map_cons]
      · have none :
            min (remaining + 1)
              (log.count.toNat - (start.toNat + i)) = 0 := by
          omega
        rw [none]
        rfl

/-- The rows printed, by the numbers of their pushes. -/
theorem draw_eq
    (log : Log)
    (rows cols : Int32) :
    log.draw rows cols =
      (List.range (min (viewableRows rows) log.count.toNat)).map fun j =>
        (log.entries.get (slot
          (UInt32.ofNat
            (log.count.toNat - viewableRows rows + j)))).printed cols
          (1 + j) := by
  have bound : rows.toInt < 2 ^ 31 := rows.toInt_lt
  unfold draw
  by_cases short : rows.toInt - 2 < 1
  · have none : viewableRows rows = 0 := by
      unfold viewableRows
      omega
    simp [short, none]
  · have counted := log.count.toNat_lt
    have view :
        (UInt32.ofNat (rows.toInt - 2).toNat).toNat =
          viewableRows rows := by
      rw [UInt32.toNat_ofNat']
      unfold viewableRows
      omega
    have start :
        (if UInt32.ofNat (rows.toInt - 2).toNat < log.count then
            log.count - UInt32.ofNat (rows.toInt - 2).toNat
          else 0) =
          UInt32.ofNat (log.count.toNat - viewableRows rows) := by
      apply UInt32.toNat_inj.mp
      rw [UInt32.toNat_ofNat']
      split
      · rename_i more
        rw [UInt32.lt_iff_toNat_lt, view] at more
        rw [UInt32.toNat_sub_of_le _ _
          (UInt32.le_iff_toNat_le.mpr (by omega)), view]
        omega
      · rename_i few
        rw [UInt32.lt_iff_toNat_lt, view] at few
        change 0 = _
        omega
    have first :
        (UInt32.ofNat (log.count.toNat - viewableRows rows)).toNat =
          log.count.toNat - viewableRows rows := by
      rw [UInt32.toNat_ofNat']
      omega
    have small : viewableRows rows < 2 ^ 31 := by
      unfold viewableRows
      omega
    simp only [if_neg short, start]
    rw [show (rows.toInt - 2).toNat = viewableRows rows from rfl,
      drawFrom_eq _ _ _ _ _ (by omega), first, List.range_eq_range']
    have number :
        min (viewableRows rows)
            (log.count.toNat -
              (log.count.toNat - viewableRows rows + 0)) =
          min (viewableRows rows) log.count.toNat := by
      omega
    rw [number]
    apply List.map_congr_left
    intro j member
    rw [UInt32.ofNat_add]

/-- As many rows are printed as are viewable and pushed. -/
theorem length_draw (log : Log) (rows cols : Int32) :
    (log.draw rows cols).length =
      min (viewableRows rows) log.count.toNat := by
  rw [draw_eq, List.length_map, List.length_range]

end Draw

end Log

section Tail

variable
  {log : Log}
  {pushed : List LogEntry}
  {rows cols : Int32}

/-- As many rows as the tail has entries, of those there are. -/
theorem length_tailRows (cols : Int32) (number : Nat)
    (pushed : List LogEntry) :
    (tailRows cols number pushed).length = min number pushed.length := by
  rw [tailRows, List.length_mapIdx, List.length_drop]
  omega

/-- The slot that holds a retained entry. -/
theorem Log.Keeps.get_slot
    (keeps : log.Keeps pushed)
    {i : Nat}
    (inRange : i < pushed.length)
    (recent : pushed.length ≤ i + logLines) :
    log.entries.get (Log.slot (UInt32.ofNat i)) = pushed[i] := by
  apply keeps.retained i inRange recent
  rw [UInt32.toNat_mod, UInt32.toNat_ofNat']
  exact Nat.mod_mod_of_dvd _ (by decide)

/-- Rows that the ring retains are those of the tail. -/
theorem Log.Keeps.showsTail
    (keeps : log.Keeps pushed)
    (few : pushed.length < 2 ^ 32)
    (retained : viewableRows rows ≤ 512 ∨ pushed.length ≤ 512) :
    ShowsTail log pushed rows cols := by
  have count : log.count.toNat = pushed.length := by
    rw [keeps.counted, Nat.mod_eq_of_lt few]
  have number :
      min (viewableRows rows) (min pushed.length logLines) =
        min (viewableRows rows) pushed.length := by
    unfold logLines
    omega
  rw [ShowsTail, number, Log.draw_eq, count]
  apply List.ext_getElem
  · rw [length_tailRows, List.length_map, List.length_range]
    omega
  · intro j shown _
    rw [List.length_map, List.length_range] at shown
    have place :
        pushed.length - min (viewableRows rows) pushed.length + j =
          pushed.length - viewableRows rows + j := by
      omega
    simp only [tailRows, List.getElem_map, List.getElem_range,
      List.getElem_mapIdx, List.getElem_drop, place]
    rw [keeps.get_slot (by omega) (by unfold logLines; omega)]

/-- A window taller than the ring shows slots of the ring more than once. -/
theorem Log.draw_repeats
    (log : Log)
    (rows cols : Int32)
    {j : Nat}
    (shown : j + logLines < (log.draw rows cols).length) :
    ∃ earlier later,
      (log.draw rows cols)[j]? = some earlier ∧
        (log.draw rows cols)[j + logLines]? = some later ∧
        earlier.text = later.text ∧ earlier.style = later.style := by
  have number := Log.length_draw log rows cols
  have same :
      Log.slot
          (UInt32.ofNat
            (log.count.toNat - viewableRows rows + (j + logLines))) =
        Log.slot
          (UInt32.ofNat (log.count.toNat - viewableRows rows + j)) := by
    apply Fin.ext
    change (UInt32.ofNat _ % 512).toNat = (UInt32.ofNat _ % 512).toNat
    rw [UInt32.toNat_mod, UInt32.toNat_mod, UInt32.toNat_ofNat',
      UInt32.toNat_ofNat']
    unfold logLines
    change _ % 2 ^ 32 % 512 = _ % 2 ^ 32 % 512
    omega
  have first : j < (log.draw rows cols).length := by omega
  refine
    ⟨_, _, List.getElem?_eq_getElem first,
      List.getElem?_eq_getElem shown, ?_, ?_⟩
  · simp only [Log.draw_eq, List.getElem_map, List.getElem_range, same]
    rfl
  · simp only [Log.draw_eq, List.getElem_map, List.getElem_range, same]
    rfl

/--
After any calls on a new log the pane shows the tail of the entries pushed
since the last clear exactly when the window or the number of pushes is at
most the length of the ring.
-/
theorem logPane_showsTail_iff
    (log : Log)
    (new : log.count = 0)
    (ops : List LogOp)
    (few : (pushedSince ops).length < 2 ^ 32)
    (rows cols : Int32) :
    ShowsTail (log.run ops) (pushedSince ops) rows cols ↔
      viewableRows rows ≤ 512 ∨ (pushedSince ops).length ≤ 512 := by
  have keeps : (log.run ops).Keeps (pushedSince ops) :=
    (Log.keeps_nil new).run ops
  constructor
  · intro shows
    have number := Log.length_draw (log.run ops) rows cols
    rw [keeps.counted, Nat.mod_eq_of_lt few, shows, length_tailRows]
      at number
    unfold logLines at number
    omega
  · exact keeps.showsTail few

/-- The log as the process starts with it. -/
def zeroLog : Log where
  entries :=
    Vector.replicate logLines
      { text := [], style := { cp := .normal, bold := false } }
  count := 0

/-- A line of a run that is cleared away, then three of the next run. -/
def twoRuns : List LogOp :=
  [.push { cp := .fault, bold := true } (Bytes.ascii "old"),
    .clear,
    .push { cp := .header, bold := true } (Bytes.ascii "starting"),
    .push { cp := .normal, bold := false } (Bytes.ascii "working"),
    .push { cp := .normal, bold := true } (Bytes.ascii "done.")]

theorem logPane_showsTail_iff_twoRuns :
    ShowsTail (zeroLog.run twoRuns) (pushedSince twoRuns) 4 12 ∧
      tailRows 12 2 (pushedSince twoRuns) =
        [{ row := 1,
           text := Bytes.ascii "working   ",
           style := { cp := .normal, bold := false } },
          { row := 2,
            text := Bytes.ascii "done.     ",
            style := { cp := .normal, bold := true } }] :=
  ⟨(logPane_showsTail_iff zeroLog rfl twoRuns (by decide) 4 12).mpr
      (Or.inl (by decide)),
    by decide⟩

/-- Without a clear every line pushed is remembered. -/
theorem since_push
    (style : Style)
    (lines : List (List UInt8))
    (pushed : List LogEntry) :
    (lines.map (LogOp.push style)).foldl LogOp.since pushed =
      pushed ++ lines.map (LogEntry.ofLine style) := by
  induction lines generalizing pushed with
  | nil =>
      simp
  | cons line rest inductionHypothesis =>
      simp only [List.map_cons, List.foldl_cons, LogOp.since]
      rw [inductionHypothesis, List.append_assoc, List.singleton_append]

/-- Numbered lines, one more than the ring has slots. -/
def overfull : List LogOp :=
  ((List.range 513).map Numeral.decimal).map
    (.push { cp := .normal, bold := false })

/-- A window of 520 rows shows a line above the oldest and again below. -/
theorem tallPane_repeats :
    ¬ ShowsTail (zeroLog.run overfull) (pushedSince overfull) 520 10 ∧
      ∃ first last,
        ((zeroLog.run overfull).draw 520 10)[0]? = some first ∧
          ((zeroLog.run overfull).draw 520 10)[512]? = some last ∧
          first.text = last.text := by
  have keeps : (zeroLog.run overfull).Keeps (pushedSince overfull) :=
    (Log.keeps_nil rfl).run overfull
  have pushes : (pushedSince overfull).length = 513 := by
    rw [pushedSince, overfull, since_push]
    simp
  have number : ((zeroLog.run overfull).draw 520 10).length = 513 := by
    rw [Log.length_draw, keeps.counted, pushes]
    decide
  constructor
  · intro shows
    rw [shows, length_tailRows, pushes] at number
    exact absurd number (by decide)
  · obtain ⟨first, last, top, bottom, text, _⟩ :=
      Log.draw_repeats (zeroLog.run overfull) 520 10
        (show 0 + logLines < _ by rw [number]; decide)
    exact ⟨first, last, top, bottom, text⟩

end Tail

end FailurePlayground
