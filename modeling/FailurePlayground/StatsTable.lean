import Mathlib.Data.List.TakeWhile
import FailurePlayground.Lib.KeyedTable
import FailurePlayground.Lib.Transition
import FailurePlayground.TrustBoundary

namespace FailurePlayground

/-!
# The stats table of one run

`run_scenario` clears the table and then hands it every counter, gauge, expect
and actual event of the child.  The table is searched in place and keeps the
rows of earlier runs behind its count; what it shows is the fold of each key's
own events, whatever those rows hold.
-/

/-- One number that the `switch` hands to `stat_upsert`. -/
structure Sample where
  kind : PgEventKind
  key : List UInt8
  num : Int64
  deriving Repr, DecidableEq

/-- What a row is found by. -/
abbrev StatKey := PgEventKind × List UInt8

/-- What a row shows; a gauge has a range as well. -/
structure StatRow where
  key : StatKey
  value : Int64
  range : Option (Int64 × Int64)
  deriving Repr, DecidableEq

namespace PgEventKind

/-- The kinds that `run_scenario` keeps rows of. -/
def isStat : PgEventKind → Bool
  | .counter | .gauge | .expect | .actual => true
  | .log | .phase | .sutFault | .done | .childCrash | .watchdog => false

end PgEventKind

/-- The sample of an event, if it has one. -/
def PgEvent.sample? (event : PgEvent) : Option Sample :=
  match PgEventKind.ofCode? event.kind with
  | some kind =>
      if kind.isStat then
        some {
          kind := kind
          key := cStringOf event.key.toList
          num := event.num }
      else
        none
  | none => none

/-- A row after the first sample of its key. -/
def StatRow.first (sample : Sample) : StatRow where
  key := (sample.kind, sample.key)
  value := sample.num
  range :=
    if sample.kind = .gauge then some (sample.num, sample.num) else none

/-- A row after one more sample of its key. -/
def StatRow.next (row : StatRow) (sample : Sample) : StatRow where
  key := row.key
  value :=
    if row.key.1 = .counter then row.value + sample.num else sample.num
  range :=
    row.range.map fun range =>
      (if sample.num < range.1 then sample.num else range.1,
        if range.2 < sample.num then sample.num else range.2)

/-- The table as a collection of samples by kind and key. -/
def statRules : KeyedTable.Rules StatKey Sample StatRow where
  keyOf := fun sample => (sample.kind, sample.key)
  rowKey := StatRow.key
  first := StatRow.first
  next := StatRow.next
  rowKey_first _ := rfl
  rowKey_next _ _ := rfl

/-- The string a row's key array holds. -/
def Stat.string (stat : Stat) : List UInt8 :=
  cStringOf stat.key.toList

/-- What a row of the table shows. -/
def Stat.row (stat : Stat) : StatRow where
  key := (stat.kind, stat.string)
  value := stat.value
  range :=
    if stat.kind = .gauge then some (stat.gaugeMin, stat.gaugeMax)
    else none

namespace Stats

/-- `stats_clear`. -/
def clear (stats : Stats) : Stats :=
  { stats with count := 0 }

/-- The rows in use. -/
def used (stats : Stats) : List Stat :=
  stats.rows.toList.take stats.count

/-- The table shows these rows, and every gauge in use has been touched. -/
structure Shows (stats : Stats) (table : List StatRow) : Prop where
  rows : stats.used.map Stat.row = table
  touched :
    ∀ stat ∈ stats.used, stat.kind = .gauge → stat.touchedGauge = true
  bounded : stats.count ≤ statsMax

end Stats

/-- An event the parent has read, with the memory that follows it. -/
structure Received where
  event : PgEvent
  beyond : Nat → UInt8

/-- One event through the `switch` of `run_scenario`. -/
def statStep?
    (fuel : Nat)
    (stats : Stats)
    (received : Received) : Option Stats :=
  (upsertEvent received.event
    (received.event.memory received.beyond) fuel stats).result

/-- The samples of a sequence of events. -/
def samplesOf (events : List Received) : List Sample :=
  events.filterMap fun received => received.event.sample?

/-- The numbers that came with a key, oldest first. -/
def valuesOf (samples : List Sample) (key : StatKey) : List Int64 :=
  (samples.filter fun sample => (sample.kind, sample.key) = key).map
    Sample.num

/-- The table after a run, told from the samples of that run alone. -/
structure TableSpec (samples : List Sample) (stats : Stats) : Prop where
  /-- One row for each kind and key, in order of first appearance. -/
  keys :
    stats.used.map (fun stat => (stat.kind, stat.string)) =
      statRules.keys samples
  /-- A counter is the sum of its deltas, modulo `2 ^ 64`. -/
  counters :
    ∀ stat ∈ stats.used, stat.kind = .counter →
      stat.value =
        Int64.ofInt
          ((valuesOf samples (stat.kind, stat.string)).map
            Int64.toInt).sum
  /-- Any other row has the last value received. -/
  latest :
    ∀ stat ∈ stats.used, stat.kind ≠ .counter →
      (valuesOf samples (stat.kind, stat.string)).getLast? =
        some stat.value
  /-- A gauge has the least and the greatest value received. -/
  gauges :
    ∀ stat ∈ stats.used, stat.kind = .gauge →
      (stat.gaugeMin ∈ valuesOf samples (stat.kind, stat.string) ∧
        ∀ v ∈ valuesOf samples (stat.kind, stat.string),
          stat.gaugeMin ≤ v) ∧
      (stat.gaugeMax ∈ valuesOf samples (stat.kind, stat.string) ∧
        ∀ v ∈ valuesOf samples (stat.kind, stat.string),
          v ≤ stat.gaugeMax)

section Search

variable
  {event : PgEvent}
  {beyond : Nat → UInt8}
  (terminated : 0 ∈ event.key.toList)

include terminated

/-- Comparing a row's key with the key of an event. -/
theorem result_strcmpEq_key (stat : Stat) :
    (strcmpEq (event.memory beyond) .key stat.key.toList 0).result =
      some (decide (stat.string = cStringOf event.key.toList)) := by
  refine result_strcmpEq stat.terminated terminated ?_
  intro index bound
  rw [Vector.length_toList] at bound
  rw [Nat.zero_add]
  exact event.memory_eq_bytes beyond .key bound

/-- The search of `stat_upsert` finds the first row of a kind and a key. -/
theorem result_findStat
    (kind : PgEventKind)
    (rows : List Stat)
    (index : Nat) :
    (findStat (event.memory beyond) kind rows index).result =
      some (((rows.map Stat.row).findIdx? fun row =>
          row.key = (kind, cStringOf event.key.toList)).map
        (· + index)) := by
  induction rows generalizing index with
  | nil =>
      rfl
  | cons stat rest inductionHypothesis =>
      rw [findStat, List.map_cons, List.findIdx?_cons]
      have key : stat.row.key = (stat.kind, stat.string) := rfl
      have shifted :
          ((rest.map Stat.row).findIdx? fun row =>
              row.key = (kind, cStringOf event.key.toList)).map
            (· + (index + 1)) =
          (((rest.map Stat.row).findIdx? fun row =>
              row.key = (kind, cStringOf event.key.toList)).map
                (· + 1)).map (· + index) := by
        rw [Option.map_map]
        refine congrArg (fun shift => Option.map shift _) (funext ?_)
        intro position
        simp only [Function.comp]
        omega
      by_cases sameKind : stat.kind = kind
      · rw [if_pos sameKind,
          Traced.result_bind_eq_some (result_strcmpEq_key terminated stat)]
        by_cases sameKey : stat.string = cStringOf event.key.toList
        · simp [key, sameKind, sameKey]
        · simp only [key, sameKind, sameKey, Prod.mk.injEq, and_false,
            decide_false, Bool.false_eq_true, ↓reduceIte]
          rw [inductionHypothesis, shifted]
      · simp only [key, sameKind, Prod.mk.injEq, false_and, decide_false,
          Bool.false_eq_true, ↓reduceIte]
        rw [inductionHypothesis, shifted]

end Search

/-- The string an array holds has no NUL in it. -/
theorem zero_not_mem_cStringOf (array : List UInt8) :
    0 ∉ cStringOf array := by
  intro member
  have kept := List.mem_takeWhile_imp member
  simp at kept

/-- A string inside an array is shorter than the array. -/
theorem length_cStringOf_lt
    {width : Nat}
    {array : Vector UInt8 width}
    (terminated : 0 ∈ array.toList) :
    (cStringOf array.toList).length < width := by
  have split :
      (cStringOf array.toList).length +
          (array.toList.dropWhile (· ≠ 0)).length = width := by
    rw [← List.length_append, cStringOf, List.takeWhile_append_dropWhile,
      Vector.length_toList]
  have rest : array.toList.dropWhile (· ≠ 0) ≠ [] := by
    intro empty
    have all := List.dropWhile_eq_nil_iff.mp empty 0 terminated
    exact absurd rfl (of_decide_eq_true all)
  have positive := List.length_pos_iff.mpr rest
  omega

/-- Updating a row takes in one more sample of its key. -/
theorem Stat.row_update
    {stat : Stat}
    {sample : Sample}
    (same : stat.row.key = (sample.kind, sample.key))
    (touched : stat.kind = .gauge → stat.touchedGauge = true) :
    (stat.update sample.num (decide (sample.kind = .counter))).row =
        stat.row.next sample ∧
      ((stat.update sample.num (decide (sample.kind = .counter))).kind =
          .gauge →
        (stat.update sample.num
          (decide (sample.kind = .counter))).touchedGauge = true) := by
  have kind : stat.kind = sample.kind := congrArg Prod.fst same
  by_cases gauge : stat.kind = .gauge
  · have notCounter : sample.kind ≠ .counter := by
      rw [← kind, gauge]
      decide
    simp [Stat.update, Stat.row, Stat.string, StatRow.next, gauge,
      touched gauge, notCounter]
  · simp [Stat.update, Stat.row, Stat.string, StatRow.next, gauge, ← kind]

/-- Inserting a key that fits makes the first row of it. -/
theorem Stat.row_insert
    {sample : Sample}
    (stat : Stat)
    (clean : 0 ∉ sample.key)
    (fits : sample.key.length < pgEventKeyLen) :
    (stat.insert sample.key sample.num sample.kind).row =
        .first sample ∧
      ((stat.insert sample.key sample.num sample.kind).kind = .gauge →
        (stat.insert sample.key sample.num
          sample.kind).touchedGauge = true) := by
  have named :
      cStringOf (snprintfInto stat.key sample.key).toList =
        sample.key := by
    rw [cStringOf, takeWhile_snprintfInto (by decide) stat.key clean]
    exact List.take_of_length_le (Nat.le_pred_of_lt fits)
  by_cases gauge : sample.kind = .gauge
  · simp [Stat.insert, Stat.row, Stat.string, StatRow.first, gauge, named]
  · simp [Stat.insert, Stat.row, Stat.string, StatRow.first, gauge, named]

namespace Stats

variable {stats : Stats} {table : List StatRow}

/-- A row in use is where the table has it. -/
theorem getElem?_used
    {index : Nat}
    (bound : index < stats.count) :
    stats.used[index]? = stats.rows[index]? := by
  rw [used, List.getElem?_take_of_lt bound, Vector.getElem?_toList]

/-- Rewriting a row in use. -/
theorem used_set (index : Nat) (stat : Stat) :
    used { stats with rows := stats.rows.setIfInBounds index stat } =
      stats.used.set index stat := by
  simp only [used, Vector.toList_setIfInBounds, List.take_set]

/-- Taking the first unused row into use. -/
theorem used_push
    (room : stats.count < statsMax)
    (stat : Stat) :
    used {
        rows := stats.rows.setIfInBounds stats.count stat
        count := stats.count + 1 } =
      stats.used ++ [stat] := by
  have bound : stats.count < stats.rows.toList.length := by
    rw [Vector.length_toList]
    exact room
  simp only [used, Vector.toList_setIfInBounds]
  rw [List.take_add_one, List.getElem?_set_self bound, List.take_set,
    List.set_eq_of_length_le]
  · rfl
  · rw [List.length_take]
    exact Nat.min_le_left _ _

/-- As many rows are shown as are in use. -/
theorem Shows.length
    (shows : stats.Shows table) :
    table.length = stats.count := by
  rw [← shows.rows, List.length_map, used, List.length_take,
    Vector.length_toList]
  exact Nat.min_eq_left shows.bounded

/-- A row found and updated shows the sample taken in. -/
theorem Shows.updated
    {sample : Sample}
    {index : Nat}
    {stat : Stat}
    (shows : stats.Shows table)
    (here : stats.used[index]? = some stat)
    (same : stat.row.key = (sample.kind, sample.key)) :
    Shows
      { stats with
        rows := stats.rows.setIfInBounds index
          (stat.update sample.num (decide (sample.kind = .counter))) }
      (table.modify index fun row => row.next sample) := by
  have member : stat ∈ stats.used := List.mem_of_getElem? here
  obtain ⟨updated, touched⟩ :=
    Stat.row_update same (shows.touched stat member)
  refine ⟨?_, fun other held => ?_, shows.bounded⟩
  · rw [used_set, List.map_set, updated, ← shows.rows]
    apply List.ext_getElem?
    intro position
    rw [List.getElem?_set, List.getElem?_modify, List.getElem?_map]
    by_cases there : index = position
    · subst there
      obtain ⟨bound, entry⟩ := List.getElem?_eq_some_iff.mp here
      simp [bound, entry]
    · simp [there]
  · rw [used_set] at held
    rcases List.mem_or_eq_of_mem_set held with old | rfl
    · exact shows.touched other old
    · exact touched

/-- A row appended shows the first sample of its key. -/
theorem Shows.inserted
    (shows : stats.Shows table)
    (sample : Sample)
    (stat : Stat)
    (room : stats.count < statsMax)
    (clean : 0 ∉ sample.key)
    (fits : sample.key.length < pgEventKeyLen) :
    Shows
      { rows := stats.rows.setIfInBounds stats.count
          (stat.insert sample.key sample.num sample.kind)
        count := stats.count + 1 }
      (table ++ [.first sample]) := by
  obtain ⟨inserted, touched⟩ :=
    Stat.row_insert stat clean fits
  refine ⟨?_, fun other held => ?_, room⟩
  · rw [used_push room, List.map_append, shows.rows, List.map_singleton,
      inserted]
  · rw [used_push room] at held
    rcases List.mem_append.mp held with old | new
    · exact shows.touched other old
    · obtain rfl := List.mem_singleton.mp new
      exact touched

/-- The entry in use that shows a row. -/
theorem Shows.exists_stat
    (shows : stats.Shows table)
    {index : Nat}
    (bound : index < table.length) :
    ∃ stat,
      stats.used[index]? = some stat ∧
        stats.rows[index]? = some stat ∧
        stat.row = table[index] := by
  have length := shows.length
  have inUse : index < stats.count := by omega
  have row :
      (stats.used.map Stat.row)[index]? = some table[index] := by
    rw [shows.rows]
    exact List.getElem?_eq_getElem bound
  rw [List.getElem?_map, Option.map_eq_some_iff] at row
  obtain ⟨stat, here, shown⟩ := row
  refine ⟨stat, here, ?_, shown⟩
  rw [← getElem?_used inUse]
  exact here

/-- `stat_upsert` takes in one sample, as long as there is room for it. -/
theorem Shows.upsert
    {event : PgEvent}
    {beyond : Nat → UInt8}
    {fuel : Nat}
    (shows : stats.Shows table)
    (terminated : 0 ∈ event.key.toList)
    (enough : pgEventKeyLen ≤ fuel)
    (kind : PgEventKind)
    (room :
      (statRules.receive table
        ⟨kind, cStringOf event.key.toList, event.num⟩).length ≤
          statsMax) :
    ∃ next,
      (statUpsert (event.memory beyond) fuel stats event.num kind
          (decide (kind = .counter))).result = some next ∧
        next.Shows
          (statRules.receive table
            ⟨kind, cStringOf event.key.toList, event.num⟩) := by
  have searched :
      (findStat (event.memory beyond) kind
          (stats.rows.toList.take stats.count) 0).result =
        some ((table.findIdx? fun row =>
          row.key = (kind, cStringOf event.key.toList)).map (· + 0)) := by
    rw [← shows.rows]
    exact result_findStat terminated kind stats.used 0
  have length := shows.length
  unfold statUpsert
  rw [Traced.result_bind_eq_some searched]
  unfold KeyedTable.Rules.receive at room ⊢
  cases found :
      table.findIdx? fun row =>
        statRules.rowKey row =
          statRules.keyOf
            ⟨kind, cStringOf event.key.toList, event.num⟩ with
  | some index =>
      obtain ⟨bound, same, _⟩ := List.findIdx?_eq_some_iff_getElem.mp found
      obtain ⟨stat, here, held, shown⟩ := shows.exists_stat bound
      have sameKey :
          stat.row.key = (kind, cStringOf event.key.toList) := by
        rw [shown]
        exact of_decide_eq_true same
      have sameRow :
          table.findIdx? (fun row =>
            row.key = (kind, cStringOf event.key.toList)) = some index :=
        found
      refine ⟨_, ?_, shows.updated here sameKey⟩
      simp only [sameRow, Option.map_some, Nat.add_zero, held]
      exact rfl
  | none =>
      rw [found] at room
      simp only [List.length_append, List.length_singleton] at room
      have unfound :
          table.findIdx? (fun row =>
            row.key = (kind, cStringOf event.key.toList)) = none :=
        found
      have free : stats.count < statsMax := by omega
      have fits : (cStringOf event.key.toList).length < pgEventKeyLen :=
        length_cStringOf_lt terminated
      have slot : stats.rows[stats.count]? = some stats.rows[stats.count] :=
        Vector.getElem?_eq_getElem free
      have read :
          (cString (event.memory beyond) .key fuel 0).result =
            some (cStringOf event.key.toList) :=
        event.result_cString_memory beyond .key terminated enough
      refine ⟨_, ?_, shows.inserted
        ⟨kind, cStringOf event.key.toList, event.num⟩
        stats.rows[stats.count] free (zero_not_mem_cStringOf _) fits⟩
      simp only [unfound, Option.map_none, slot]
      rw [Traced.result_bind_eq_some read]
      exact rfl

/-- An event without a sample leaves the table alone. -/
theorem statStep?_other
    {received : Received}
    (other : received.event.sample? = none)
    (fuel : Nat)
    (stats : Stats) :
    statStep? fuel stats received = some stats := by
  unfold PgEvent.sample? at other
  unfold statStep? upsertEvent
  cases found : PgEventKind.ofCode? received.event.kind with
  | none =>
      exact rfl
  | some kind =>
      rw [found] at other
      cases kind with
      | counter | gauge | expect | actual =>
          simp [PgEventKind.isStat] at other
      | log | phase | sutFault | done | childCrash | watchdog =>
          exact rfl

/-- An event with a sample has it taken in. -/
theorem Shows.step
    {received : Received}
    {sample : Sample}
    {fuel : Nat}
    (shows : stats.Shows table)
    (sampled : received.event.sample? = some sample)
    (terminated : 0 ∈ received.event.key.toList)
    (enough : pgEventKeyLen ≤ fuel)
    (room : (statRules.receive table sample).length ≤ statsMax) :
    ∃ next,
      statStep? fuel stats received = some next ∧
        next.Shows (statRules.receive table sample) := by
  unfold PgEvent.sample? at sampled
  unfold statStep? upsertEvent
  cases found : PgEventKind.ofCode? received.event.kind with
  | none =>
      rw [found] at sampled
      simp at sampled
  | some kind =>
      rw [found] at sampled
      cases kind with
      | counter | gauge | expect | actual =>
          simp only [PgEventKind.isStat, ↓reduceIte,
            Option.some.injEq] at sampled
          subst sampled
          exact shows.upsert terminated enough _ room
      | log | phase | sutFault | done | childCrash | watchdog =>
          simp [PgEventKind.isStat] at sampled

/-- A sequence of events has its samples taken in, one after another. -/
theorem Shows.run
    {events : List Received}
    {fuel : Nat}
    (shows : stats.Shows table)
    (terminated :
      ∀ received ∈ events,
        received.event.sample?.isSome = true →
          0 ∈ received.event.key.toList)
    (enough : pgEventKeyLen ≤ fuel)
    (room :
      ((samplesOf events).foldl statRules.receive table).length ≤
        statsMax) :
    ∃ final,
      Transition.run? (statStep? fuel) stats events = some final ∧
        final.Shows
          ((samplesOf events).foldl statRules.receive table) := by
  induction events generalizing stats table with
  | nil =>
      exact ⟨stats, rfl, shows⟩
  | cons received rest inductionHypothesis =>
      have later :
          ∀ other ∈ rest,
            other.event.sample?.isSome = true →
              0 ∈ other.event.key.toList :=
        fun other member =>
          terminated other (List.mem_cons_of_mem received member)
      cases sampled : received.event.sample? with
      | none =>
          have same : samplesOf (received :: rest) = samplesOf rest := by
            simp [samplesOf, sampled]
          rw [same] at room ⊢
          obtain ⟨final, ran, shown⟩ :=
            inductionHypothesis shows later room
          exact ⟨final,
            Transition.run?_cons_eq_some.mpr
              ⟨stats, statStep?_other sampled fuel stats, ran⟩,
            shown⟩
      | some sample =>
          have more :
              samplesOf (received :: rest) =
                sample :: samplesOf rest := by
            simp [samplesOf, sampled]
          rw [more, List.foldl_cons] at room ⊢
          have roomHere :
              (statRules.receive table sample).length ≤ statsMax :=
            Nat.le_trans
              (KeyedTable.Rules.length_foldl_receive _ _) room
          obtain ⟨next, stepped, shownNext⟩ :=
            shows.step sampled
              (terminated received List.mem_cons_self
                (by rw [sampled]; rfl))
              enough roomHere
          obtain ⟨final, ran, shown⟩ :=
            inductionHypothesis shownNext later room
          exact ⟨final,
            Transition.run?_cons_eq_some.mpr ⟨next, stepped, ran⟩,
            shown⟩

end Stats

/-- What the samples of one key make of its row. -/
structure RowSpec (samples : List Sample) (row : StatRow) : Prop where
  counter :
    row.key.1 = .counter →
      row.value =
        Int64.ofInt ((samples.map fun sample => sample.num.toInt).sum)
  latest :
    row.key.1 ≠ .counter →
      (samples.map Sample.num).getLast? = some row.value
  gauge :
    row.key.1 = .gauge →
      ∃ low high,
        row.range = some (low, high) ∧
          (low ∈ samples.map Sample.num ∧
            ∀ v ∈ samples.map Sample.num, low ≤ v) ∧
          (high ∈ samples.map Sample.num ∧
            ∀ v ∈ samples.map Sample.num, v ≤ high)

/-- The first sample of a key makes its row. -/
theorem RowSpec.first (sample : Sample) :
    RowSpec [sample] (.first sample) where
  counter _ := by simp [StatRow.first]
  latest _ := rfl
  gauge := by
    intro gauge
    have kind : sample.kind = .gauge := gauge
    exact ⟨sample.num, sample.num, by simp [StatRow.first, kind],
      by simp, by simp⟩

/-- One more sample of a key keeps its row to the specification. -/
theorem RowSpec.next
    {samples : List Sample}
    {row : StatRow}
    {sample : Sample}
    (spec : RowSpec samples row) :
    RowSpec (samples ++ [sample]) (row.next sample) where
  counter := by
    intro counter
    have kind : row.key.1 = .counter := counter
    simp [StatRow.next, kind, spec.counter kind]
  latest := by
    intro other
    have kind : row.key.1 ≠ .counter := other
    simp [StatRow.next, kind]
  gauge := by
    intro gauge
    obtain ⟨low, high, range, ⟨lowMember, lowest⟩, highMember, highest⟩ :=
      spec.gauge gauge
    refine ⟨if sample.num < low then sample.num else low,
      if high < sample.num then sample.num else high,
      by simp [StatRow.next, range], ⟨?_, ?_⟩, ?_, ?_⟩
    · rw [List.map_append]
      split
      · exact List.mem_append_right _ (List.mem_singleton.mpr rfl)
      · exact List.mem_append_left _ lowMember
    · intro v member
      rw [List.map_append] at member
      rcases List.mem_append.mp member with old | new
      · split
        · rename_i lower
          exact Int64.le_trans (Int64.le_of_lt lower) (lowest v old)
        · exact lowest v old
      · obtain rfl := List.mem_singleton.mp new
        split
        · exact Int64.le_refl _
        · rename_i notLower
          exact Int64.not_lt.mp notLower
    · rw [List.map_append]
      split
      · exact List.mem_append_right _ (List.mem_singleton.mpr rfl)
      · exact List.mem_append_left _ highMember
    · intro v member
      rw [List.map_append] at member
      rcases List.mem_append.mp member with old | new
      · split
        · rename_i higher
          exact Int64.le_trans (highest v old) (Int64.le_of_lt higher)
        · exact highest v old
      · obtain rfl := List.mem_singleton.mp new
        split
        · exact Int64.le_refl _
        · rename_i notHigher
          exact Int64.not_lt.mp notHigher

/-- The rows of a collected table meet their specification. -/
theorem rowSpec_of_collected
    {samples : List Sample}
    {table : List StatRow}
    (collected : statRules.Collected samples table)
    {row : StatRow}
    (member : row ∈ table) :
    RowSpec (statRules.ofKey samples row.key) row := by
  refine KeyedTable.Rules.collect_induction RowSpec.first
    (fun samples row sample spec _ => spec.next)
    (collected.rows row member) ?_
  intro sample held
  exact of_decide_eq_true (List.mem_filter.mp held).2

/-- A table that shows what was collected meets its specification. -/
theorem Stats.Shows.tableSpec
    {stats : Stats}
    {table : List StatRow}
    {samples : List Sample}
    (shows : stats.Shows table)
    (collected : statRules.Collected samples table) :
    TableSpec samples stats := by
  have rowSpec :
      ∀ stat ∈ stats.used,
        RowSpec (statRules.ofKey samples (stat.kind, stat.string))
          stat.row := by
    intro stat member
    have shown : stat.row ∈ table := by
      rw [← shows.rows]
      exact List.mem_map_of_mem member
    exact rowSpec_of_collected collected shown
  constructor
  · have keyed := collected.keyed
    rw [← shows.rows, List.map_map] at keyed
    exact keyed
  · intro stat member counter
    have value := (rowSpec stat member).counter counter
    rw [valuesOf, List.map_map]
    exact value
  · intro stat member other
    exact (rowSpec stat member).latest other
  · intro stat member gauge
    obtain ⟨low, high, range, least, greatest⟩ :=
      (rowSpec stat member).gauge gauge
    simp only [Stat.row, gauge, ↓reduceIte, Option.some.injEq,
      Prod.mk.injEq] at range
    obtain ⟨rfl, rfl⟩ := range
    exact ⟨least, greatest⟩

end FailurePlayground
