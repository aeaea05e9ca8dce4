import Mathlib.Data.List.Induction
import Mathlib.Data.List.Nodup

namespace FailurePlayground.KeyedTable

/-!
# Tables that collect samples by key

A table keeps one row for every key it has met.  A sample of a known key
changes the row found first, and a sample of a new key appends a row.  What
such a table holds after any number of samples is, for each key in order of
first appearance, the fold of that key's samples alone.
-/

universe u v w

variable
  {Key : Type u}
  {Sample : Type v}
  {Row : Type w}
  [DecidableEq Key]

/-- How samples and rows are keyed, and what a sample makes of a row. -/
structure Rules (Key : Type u) (Sample : Type v) (Row : Type w) where
  keyOf : Sample → Key
  rowKey : Row → Key
  first : Sample → Row
  next : Row → Sample → Row
  rowKey_first : ∀ sample, rowKey (first sample) = keyOf sample
  rowKey_next : ∀ row sample, rowKey (next row sample) = rowKey row

namespace Rules

variable (rules : Rules Key Sample Row)

/-- The samples of one key. -/
def ofKey (samples : List Sample) (key : Key) : List Sample :=
  samples.filter fun sample => rules.keyOf sample = key

/-- The row that the samples of one key make. -/
def collect : List Sample → Option Row
  | [] => none
  | sample :: rest => some (rest.foldl rules.next (rules.first sample))

/-- Take in one sample. -/
def receive (table : List Row) (sample : Sample) : List Row :=
  match table.findIdx? fun row =>
      rules.rowKey row = rules.keyOf sample with
  | some index =>
      table.modify index fun row => rules.next row sample
  | none =>
      table ++ [rules.first sample]

/-- The keys met, in order of first appearance. -/
def keys (samples : List Sample) : List Key :=
  (samples.map rules.keyOf).eraseDups

/-- A table holds one row for each key met, made by that key's samples. -/
structure Collected
    (samples : List Sample)
    (table : List Row) : Prop where
  keyed : table.map rules.rowKey = rules.keys samples
  rows :
    ∀ row ∈ table,
      rules.collect (rules.ofKey samples (rules.rowKey row)) = some row

variable {rules}

omit [DecidableEq Key] in
/-- One more sample of a key is folded in last. -/
theorem collect_append
    {samples : List Sample}
    {row : Row}
    (collected : rules.collect samples = some row)
    (sample : Sample) :
    rules.collect (samples ++ [sample]) = some (rules.next row sample) := by
  cases samples with
  | nil =>
      simp [collect] at collected
  | cons head rest =>
      simp only [collect, Option.some.injEq] at collected
      simp [collect, collected]

omit [DecidableEq Key] in
/--
What holds of the row of a key's first sample, and is kept by one more sample
of that key, holds of the row that all its samples make.
-/
theorem collect_induction
    {holds : List Sample → Row → Prop}
    (first : ∀ sample, holds [sample] (rules.first sample))
    (next :
      ∀ samples row sample,
        holds samples row →
        rules.keyOf sample = rules.rowKey row →
        holds (samples ++ [sample]) (rules.next row sample))
    {samples : List Sample}
    {row : Row}
    (collected : rules.collect samples = some row)
    (ofKey : ∀ sample ∈ samples, rules.keyOf sample = rules.rowKey row) :
    holds samples row := by
  induction samples using List.reverseRecOn generalizing row with
  | nil =>
      simp [collect] at collected
  | append_singleton samples sample inductionHypothesis =>
      cases before : rules.collect samples with
      | none =>
          cases samples with
          | nil =>
              simp only [collect, List.nil_append, List.foldl_nil,
                Option.some.injEq] at collected
              subst collected
              exact first sample
          | cons head rest =>
              simp [collect] at before
      | some earlier =>
          rw [collect_append before, Option.some.injEq] at collected
          subst collected
          rw [rules.rowKey_next] at ofKey
          refine next samples earlier sample (inductionHypothesis before ?_)
            (ofKey sample (by simp))
          intro other member
          exact ofKey other (List.mem_append_left _ member)

/-- A sample of another key is not among the samples of this one. -/
theorem ofKey_append
    (samples : List Sample)
    (sample : Sample)
    (key : Key) :
    rules.ofKey (samples ++ [sample]) key =
      if rules.keyOf sample = key then
        rules.ofKey samples key ++ [sample]
      else
        rules.ofKey samples key := by
  unfold ofKey
  by_cases same : rules.keyOf sample = key
  · simp [same]
  · simp [same]

/-- The keys listed are those of the samples. -/
theorem mem_keys
    {samples : List Sample}
    {key : Key} :
    key ∈ rules.keys samples ↔
      ∃ sample ∈ samples, rules.keyOf sample = key := by
  rw [keys, List.mem_eraseDups, List.mem_map]

/-- A key that is not listed has no samples. -/
theorem ofKey_eq_nil
    {samples : List Sample}
    {key : Key}
    (unmet : key ∉ rules.keys samples) :
    rules.ofKey samples key = [] := by
  refine List.filter_eq_nil_iff.mpr fun sample member same => unmet ?_
  exact mem_keys.mpr ⟨sample, member, of_decide_eq_true same⟩

/-- A sample of a listed key lists no new one. -/
theorem keys_append_met
    {samples : List Sample}
    {sample : Sample}
    (met : rules.keyOf sample ∈ rules.keys samples) :
    rules.keys (samples ++ [sample]) = rules.keys samples := by
  unfold keys at met ⊢
  rw [List.mem_eraseDups] at met
  rw [List.map_append, List.eraseDups_append]
  simp only [List.removeAll, List.map_cons, List.map_nil,
    List.elem_eq_mem, List.filter_cons, met, decide_true, Bool.not_true,
    Bool.false_eq_true, ↓reduceIte, List.filter_nil, List.eraseDups_nil,
    List.append_nil]

/-- A sample of an unlisted key lists it last. -/
theorem keys_append_unmet
    {samples : List Sample}
    {sample : Sample}
    (unmet : rules.keyOf sample ∉ rules.keys samples) :
    rules.keys (samples ++ [sample]) =
      rules.keys samples ++ [rules.keyOf sample] := by
  unfold keys at unmet ⊢
  rw [List.mem_eraseDups] at unmet
  rw [List.map_append, List.eraseDups_append]
  simp only [List.removeAll, List.map_cons, List.map_nil,
    List.elem_eq_mem, List.filter_cons, unmet, decide_false, Bool.not_false,
    ↓reduceIte, List.filter_nil, List.eraseDups_cons, List.eraseDups_nil]

/-- No key is listed twice. -/
theorem nodup_keys (samples : List Sample) :
    (rules.keys samples).Nodup := by
  induction samples using List.reverseRecOn with
  | nil =>
      exact List.nodup_nil
  | append_singleton samples sample inductionHypothesis =>
      by_cases met : rules.keyOf sample ∈ rules.keys samples
      · rw [keys_append_met met]
        exact inductionHypothesis
      · rw [keys_append_unmet met]
        exact List.nodup_append.mpr ⟨inductionHypothesis,
          List.nodup_singleton _, fun key listed other same => by
            obtain rfl := List.mem_singleton.mp same
            exact fun equal => met (equal ▸ listed)⟩

/-- A table never loses a row. -/
theorem length_foldl_receive
    (samples : List Sample)
    (table : List Row) :
    table.length ≤ (samples.foldl rules.receive table).length := by
  induction samples generalizing table with
  | nil =>
      exact Nat.le_refl _
  | cons sample rest inductionHypothesis =>
      refine Nat.le_trans ?_ (inductionHypothesis _)
      unfold receive
      split
      · exact Nat.le_of_eq (List.length_modify _ _ _).symm
      · rw [List.length_append]
        exact Nat.le_add_right _ _

/-- The empty table has collected nothing. -/
theorem collected_nil : rules.Collected [] [] where
  keyed := rfl
  rows _ member := (List.not_mem_nil member).elim

omit [DecidableEq Key] in
/-- A changed row keeps its key. -/
theorem map_rowKey_modify
    (table : List Row)
    (index : Nat)
    (sample : Sample) :
    (table.modify index fun row => rules.next row sample).map
        rules.rowKey =
      table.map rules.rowKey := by
  apply List.ext_getElem
  · simp
  · intro position lower upper
    simp only [List.getElem_map, List.getElem_modify]
    split
    · rename_i here
      subst here
      exact rules.rowKey_next _ _
    · exact rfl

/-- Two rows of a table have different keys. -/
theorem Collected.eq_of_rowKey
    {samples : List Sample}
    {table : List Row}
    (collected : rules.Collected samples table)
    {index position : Nat}
    (here : index < table.length)
    (there : position < table.length)
    (same :
      rules.rowKey table[index] = rules.rowKey table[position]) :
    index = position := by
  have distinct : (table.map rules.rowKey).Nodup := by
    rw [collected.keyed]
    exact nodup_keys samples
  have here' : index < (table.map rules.rowKey).length := by
    rw [List.length_map]
    exact here
  have there' : position < (table.map rules.rowKey).length := by
    rw [List.length_map]
    exact there
  have keys :
      (table.map rules.rowKey)[index] =
        (table.map rules.rowKey)[position] := by
    rw [List.getElem_map, List.getElem_map, same]
  exact distinct.getElem_inj_iff.mp keys

/-- The sample of a new key appends its row. -/
theorem Collected.receive_unmet
    {samples : List Sample}
    {table : List Row}
    (collected : rules.Collected samples table)
    {sample : Sample}
    (unmet : rules.keyOf sample ∉ rules.keys samples) :
    rules.Collected (samples ++ [sample])
      (table ++ [rules.first sample]) := by
  refine ⟨?_, fun row member => ?_⟩
  · rw [keys_append_unmet unmet, List.map_append, collected.keyed,
      List.map_singleton, rules.rowKey_first]
  · rw [ofKey_append]
    rcases List.mem_append.mp member with old | new
    · have other : rules.keyOf sample ≠ rules.rowKey row := by
        intro same
        refine unmet ?_
        rw [← collected.keyed, same]
        exact List.mem_map_of_mem old
      rw [if_neg other]
      exact collected.rows row old
    · obtain rfl := List.mem_singleton.mp new
      rw [rules.rowKey_first, if_pos rfl, ofKey_eq_nil unmet]
      rfl

/-- The sample of a known key changes the row of that key. -/
theorem Collected.receive_met
    {samples : List Sample}
    {table : List Row}
    (collected : rules.Collected samples table)
    {sample : Sample}
    {index : Nat}
    (bound : index < table.length)
    (sameKey : rules.rowKey table[index] = rules.keyOf sample) :
    rules.Collected (samples ++ [sample])
      (table.modify index fun row => rules.next row sample) := by
  have met : rules.keyOf sample ∈ rules.keys samples := by
    rw [← collected.keyed, ← sameKey]
    exact List.mem_map_of_mem (List.getElem_mem bound)
  refine ⟨?_, fun row member => ?_⟩
  · rw [keys_append_met met, ← collected.keyed, map_rowKey_modify]
  · obtain ⟨position, inside, rfl⟩ := List.getElem_of_mem member
    rw [List.length_modify] at inside
    rw [List.getElem_modify]
    split
    · rename_i here
      subst here
      rw [rules.rowKey_next, ofKey_append, if_pos sameKey.symm]
      exact collect_append
        (collected.rows _ (List.getElem_mem bound)) sample
    · rename_i elsewhere
      have other : rules.keyOf sample ≠ rules.rowKey table[position] := by
        intro equal
        exact elsewhere
          (collected.eq_of_rowKey bound inside (sameKey.trans equal))
      rw [ofKey_append, if_neg other]
      exact collected.rows _ (List.getElem_mem inside)

/-- A table that takes in one more sample has collected one more. -/
theorem Collected.receive
    {samples : List Sample}
    {table : List Row}
    (collected : rules.Collected samples table)
    (sample : Sample) :
    rules.Collected (samples ++ [sample])
      (rules.receive table sample) := by
  cases found :
      table.findIdx? fun row => rules.rowKey row = rules.keyOf sample with
  | none =>
      simp only [Rules.receive, found]
      apply collected.receive_unmet
      rw [← collected.keyed]
      intro listed
      obtain ⟨row, member, same⟩ := List.mem_map.mp listed
      have other := List.findIdx?_eq_none_iff.mp found row member
      simp [same] at other
  | some index =>
      obtain ⟨bound, same, _⟩ := List.findIdx?_eq_some_iff_getElem.mp found
      simp only [Rules.receive, found]
      exact collected.receive_met bound (of_decide_eq_true same)

/-- A table fed any samples has collected them. -/
theorem collected_foldl (samples : List Sample) :
    rules.Collected samples (samples.foldl rules.receive []) := by
  induction samples using List.reverseRecOn with
  | nil =>
      exact collected_nil
  | append_singleton samples sample inductionHypothesis =>
      rw [List.foldl_append]
      exact inductionHypothesis.receive sample

end Rules

end FailurePlayground.KeyedTable
