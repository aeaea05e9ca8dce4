import FailurePlayground.TornRecord
import FailurePlayground.Tui

namespace FailurePlayground

/-!
# The trust boundary of the parent

`pg_run_poll` checks `magic` and `version` and nothing else, so the bytes of
`key` and `text` are the child's.  The consumers of an accepted record stay
inside the two members exactly when those they print contain a NUL.
-/

/-- Who handles an event, with the renderings and tables it works on. -/
inductive Consumer where
  | text (tsec : UInt64 → List UInt8)
  | json
  | scenario (t : UInt64 → List UInt8) (log : Log) (stats : Stats)

namespace Consumer

/-- What the parent does with what `pg_run_poll` has read of a record. -/
def handles
    (consumer : Consumer)
    (beyond : Nat → UInt8)
    (fuel : Nat) :
    PollState → Traced StringField Unit
  | .returned (.event event) =>
      let contents := event.memory beyond
      match consumer with
      | .text tsec => do
          let _ ← textLine event contents fuel tsec
      | .json => do
          let _ ← jsonLine event contents fuel
      | .scenario t log stats => do
          let _ ← pushEvent event contents fuel t log
          let _ ← upsertEvent event contents fuel stats
  | .returned .eof | .returned .error | .returned .timeout
  | .reading _ => pure ()

end Consumer

/-- A member that contains a NUL. -/
def EndsInside
    (contents : StringField → Nat → UInt8)
    (field : StringField) : Prop :=
  Terminated contents field field.width

/-- One more than the width of each member. -/
def enoughFuel : Nat := pgEventTextLen + 1

theorem width_lt_enoughFuel (field : StringField) :
    field.width < enoughFuel := by
  cases field with
  | key =>
      decide
  | text =>
      decide

section Reads

variable
  {contents : StringField → Nat → UInt8}
  {fuel : Nat}

/-- Printing a terminated member stays inside it. -/
theorem EndsInside.within_cString
    {field : StringField}
    (ends : EndsInside contents field) :
    (cString contents field fuel 0).Within StringField.width := by
  rcases ends with ⟨stop, inside, nul⟩
  exact FailurePlayground.within_cString inside nul (Nat.zero_le stop)

/-- A line that prints both members stays inside them when both end there. -/
theorem within_bothStrings
    (ends : ∀ field, EndsInside contents field)
    (line : List UInt8 → List UInt8 → List UInt8) :
    (do
      let key ← cString contents .key fuel 0
      let text ← cString contents .text fuel 0
      pure (line key text)).Within StringField.width :=
  (ends .key).within_cString.bind fun _ =>
    (ends .text).within_cString.bind fun _ => Traced.within_pure _

/-- A line that prints both members and stays inside them finds both NULs. -/
theorem endsInside_of_within_bothStrings
    {line : List UInt8 → List UInt8 → List UInt8}
    (within :
      (do
        let key ← cString contents .key enoughFuel 0
        let text ← cString contents .text enoughFuel 0
        pure (line key text)).Within StringField.width)
    (field : StringField) :
    EndsInside contents field := by
  rcases Traced.within_bind_iff.mp within with ⟨keyWithin, textWithin⟩
  have keyEnds : EndsInside contents .key :=
    (within_cString_iff (width_lt_enoughFuel .key)).mp keyWithin
  cases field with
  | key =>
      exact keyEnds
  | text =>
      rcases keyEnds with ⟨stop, inside, nul⟩
      have bound := width_lt_enoughFuel .key
      rcases exists_result_cString nul (Nat.zero_le stop)
          (show stop < 0 + enoughFuel by omega) with ⟨key, read⟩
      have within := (Traced.within_bind_iff.mp (textWithin key read)).1
      exact (within_cString_iff (width_lt_enoughFuel .text)).mp within

/-- A format stays inside the member it prints when that ends there. -/
theorem within_formatString
    {before after : List UInt8}
    {field : StringField}
    (ends : EndsInside contents field) :
    (formatString contents fuel before field after).Within
      StringField.width :=
  ends.within_cString.bind fun _ => Traced.within_pure _

/-- A format that stays inside the member it prints finds its NUL. -/
theorem endsInside_of_within_formatString
    {before after : List UInt8}
    {field : StringField}
    (within :
      (formatString contents enoughFuel before field after).Within
        StringField.width) :
    EndsInside contents field :=
  (within_cString_iff (width_lt_enoughFuel field)).mp
    (Traced.within_bind_iff.mp within).1

/-- The member whose string `push_event` prints for a kind. -/
def printedField? (kind : UInt32) : Option StringField :=
  match PgEventKind.ofCode? kind with
  | some .log | some .phase | some .sutFault | some .childCrash
  | some .watchdog => some .text
  | some .counter | some .gauge | some .expect | some .actual => some .key
  | some .done | none => none

/-- `push_event` prints one member at most. -/
theorem eventMessage_cases
    (event : PgEvent)
    (contents : StringField → Nat → UInt8)
    (fuel : Nat) :
    (∃ before field after,
      printedField? event.kind = some field ∧
        eventMessage event contents fuel =
          formatString contents fuel before field after) ∨
      ∃ message,
        printedField? event.kind = none ∧
          eventMessage event contents fuel = pure message := by
  unfold printedField? eventMessage
  cases PgEventKind.ofCode? event.kind with
  | none =>
      exact Or.inr ⟨_, rfl, rfl⟩
  | some kind =>
      cases kind with
      | log | phase | counter | gauge | expect | actual | sutFault
      | childCrash | watchdog =>
          exact Or.inl ⟨_, _, _, rfl, rfl⟩
      | done =>
          exact Or.inr ⟨_, rfl, rfl⟩

/-- The search of `stat_upsert` reads no further than its own rows' keys. -/
theorem within_findStat
    (kind : PgEventKind)
    (rows : List Stat)
    (index : Nat) :
    (findStat contents kind rows index).Within StringField.width := by
  induction rows generalizing index with
  | nil =>
      exact Traced.within_pure _
  | cons stat rest inductionHypothesis =>
      rw [findStat]
      split
      · refine Traced.Within.bind (within_strcmpEq ?_) fun equal => ?_
        · rw [Nat.zero_add, Vector.length_toList]
          exact Nat.le_refl _
        · cases equal with
          | true =>
              exact Traced.within_pure _
          | false =>
              exact inductionHypothesis (index + 1)
      · exact inductionHypothesis (index + 1)

/-- `stat_upsert` stays inside a terminated key. -/
theorem within_statUpsert
    (ends : EndsInside contents .key)
    (stats : Stats)
    (v : Int64)
    (kind : PgEventKind)
    (delta : Bool) :
    (statUpsert contents fuel stats v kind delta).Within
      StringField.width := by
  refine (within_findStat kind _ 0).bind fun found => ?_
  cases found with
  | some index =>
      simp only
      split
      · exact Traced.within_pure _
      · exact Traced.within_pure _
  | none =>
      simp only
      split
      · exact ends.within_cString.bind fun _ => Traced.within_pure _
      · exact Traced.within_pure _

/-- The table stays inside the key whenever `push_event` prints it. -/
theorem within_upsertEvent
    {event : PgEvent}
    (ends :
      ∀ field, printedField? event.kind = some field →
        EndsInside contents field)
    (stats : Stats) :
    (upsertEvent event contents fuel stats).Within StringField.width := by
  unfold upsertEvent
  unfold printedField? at ends
  cases found : PgEventKind.ofCode? event.kind with
  | none =>
      exact Traced.within_pure _
  | some kind =>
      rw [found] at ends
      cases kind with
      | counter | gauge | expect | actual =>
          exact within_statUpsert (ends .key rfl) _ _ _ _
      | log | phase | sutFault | done | childCrash | watchdog =>
          exact Traced.within_pure _

end Reads

namespace Consumer

/-- Whether a consumer reads a member of an event as a string. -/
def prints
    (consumer : Consumer)
    (event : PgEvent)
    (field : StringField) : Prop :=
  match consumer with
  | .text _ | .json => True
  | .scenario _ _ _ => printedField? event.kind = some field

/-- What a consumer does with an event stays inside terminated members. -/
theorem within_handles
    {consumer : Consumer}
    {event : PgEvent}
    {beyond : Nat → UInt8}
    {fuel : Nat}
    (ends :
      ∀ field, consumer.prints event field →
        EndsInside (event.memory beyond) field) :
    (consumer.handles beyond fuel (.returned (.event event))).Within
      StringField.width := by
  cases consumer with
  | text tsec =>
      exact (within_bothStrings (fun field => ends field trivial) _).bind
        fun _ => Traced.within_pure _
  | json =>
      simp only [handles, jsonLine_eq]
      exact (within_bothStrings (fun field => ends field trivial) _).bind
        fun _ => Traced.within_pure _
  | scenario t log stats =>
      have message :
          (eventMessage event (event.memory beyond) fuel).Within
            StringField.width := by
        rcases eventMessage_cases event (event.memory beyond) fuel with
          ⟨before, field, after, printed, same⟩ | ⟨message, _, same⟩
        · rw [same]
          exact within_formatString (ends field printed)
        · rw [same]
          exact Traced.within_pure _
      exact (message.bind fun _ => Traced.within_pure _).bind fun _ =>
        (within_upsertEvent ends stats).bind fun _ =>
          Traced.within_pure _

/-- A consumer that stays inside finds the NUL of what it prints. -/
theorem endsInside_of_within_handles
    {consumer : Consumer}
    {event : PgEvent}
    {beyond : Nat → UInt8}
    (within :
      (consumer.handles beyond enoughFuel
        (.returned (.event event))).Within StringField.width)
    {field : StringField}
    (printed : consumer.prints event field) :
    EndsInside (event.memory beyond) field := by
  cases consumer with
  | text tsec =>
      exact endsInside_of_within_bothStrings
        (Traced.within_bind_iff.mp within).1 field
  | json =>
      simp only [handles, jsonLine_eq] at within
      exact endsInside_of_within_bothStrings
        (Traced.within_bind_iff.mp within).1 field
  | scenario t log stats =>
      have pushed := (Traced.within_bind_iff.mp within).1
      have message := (Traced.within_bind_iff.mp pushed).1
      rcases eventMessage_cases event (event.memory beyond) enoughFuel with
        ⟨before, other, after, shown, same⟩ | ⟨_, none, _⟩
      · have agrees : other = field :=
          Option.some.inj (shown.symm.trans printed)
        rw [same, agrees] at message
        exact endsInside_of_within_formatString message
      · exact absurd (none.symm.trans printed) (by simp)

end Consumer

/--
Whatever 256 bytes `pg_run_poll` has read, a consumer reads `key` and `text`
within their bounds exactly when, should the header be accepted, every member
it prints contains a NUL.
-/
theorem trustBoundary_exact
    (consumer : Consumer)
    (beyond : Nat → UInt8)
    (got chunk : List UInt8)
    (full : (got ++ chunk).length = pgEventSize) :
    (∀ fuel,
      (consumer.handles beyond fuel
        (pgRunPollIteration got (.bytes chunk))).Within
          StringField.width) ↔
      (headerAccepted (PgEvent.decode (got ++ chunk)) = true →
        ∀ field,
          consumer.prints (PgEvent.decode (got ++ chunk)) field →
          0 ∈ PgEvent.field (got ++ chunk) field.offset field.width) := by
  rw [EventPipe.pgRunPollIteration_full (by omega), EventPipe.pollWindow]
  cases accepted : headerAccepted (PgEvent.decode (got ++ chunk)) with
  | false =>
      exact iff_of_true (fun fuel => Traced.within_pure _)
        (fun accepts => absurd accepts Bool.false_ne_true)
  | true =>
      have nul :
          ∀ field,
            EndsInside
                ((PgEvent.decode (got ++ chunk)).memory beyond) field ↔
              0 ∈ PgEvent.field (got ++ chunk) field.offset
                field.width := by
        intro field
        rw [EndsInside, PgEvent.terminated_memory_iff,
          field.bytes_eq_field, PgEvent.encode_decode full]
      constructor
      · intro within _ field printed
        exact (nul field).mp
          (Consumer.endsInside_of_within_handles (within enoughFuel)
            printed)
      · intro ends fuel
        exact Consumer.within_handles fun field printed =>
          (nul field).mpr (ends rfl field printed)

/-- A log record whose text fills its 192 bytes without a NUL. -/
def unterminatedLog : PgEvent :=
  { PgEvent.ofKind .log with
    magic := pgEventMagic
    version := pgEventVersion
    text := Vector.replicate pgEventTextLen 65 }

/-- The same record with a short text. -/
def terminatedLog : PgEvent :=
  { unterminatedLog with
    text := cArray pgEventTextLen (Bytes.ascii "ok") }

theorem trustBoundary_exact_terminated :
    pgRunPollIteration [] (.bytes terminatedLog.encode) =
        .returned (.event terminatedLog) ∧
      ∀ fuel,
        (Consumer.json.handles (fun _ => 65) fuel
          (pgRunPollIteration [] (.bytes terminatedLog.encode))).Within
            StringField.width := by
  have full : ([] ++ terminatedLog.encode).length = pgEventSize := by
    rw [List.nil_append, PgEvent.length_encode]
  refine ⟨pgRunPollIteration_record (List.nil_append _) (by decide),
    (trustBoundary_exact .json _ [] _ full).mpr fun _ field _ => ?_⟩
  rw [List.nil_append]
  cases field with
  | key =>
      decide +kernel
  | text =>
      decide +kernel

/--
`pg_run_poll` accepts that record, and every consumer that prints its text
reads on past the 192 bytes: `run_headless` in both modes and `push_event`.
-/
theorem reads_past_text :
    pgRunPollIteration [] (.bytes unterminatedLog.encode) =
        .returned (.event unterminatedLog) ∧
      (∀ consumer : Consumer, consumer.prints unterminatedLog .text) ∧
      ∀ (consumer : Consumer) (beyond : Nat → UInt8),
        ¬ (consumer.handles beyond enoughFuel
          (.returned (.event unterminatedLog))).Within
            StringField.width := by
  have prints :
      ∀ consumer : Consumer, consumer.prints unterminatedLog .text := by
    intro consumer
    cases consumer with
    | text _ | json =>
        trivial
    | scenario _ _ _ =>
        rfl
  refine ⟨pgRunPollIteration_record (List.nil_append _) (by decide),
    prints, fun consumer beyond within => ?_⟩
  have ends :=
    consumer.endsInside_of_within_handles within (prints consumer)
  rw [EndsInside, PgEvent.terminated_memory_iff] at ends
  exact absurd ends (by decide +kernel)

end FailurePlayground
