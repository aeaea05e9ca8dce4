import FailurePlayground.Headless

namespace FailurePlayground

/-!
# What the TUI does with an event

`push_event` formats a line for the ring of log lines, and `run_scenario`
keeps a table of the last values with `stat_upsert`.
-/

/-- The color pairs. -/
inductive ColorPair where
  | normal
  | chaos
  | fault
  | header
  | dim
  | select
  | bar
  | match
  | miss
  deriving Repr, DecidableEq

/-- `style_t`; the only attribute in use is `A_BOLD`. -/
structure Style where
  cp : ColorPair
  bold : Bool
  deriving Repr, DecidableEq

/-- `style_for`. -/
def styleFor (kind : UInt32) : Style :=
  match PgEventKind.ofCode? kind with
  | some .log => { cp := .normal, bold := false }
  | some .phase => { cp := .header, bold := true }
  | some .counter => { cp := .dim, bold := false }
  | some .gauge => { cp := .dim, bold := false }
  | some .expect => { cp := .chaos, bold := false }
  | some .actual => { cp := .chaos, bold := true }
  | some .sutFault => { cp := .fault, bold := true }
  | some .childCrash => { cp := .fault, bold := true }
  | some .watchdog => { cp := .fault, bold := true }
  | some .done => { cp := .normal, bold := true }
  | none => { cp := .normal, bold := false }

section Log

def logLines : Nat := 512
def logLineLen : Nat := 256

/-- `log_entry_t`, with the string its array holds. -/
structure LogEntry where
  text : List UInt8
  style : Style
  deriving Repr, DecidableEq

/-- `g_log` and `g_log_count`. -/
structure Log where
  entries : Vector LogEntry logLines
  count : UInt32

/-- `log_pushf` of a formatted line. -/
def Log.pushf (log : Log) (style : Style) (line : List UInt8) : Log where
  entries :=
    log.entries.setIfInBounds (log.count.toNat % logLines)
      { text := line.take (logLineLen - 1), style := style }
  count := log.count + 1

end Log

section Stats

def statsMax : Nat := 64

/-- `stat_t`; the key is always a terminated string. -/
structure Stat where
  key : Vector UInt8 pgEventKeyLen
  value : Int64
  gaugeMin : Int64
  gaugeMax : Int64
  touchedGauge : Bool
  kind : PgEventKind
  terminated : 0 ∈ key.toList

/-- `g_stats` and `g_stats_n`. -/
structure Stats where
  rows : Vector Stat statsMax
  count : Nat

/-- What `stat_upsert` does with a row of the kind and key it looks for. -/
def Stat.update (stat : Stat) (v : Int64) (delta : Bool) : Stat :=
  let value := if delta then stat.value + v else v
  if stat.kind = .gauge then
    { stat with
      value := value
      gaugeMin :=
        if ¬ stat.touchedGauge ∨ v < stat.gaugeMin then
          v
        else
          stat.gaugeMin
      gaugeMax :=
        if ¬ stat.touchedGauge ∨ stat.gaugeMax < v then
          v
        else
          stat.gaugeMax
      touchedGauge := true }
  else
    { stat with value := value }

/-- What `stat_upsert` makes of the first unused row. -/
def Stat.insert
    (stat : Stat)
    (key : List UInt8)
    (v : Int64)
    (kind : PgEventKind) : Stat :=
  let named : Stat :=
    { stat with
      key := snprintfInto stat.key key
      terminated := zero_mem_snprintfInto (by decide) stat.key key
      value := v
      kind := kind }
  if kind = .gauge then
    { named with gaugeMin := v, gaugeMax := v, touchedGauge := true }
  else
    named

variable (contents : StringField → Nat → UInt8)

/-- The search loop of `stat_upsert`, over the rows from an index on. -/
def findStat (kind : PgEventKind) :
    List Stat → (index : Nat) → Traced StringField (Option Nat)
  | [], _ => pure none
  | stat :: rest, index =>
      if stat.kind = kind then do
        let equal ← strcmpEq contents .key stat.key.toList 0
        if equal then
          pure (some index)
        else
          findStat kind rest (index + 1)
      else
        findStat kind rest (index + 1)

/-- `stat_upsert` of the key a pointer leads to. -/
def statUpsert
    (fuel : Nat)
    (stats : Stats)
    (v : Int64)
    (kind : PgEventKind)
    (delta : Bool) : Traced StringField Stats := do
  match ← findStat contents kind (stats.rows.toList.take stats.count) 0 with
  | some index =>
      match stats.rows[index]? with
      | some stat =>
          pure { stats with
            rows := stats.rows.setIfInBounds index (stat.update v delta) }
      | none => pure stats
  | none =>
      match stats.rows[stats.count]? with
      | some stat => do
          let key ← cString contents .key fuel 0
          pure {
            rows :=
              stats.rows.setIfInBounds stats.count
                (stat.insert key v kind)
            count := stats.count + 1 }
      | none => pure stats

end Stats

section Events

variable
  (event : PgEvent)
  (contents : StringField → Nat → UInt8)
  (fuel : Nat)

/-- A format with one `%s`. -/
def formatString
    (before : List UInt8)
    (field : StringField)
    (after : List UInt8) : Traced StringField (List UInt8) := do
  let string ← cString contents field fuel 0
  pure (before ++ string ++ after)

/-- What `push_event` writes after the timestamp. -/
def eventMessage : Traced StringField (List UInt8) :=
  let equals := Bytes.ascii " = " ++ Numeral.signed event.num.toInt
  match PgEventKind.ofCode? event.kind with
  | some .log =>
      formatString contents fuel
        (Bytes.ascii "log[t" ++ Numeral.decimal event.threadTag.toNat ++
          Bytes.ascii "] ") .text []
  | some .phase =>
      formatString contents fuel (Bytes.ascii "-- ") .text
        (Bytes.ascii " --")
  | some .counter =>
      formatString contents fuel (Bytes.ascii "counter ") .key
        (Bytes.ascii " += " ++ Numeral.signed event.num.toInt)
  | some .gauge =>
      formatString contents fuel (Bytes.ascii "gauge   ") .key equals
  | some .expect =>
      formatString contents fuel (Bytes.ascii "expect  ") .key equals
  | some .actual =>
      formatString contents fuel (Bytes.ascii "actual  ") .key equals
  | some .sutFault =>
      formatString contents fuel (Bytes.ascii "SUT FAULT  ") .text []
  | some .childCrash =>
      formatString contents fuel (Bytes.ascii "CRASH      ") .text []
  | some .watchdog =>
      formatString contents fuel (Bytes.ascii "WATCHDOG   ") .text []
  | some .done => pure (Bytes.ascii "done.")
  | none => pure (Bytes.ascii "?")

/-- `push_event`; `t` is the `%6.3f` rendering of a timestamp in seconds. -/
def pushEvent (t : UInt64 → List UInt8) (log : Log) :
    Traced StringField Log := do
  let message ← eventMessage event contents fuel
  pure (log.pushf (styleFor event.kind)
    (t event.tsNs ++ Bytes.ascii " " ++ message))

/-- The `switch` of `run_scenario` on the kind of an event. -/
def upsertEvent (stats : Stats) : Traced StringField Stats :=
  let upsert := statUpsert contents fuel stats event.num
  match PgEventKind.ofCode? event.kind with
  | some .counter => upsert .counter true
  | some .gauge => upsert .gauge false
  | some .expect => upsert .expect false
  | some .actual => upsert .actual false
  | some _ | none => pure stats

end Events

end FailurePlayground
