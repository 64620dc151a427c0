import CachedViews.Log.Message

/-
# Log records

A record is one event for the log. It is written as a line of plain text or as
one JSON object (`Record.structured`), whose fields are the time, the level, the
logger, the message, the module and the line, then the view and the file if the
record has them, then the exception. Further fields come last; one that has the
name of another field takes its place.

The object gives the time as a moment of the calendar, the line as the clock of
the platform shows it, which goes on where the calendar has no years any more.

Key definitions: `Record`, `Record.structured`, `Record.clock`, `Record.plain`,
`LogFormat`.
-/

namespace CachedViews.Log

/-- What went wrong when a record was made: the name of the kind, the name with
the module it is from, and the wording. -/
structure Problem where
  kind : String
  fullKind : String
  message : String

/-- The last lines about a problem. -/
def Problem.trace (p : Problem) : String :=
  if p.message = "" then p.fullKind else p.fullKind ++ ": " ++ p.message

/-- An event for the log. -/
structure Record where
  level : Value
  logger : Value
  module : Value
  line : Value
  /-- Seconds since the beginning of 1970, in universal time. -/
  created : Float := 0.0
  message : Value
  values : List Value := []
  view : Option Value := none
  filePath : Option Value := none
  problem : Option Problem := none
  /-- Was the record to tell of a problem where there was none? -/
  unmet : Bool := false
  /-- What the lines about the problem begin with: where it came through, and what led to it. -/
  passage : String := ""

/-! ### Time -/

/-- The year, month and day of a number of days since the beginning of 1970. -/
def civilDate (days : Int) : Int × Nat × Nat :=
  let z := days + 719468
  let era := z.fdiv 146097
  let dayOfEra := (z - era * 146097).toNat
  let yearOfEra := (dayOfEra - dayOfEra / 1460 + dayOfEra / 36524 - dayOfEra / 146096) / 365
  let dayOfYear := dayOfEra - (365 * yearOfEra + yearOfEra / 4 - yearOfEra / 100)
  let shifted := (5 * dayOfYear + 2) / 153
  let day := dayOfYear - (153 * shifted + 2) / 5 + 1
  let month := if shifted < 10 then shifted + 3 else shifted - 9
  let year := (yearOfEra : Int) + era * 400 + (if month ≤ 2 then 1 else 0)
  (year, month, day)

/-- The moment of a number of seconds and microseconds. The platform counts years in a word, and
the calendar has those from one to 9999. A day whose day before is not in the calendar is refused
as well. -/
def momentOf (seconds : Int) (micro : Nat) : Except Fault Moment :=
  let days := seconds.fdiv 86400
  let rest := (seconds - days * 86400).toNat
  let (year, month, day) := civilDate days
  let (yearBefore, _, _) := civilDate (days - 1)
  let outOfRange (year : Int) : Except Fault Moment :=
    .error (.value (.badDate s!"year {year.bmod (Nat.pow 2 32)} is out of range"))
  if year - 1900 < -Nat.pow 2 31 ∨ Nat.pow 2 31 ≤ year - 1900 then
    .error (.external "OSError" "[Errno 75] Value too large for defined data type")
  else if year < 1 ∨ 9999 < year then outOfRange year
  else if yearBefore < 1 then outOfRange yearBefore
  else
    let clock := some (rest / 3600, rest / 60 % 60, rest % 60, micro)
    .ok ⟨year.toNat, month, day, clock, none⟩

/-- Whole seconds and microseconds, rounded to the nearest. -/
def splitSeconds (x : Float) : Int × Nat :=
  let whole := Decimal.truncate x
  let micro := Decimal.nearestInteger ((x - Decimal.ofInteger whole) * 1000000.0)
  if 1000000 ≤ micro then (whole + 1, (micro - 1000000).toNat)
  else if micro < 0 then (whole - 1, (micro + 1000000).toNat)
  else (whole, micro.toNat)

/-- The moment at which a record was made. The platform counts seconds in a word. -/
def Record.moment (r : Record) : Except Fault Moment :=
  let tooFar : Except Fault Moment :=
    .error (.external "OverflowError" "timestamp out of range for platform time_t")
  if r.created.isNaN then .error (.value (.badDate "Invalid value NaN (not a number)"))
  else if r.created.isInf then tooFar
  else
    let (seconds, micro) := splitSeconds r.created
    if seconds < -Nat.pow 2 63 ∨ Nat.pow 2 63 ≤ seconds then tooFar else momentOf seconds micro

/-! ### Formats -/

/-- The message of a record with its places filled. -/
def Record.text (r : Record) : Except Fault String := fillMessage r.message.text r.values

/-- The fields of a record. -/
def Record.fields (r : Record) : Except Fault (List (String × Value)) := do
  let time ← r.moment
  let message ← r.text
  let optional (name : String) (v : Option Value) : List (String × Value) :=
    (v.map fun v => (name, v)).toList
  let problem := r.problem.map fun p => Value.ofFields
    [("type", .str p.kind), ("message", .str p.message), ("traceback", .str (r.passage ++ p.trace))]
  if problem.isNone && r.unmet then throw (.attribute "NoneType" "__name__")
  return [("timestamp", .str (time.render "T")), ("level", r.level), ("logger", r.logger),
    ("message", .str message), ("module", r.module), ("line", r.line)] ++
    optional "view" r.view ++ optional "file_path" r.filePath ++ optional "exception" problem

/-- A record as one line of JSON, with further fields. -/
def Record.structured (r : Record) (more : List (String × Value)) : Except Fault String := do
  let fields ← r.fields
  match Json.write .oneLine (Value.ofFields (Value.overlay fields more)) with
  | .ok line => return line
  | .error e => .error (Fault.ofWrite e)

/-- The whole seconds, rounded down, and the milliseconds, cut off, of the time of a record. -/
def Record.clock (r : Record) : Except Fault (Int × Int) :=
  let tooFar : Except Fault (Int × Int) :=
    .error (.external "OverflowError" "timestamp out of range for platform time_t")
  if r.created.isNaN then .error (.value (.badDate "Invalid value NaN (not a number)"))
  else if r.created.isInf then tooFar
  else
    let whole := Decimal.truncate r.created
    let seconds := if r.created < Decimal.ofInteger whole then whole - 1 else whole
    if seconds < -Nat.pow 2 63 ∨ Nat.pow 2 63 ≤ seconds then tooFar
    else .ok (seconds, Decimal.truncate ((r.created - Decimal.ofInteger whole) * 1000.0))

/-- The time of a record with milliseconds behind a comma. Any year will do that the platform can
count, also one that is in no calendar. -/
def Record.clockText (r : Record) : Except Fault String := do
  let (seconds, milli) ← r.clock
  let days := seconds.fdiv 86400
  let rest := (seconds - days * 86400).toNat
  let (year, month, day) := civilDate days
  if year - 1900 < -Nat.pow 2 31 ∨ Nat.pow 2 31 ≤ year - 1900 then
    .error (.external "OSError" "[Errno 75] Value too large for defined data type")
  else
    let two := Value.twoDigits
    let behind :=
      if milli < 0 ∧ milli.natAbs < 100 then "-" ++ two milli.natAbs
      else if milli < 0 then s!"{milli}"
      else String.ofList (Text.decimalFixed 3 milli.natAbs)
    let date := s!"{year}-{two month}-{two day}"
    return s!"{date} {two (rest / 3600)}:{two (rest / 60 % 60)}:{two (rest % 60)},{behind}"

/-- A record as a line of plain text, with the name of its source file. -/
def Record.plain (r : Record) (file : String) : Except Fault String := do
  let time ← r.clockText
  return s!"{time} - {r.logger.text} - {r.level.text} - [{file}:{r.line.text}] - " ++ (← r.text)

/-- How records are written: as plain text, or as JSON with a version. -/
inductive LogFormat where
  | plain
  | structured (version : Value)

/-- The name of the application in structured records. -/
def applicationName : String := "template_views"

/-- A record in a format. -/
def LogFormat.write (f : LogFormat) (r : Record) (file : String) : Except Fault String :=
  match f with
  | .plain => r.plain file
  | .structured version =>
    r.structured [("application", .str applicationName), ("version", version)]

end CachedViews.Log
