import NetWorth.Calendar.Seconds
import NetWorth.Calendar.Wire
import NetWorth.Json.Writer
import NetWorth.Logging.Level
import NetWorth.Logging.Template
import NetWorth.Settings

/-! # Log records and their lines

A record is written as text in columns or as one JSON object. Both carry the identifier of the request;
the JSON form also carries what was attached to the record, and both end with the failure, if any. What
is attached under the name of one of a record's own parts takes its place, and may not fit there. -/
namespace NetWorth

structure Record where
  channel : String
  severity : Json
  template : String
  arguments : List Json
  /-- Seconds since 1970, a whole or a floating-point number. -/
  created : Json
  /-- What was attached to the record, by name. -/
  extra : List (String × LogValue)
  failure : Option Failure

inductive Unwritable where
  | misfit (cause : Template.Misfit)
  /-- The time is of a kind that is no number. -/
  | timeNotNumber (kind : String)
  | timeUndefined
  | yearOutOfRange (year : Int)
  /-- The time has too many seconds for a clock, or too many years. -/
  | tooManySeconds
  | tooManyYears
  /-- What stands for the failure is of a kind without parts, or of one with too few or with named ones. -/
  | withoutParts (kind : String)
  | tooFewParts (kind : String)
  | namedParts
  /-- What stands for the failure has parts of other kinds than a failure has. -/
  | notTrace (kind : String)
  | notCause (kind : String)
  /-- What should be appended is no text. -/
  | notText
  /-- What should make the message is a value. -/
  | notCallable (kind : String)
deriving DecidableEq, Repr

/-- What is told about a record that cannot be written; what is out of reach speaks for itself. -/
def Unwritable.message : Unwritable → String
  | .misfit cause => cause.message
  | .timeNotNumber kind => Text.quoted kind ++ " object cannot be interpreted as an integer"
  | .timeUndefined => "Invalid value NaN (not a number)"
  | .yearOutOfRange year => "year " ++ toString year ++ " is out of range"
  | .tooManySeconds | .notText => ""
  | .tooManyYears => "[Errno 75] Value too large for defined data type"
  | .withoutParts kind => Text.quoted kind ++ " object is not subscriptable"
  | .tooFewParts kind => (if kind = "str" then "string" else kind) ++ " index out of range"
  | .namedParts => "2"
  | .notTrace kind => Text.quoted kind ++ " object has no attribute 'tb_frame'"
  | .notCallable kind => Text.quoted kind ++ " object is not callable"
  | .notCause kind => Text.quoted kind ++ " object has no attribute '__suppress_context__'"

namespace Record

def noCorrelationId : String := "no-correlation-id"

/-- The identifier that is put on a record: the current one unless it is missing or empty. -/
def stamp (current : Option String) : String :=
  let id := current.getD ""
  if id.isEmpty then noCorrelationId else id

/-- Names that every record has of itself; what is attached under them is not shown as attached. -/
def ownNames : List String :=
  ["name", "msg", "args", "levelname", "levelno", "pathname", "filename", "module", "exc_info",
    "exc_text", "stack_info", "lineno", "funcName", "created", "msecs", "relativeCreated", "thread",
    "threadName", "processName", "process", "message", "asctime", "correlation_id"]

def part (record : Record) (name : String) (own : Json) : LogValue :=
  (Keyed.get? name record.extra).getD (.dynamic own)

def shownChannel (record : Record) : LogValue := record.part "name" (.text record.channel)

def shownLevel (record : Record) : LogValue :=
  record.part "levelname" (Severity.shown record.severity)

/-- The name by which a record makes its message, which nothing can be attached under. -/
def messageMaker : String := "getMessage"

def filledMessage (record : Record) : Except Unwritable String :=
  let template := (record.part "msg" (.text record.template)).plain
  let arguments := match Keyed.get? "args" record.extra with
    | none => Template.Arguments.ofList record.arguments
    | some value => .ofValue value
  if arguments.values.isEmpty then .ok template
  else (Template.fill template arguments).mapError .misfit

def message (record : Record) : Except Unwritable String :=
  match Keyed.get? messageMaker record.extra with
  | some value => .error (.notCallable value.kindName)
  | none => record.filledMessage

def failureName : Failure → String
  | .service cause => "worthline.services.exceptions." ++ cause.name
  | .http _ _ => "fastapi.exceptions.HTTPException"
  | .inputOutput _ => "OSError"
  | .runtime _ | .collectorConsumed => "RuntimeError"
  | .unresolvedAsset _ => "KeyError"
  | .spanNotNumber _ | .unsupportedAsset _ | .incomparableTimestamps => "TypeError"
  | .dateOutOfRange | .spanTooLong => "OverflowError"
  | .arithmetic _ => "decimal.InvalidOperation"
  | .noDayBefore | .spanUndefined | .tooManyDigits _ | .unknownWord _ _ | .negativePlaces
  | .unknownLogLevel _ _ => "ValueError"

def failureText (failure : Failure) : String :=
  if failure.message.isEmpty then failureName failure
  else failureName failure ++ ": " ++ failure.message

/-- The text of what was attached in place of a failure. Only one without cause and trace can be told. -/
def attachedFailure (value : LogValue) : Except Unwritable String :=
  match value with
  | .dynamic (.array (_ :: .null :: .null :: _)) => .ok "NoneType: None"
  | .dynamic (.array (_ :: cause :: .null :: _)) => .error (.notCause cause.kindName)
  | .dynamic (.array (_ :: _ :: trace :: _)) => .error (.notTrace trace.kindName)
  | .dynamic (.array _) => .error (.tooFewParts "list")
  | .dynamic (.text s) => .error (if s.length < 3 then .tooFewParts "str" else .notTrace "str")
  | .dynamic (.object _) => .error .namedParts
  | _ => .error (.withoutParts value.kindName)

/-- The text of the failure, if there is one; what is attached in its place counts unless it is blank. -/
def failureLine (record : Record) : Except Unwritable (Option String) :=
  match Keyed.get? "exc_info" record.extra with
  | none => .ok (record.failure.map failureText)
  | some value => if value.isBlank then .ok none else (attachedFailure value).map some

/-- The years that clocks reach, on both sides. -/
def greatestYear : Int := 2147485547
def leastYear : Int := -2147481748

/-- The day of the calendar in its first 400 years that a day since 0001-01-01 is like, and its year. -/
def placeOf (day : Int) : Date × Int :=
  let d : Date := ⟨(day % 146097).toNat, by omega⟩
  (d, d.year + 400 * (day / 146097))

def time (record : Record) (count : Json → Except Seconds.Uncountable Int) : Except Unwritable Int :=
  match record.part "created" record.created with
  | .number n => .error (.timeNotNumber (LogValue.number n).kindName)
  | .dynamic value =>
    match count value with
    | .ok n => .ok n
    | .error (.notNumber kind) => .error (.timeNotNumber kind)
    | .error .infinite => .error .tooManySeconds
    | .error .undefined => .error .timeUndefined

def secondsEnd : Int := 9223372036854775808

def jsonTime (record : Record) : Except Unwritable String := do
  let micros ← record.time Seconds.micros
  let seconds := Int.fdiv micros Timestamp.microsPerSecond
  let wall := Timestamp.epoch + micros
  let (_, year) := placeOf (Int.fdiv wall Timestamp.microsPerDay)
  if seconds < -secondsEnd ∨ secondsEnd ≤ seconds then .error .tooManySeconds
  else if year < leastYear ∨ greatestYear < year then .error .tooManyYears
  else
    match if 0 ≤ wall then Timestamp.ofWall? wall.toNat (some 0) else none with
    | some time => .ok time.localText
    | none => .error (.yearOutOfRange year)

/-- The time of the text form, to the second; years are written with the digits they have. -/
def textTime (record : Record) : Except Unwritable String := do
  let seconds ← record.time Seconds.floor
  let wall := Int.fdiv Timestamp.epoch Timestamp.microsPerSecond + seconds
  let (d, year) := placeOf (wall / 86400)
  let clock : Timestamp := ⟨(wall % 86400).toNat * 1000000, none, by omega⟩
  if seconds < -secondsEnd ∨ secondsEnd ≤ seconds then .error .tooManySeconds
  else if year < leastYear ∨ greatestYear < year then .error .tooManyYears
  else
    let sign := if year < 0 then ['-'] else []
    .ok (String.ofList (sign ++ Text.numeral year.natAbs ++ d.textChars.drop 4
      ++ ' ' :: clock.clockChars))

def jsonLine (record : Record) (correlationId : Json) : Except Unwritable Json := do
  let time ← record.jsonTime
  let message ← record.message
  let failure ← record.failureLine
  let shown := record.extra.filter fun e => !ownNames.contains e.1
  return .object (
    [("timestamp", .text time), ("level", record.shownLevel.toJson),
      ("logger", record.shownChannel.toJson), ("correlation_id", correlationId), ("message", .text message)]
    ++ (if shown.isEmpty then [] else [("extra", .object (shown.map fun e => (e.1, e.2.toJson)))])
    ++ match failure with
      | none => []
      | some text => [("exception", .text text)])

def ownCorrelationId (record : Record) : Json :=
  (record.part "correlation_id" (.text noCorrelationId)).toJson

def columns (record : Record) (correlationId message : String) : String :=
  let level := record.shownLevel.plain.toList
  String.ofList (level ++ List.replicate (8 - level.length) ' ') ++ " | " ++ correlationId
    ++ " | " ++ record.shownChannel.plain ++ " | " ++ message

def onNewLine (line text : String) : String :=
  line ++ (if line.toList.getLast? = some '\n' then "" else "\n") ++ text

/-- What was attached under a name as a text to append; blank values are as good as none. -/
def attachedText (record : Record) (name : String) : Except Unwritable (Option String) :=
  match record.part name .null with
  | .dynamic (.text s) => .ok (if s.isEmpty then none else some s)
  | value => if value.isBlank then .ok none else .error .notText

/-- The text form without its time. A failure and what is known of the stack stand on lines of their
own; the text of a failure can be attached beforehand. -/
def textRest (record : Record) (correlationId : String) : Except Unwritable String := do
  let line := columns record correlationId (← record.message)
  let failure ← match ← record.attachedText "exc_text" with
    | some text => pure (some text)
    | none => record.failureLine
  let stack ← record.attachedText "stack_info"
  return (failure.toList ++ stack.toList).foldl onNewLine line

def writeLine (format : LogFormat) (current : Option String) (record : Record) :
    Except Unwritable String :=
  match format with
  | .json => do return Json.spaced (← jsonLine record (.text (stamp current)))
  | .text => do
    let rest ← textRest record (stamp current)
    return (← record.textTime) ++ " | " ++ rest

/-- The line that a handler writes for a record, without the line ends behind it. A record that cannot be
written leaves an empty line. -/
def line (format : LogFormat) (current : Option String) (record : Record) : String :=
  match writeLine format current record with
  | .ok text => String.ofList (text.toList.reverse.dropWhile (· = '\n')).reverse
  | .error _ => ""

end Record

end NetWorth
