import NetWorth.Failure
import NetWorth.Text.Blank
import NetWorth.Text.CaseMap

/-! # Severities

A severity is a number; the usual ones have names, some of them two. -/
namespace NetWorth.Severity

def named : List (String × Nat) :=
  [("CRITICAL", 50), ("DEBUG", 10), ("ERROR", 40), ("FATAL", 50), ("INFO", 20), ("WARN", 30),
    ("WARNING", 30)]

def info : Nat := 20

/-- Reads a name without regard to case and surrounding blanks. -/
def ofName (name : String) : Except Failure Nat :=
  let key := Text.upper (Text.trim name)
  match named.find? fun e => e.1 = key with
  | some (_, severity) => .ok severity
  | none => .error (.unknownLogLevel name (named.map Prod.fst))

def name? : Int → Option String
  | 50 => some "CRITICAL"
  | 40 => some "ERROR"
  | 30 => some "WARNING"
  | 20 => some "INFO"
  | 10 => some "DEBUG"
  | 0 => some "NOTSET"
  | _ => none

def integer? : Json → Option Int
  | .int n => some n
  | .bool b => some (if b then 1 else 0)
  | .float x => x.integer?
  | _ => none

/-- What a severity is called in a log line: one given by a name is told by its number, and one without a
name as it is. -/
def shown (severity : Json) : Json :=
  let unnamed := Json.text ("Level " ++ severity.plain)
  match severity with
  | .text name => ((Keyed.get? name (("NOTSET", 0) :: named)).map fun n => .int n).getD unnamed
  | _ => (((integer? severity).bind name?).map .text).getD unnamed

end NetWorth.Severity
