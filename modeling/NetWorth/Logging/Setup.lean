import NetWorth.Logging.Record

/-! # Setting logging up

Setting up replaces the handlers by one of the chosen format, sets the least severity that is written,
and announces itself. The handler is replaced before the name of the severity is read, so a name that is
refused leaves the new format behind. -/
namespace NetWorth

structure LogState where
  severity : Nat
  handlers : List LogFormat
deriving DecidableEq, Repr

namespace LogState

/-- The state after the program has set logging up with its settings. -/
def initial : LogState := ⟨Severity.info, [.text]⟩

/-- Loggers of the server beneath, which are kept at warnings. -/
def quietLoggers : List (String × Nat) :=
  [("asyncio", 30), ("uvicorn.access", 30), ("multipart", 30)]

/-- An empty name stands for the one in the settings. -/
def given (name : Option String) (setting : String) : String :=
  let name := name.getD ""
  if name.isEmpty then setting else name

def formatOf (name : String) : LogFormat := if name = "json" then .json else .text

def announcement (severityName formatName : String) : Record :=
  ⟨"worthline.utils.logging", .int Severity.info,
    "Logging configured: level=" ++ severityName ++ ", format=" ++ formatName, [], .int 0, [], none⟩

def setup (settings : Settings) (severity format : Option String) (state : LogState) :
    LogState × Except Failure Record :=
  let severityName := given severity settings.logLevel
  let formatName := Text.lower (given format settings.logFormat.word)
  let replaced : LogState := { state with handlers := [formatOf formatName] }
  match Severity.ofName severityName with
  | .error failure => (replaced, .error failure)
  | .ok number => ({ replaced with severity := number }, .ok (announcement severityName formatName))

def format (state : LogState) : LogFormat := state.handlers.getLast?.getD .text

def writes (state : LogState) (severity : Nat) : Bool := state.severity ≤ severity

end LogState

end NetWorth
