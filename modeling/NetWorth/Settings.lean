import NetWorth.Check.Scalar
import NetWorth.Json.Literal
import NetWorth.Text.CaseMap
import NetWorth.Text.Letter

/-! # Settings

How the program is set up. The reporting currency has three characters as it is given; it is then
trimmed and put in upper case and must consist of letters. -/
namespace NetWorth

inductive Environment where
  | development
  | test
  | production
deriving DecidableEq, Repr

def Environment.word : Environment → String
  | .development => "development"
  | .test => "test"
  | .production => "production"

inductive LogFormat where
  | text
  | json
deriving DecidableEq, Repr

def LogFormat.word : LogFormat → String
  | .text => "text"
  | .json => "json"

structure Settings where
  environment : Environment
  logLevel : String
  logFormat : LogFormat
  reportingCurrency : String
  defaultGranularity : String
  currencyDecimals : Option Int
  appName : String
deriving DecidableEq, Repr

namespace Settings

def standard : Settings := ⟨.development, "INFO", .text, "USD", "none", none, "Worthline"⟩

def isProduction (s : Settings) : Bool := s.environment = .production

def isTest (s : Settings) : Bool := s.environment = .test

def choice {α : Type} (options : List (String × α)) : Check α
  | .text s =>
    match Keyed.get? s options with
    | some a => .ok a
    | none => .issue .wrongLiteral
  | _ => .issue .wrongLiteral

def threeCharacters (value : Json) : Checked String :=
  (Check.text value).andThen fun s =>
    if s.length < 3 then .issue .textTooShort
    else if 3 < s.length then .issue .textTooLong
    else .ok s

/-- Puts the reporting currency in its final form. -/
def finish (s : Settings) : Checked Settings :=
  let code := Text.upper (Text.trim s.reportingCurrency)
  if Text.isAlphabetic code then .ok { s with reportingCurrency := code } else .issue .refused

open Check in
/-- Settings from the values given for some of them. Names count in any case; of several spellings of one
name the first counts. -/
def ofMembers (given : List (String × Json)) : Checked Settings :=
  let members := given.map fun m => (Text.lower m.1, m.2)
  (Settings.mk
    <$> withDefault "environment" .development
      (choice [("development", .development), ("test", .test), ("production", .production)]) members
    <*> withDefault "log_level" "INFO" text members
    <*> withDefault "log_format" .text (choice [("text", .text), ("json", .json)]) members
    <*> withDefault "reporting_currency" "USD" threeCharacters members
    <*> withDefault "default_granularity" "none" text members
    <*> maybe "currency_decimals" (integerBetween 0 12) members
    <*> withDefault "app_name" "Worthline" text members).andThen finish

/-- Settings from environment variables; of several spellings of one name the last counts. -/
def ofEnvironment (given : List (String × String)) : Checked Settings :=
  ofMembers (given.reverse.map fun v => (v.1, Json.text v.2))

inductive Unsettable where
  | notText (kind : String)
  /-- The name or the value has a character that would end it. -/
  | endsEarly
  /-- The name has the mark that would end it. -/
  | markInName
  | withoutName
deriving DecidableEq, Repr

/-- What is told about what cannot be an environment variable. -/
def Unsettable.message : Unsettable → String
  | .notText kind => "str expected, not " ++ kind
  | .endsEarly => "embedded null byte"
  | .markInName => "illegal environment variable name"
  | .withoutName => "[Errno 22] Invalid argument"

/-- A name and a value as an environment variable. -/
def toVariable (name : String) : Json → Except Unsettable (String × String)
  | .text value =>
    if name.toList.contains '\x00' || value.toList.contains '\x00' then .error .endsEarly
    else if name.toList.contains '=' then .error .markInName
    else if name.isEmpty then .error .withoutName
    else .ok (name, value)
  | value => .error (.notText value.kindName)

end Settings

end NetWorth
