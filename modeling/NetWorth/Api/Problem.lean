import NetWorth.Check.Scalar
import NetWorth.Journal

/-! # Problem bodies

How failures are answered: a status, the kind of problem, its message, and details if there are any.
Failures beneath the service have no body of their own. -/
namespace NetWorth

structure Problem where
  kind : String
  message : String
  details : Option Json

/-- A request whose parameters did not pass their checks, with one entry per issue. -/
structure RequestProblem where
  kind : String
  message : String
  details : List Json

namespace Problem

/-- All three members are always there. Details have no way to write a number that is not finite. -/
def toJson (problem : Problem) : Json :=
  .object [("error", .text problem.kind), ("message", .text problem.message),
    ("details", (problem.details.getD .null).finiteOnly)]

def validOptions : List String :=
  ["none", "full", "hourly", "daily", "weekly", "monthly", "yearly",
    "<N>ms", "<N>s", "<N>m", "<N>h", "<N>d", "<N>w"]

/-- A detail with a text that is there and not empty. -/
def ifNamed (name : Option String) (details : Json) : Option Json :=
  if (name.getD "").isEmpty then none else some details

def ofService (cause : ServiceFailure) : Int × Problem :=
  match cause with
  | .accountsNotFound ids =>
    (404, ⟨cause.name, cause.message,
      some (.object [("account_ids", .array (ids.map .text))])⟩)
  | .notFound _ type id =>
    (404, ⟨cause.name, cause.message,
      ifNamed type (.object [("resource_type", .ofText? type), ("resource_id", .ofText? id)])⟩)
  | .invalidGranularity value =>
    (400, ⟨cause.name, cause.message,
      some (.object [("granularity", .text value),
        ("valid_options", .array (validOptions.map .text))])⟩)
  | .validation _ _ | .invalidDate _ _ | .invalidDecimal _ _ =>
    (400, ⟨cause.name, cause.message,
      ifNamed cause.field (.object [("field", .ofText? cause.field)])⟩)
  | .general _ => (500, ⟨cause.name, cause.message, none⟩)

def serviceLine (cause : ServiceFailure) : Line :=
  match cause with
  | .accountsNotFound ids =>
    ⟨.warning, .server, "Account(s) not found: " ++ Text.quotedList ids⟩
  | .notFound _ _ _ => ⟨.warning, .server, "Not found: " ++ cause.message⟩
  | .invalidGranularity value => ⟨.warning, .server, "Invalid granularity: " ++ value⟩
  | .validation _ _ | .invalidDate _ _ | .invalidDecimal _ _ =>
    ⟨.warning, .server, "Validation error: " ++ cause.message⟩
  | .general _ => ⟨.error, .server, "Service error: " ++ cause.message⟩

def statusKind : Int → String
  | 400 => "BadRequestError"
  | 404 => "NotFoundError"
  | 405 => "MethodNotAllowedError"
  | 422 => "ValidationError"
  | 500 => "InternalServerError"
  | 503 => "ServiceUnavailableError"
  | _ => "HTTPError"

def ofStatus (status : Int) (detail : Option Detail) : Problem :=
  let detail := Failure.httpDetail status detail
  ⟨statusKind status, if detail.blank then "An error occurred" else detail.shown, none⟩

open Check in
def ofMembers (members : List (String × Json)) : Checked Problem :=
  Problem.mk <$> required "error" text members <*> required "message" text members
    <*> maybe "details" (object .notObject fun ms => .ok (.object ms)) members

def check : Check Problem := Check.object .notModel ofMembers

end Problem

namespace RequestProblem

def toJson (problem : RequestProblem) : Json :=
  .object [("error", .text problem.kind), ("message", .text problem.message),
    ("details", .array (problem.details.map Json.finiteOnly))]

def defaultKind : String := "ValidationError"
def defaultMessage : String := "Request validation failed"

def issueMessage : IssueKind → String
  | .booleanText => "Input should be a valid boolean, unable to interpret input"
  | .integerText => "Input should be a valid integer, unable to parse string as an integer"
  | .integerSize => "Unable to parse input string as an integer, exceeded maximum size"
  | .tooSmall => "Input should be greater than or equal to 0"
  | .tooLarge => "Input should be less than or equal to 12"
  | kind => kind.word

def ofIssues (issues : List Issue) : RequestProblem :=
  ⟨defaultKind, defaultMessage, issues.map fun i =>
    .object [("field", .text (String.intercalate "." ("query" :: i.location))),
      ("message", .text (issueMessage i.kind)), ("type", .text i.kind.word)]⟩

open Check in
def ofMembers (members : List (String × Json)) : Checked RequestProblem :=
  RequestProblem.mk <$> withDefault "error" defaultKind text members
    <*> withDefault "message" defaultMessage text members
    <*> required "details" (list (object .notObject fun ms => .ok (.object ms))) members

def check : Check RequestProblem := Check.object .notModel ofMembers

end RequestProblem

end NetWorth
