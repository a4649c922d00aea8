import NetWorth.Decimal.Context
import NetWorth.Json.Literal

/-! # Causes of failure

A request can be refused for its own sake (a service failure, which has a message for the caller), or
because something beneath it cannot go on. Missing prices and rates are not failures. -/
namespace NetWorth

inductive ServiceFailure where
  | general (message : String)
  | validation (message : String) (field : Option String)
  | invalidDate (value : String) (field : Option String)
  /-- A value that is no finite decimal, as it is shown in messages. -/
  | invalidDecimal (literal : String) (field : Option String)
  | invalidGranularity (value : String)
  | notFound (message : String) (resourceType resourceId : Option String)
  /-- Requested accounts that do not exist, in ascending order. -/
  | accountsNotFound (accountIds : List String)
deriving DecidableEq, Repr

namespace ServiceFailure

def sortedIds (ids : List String) : List String := ids.mergeSort fun a b => decide (a ≤ b)

def unknownAccounts (ids : List String) : ServiceFailure := .accountsNotFound (sortedIds ids)

def joinedIds (ids : List String) : String := String.intercalate ", " ids

/-- The label is left out when it is empty. -/
def dateLabel : Option String → String
  | none => "date"
  | some field => if field = "" then "date" else field ++ " date"

def message : ServiceFailure → String
  | .general message => message
  | .validation message _ => message
  | .invalidDate value field =>
    "Invalid " ++ dateLabel field ++ ": '" ++ value ++ "'. Expected YYYY-MM-DD"
  | .invalidDecimal literal _ => "Invalid decimal value: " ++ literal
  | .invalidGranularity value =>
    "Invalid granularity '" ++ value ++ "'. Valid values: "
      ++ "none, full, hourly, daily, weekly, monthly, yearly, "
      ++ "or a duration like 90m, 6h, 2d, 1w"
  | .notFound message _ _ => message
  | .accountsNotFound ids => "Account(s) not found: " ++ joinedIds ids

/-- The request field to blame, for failures of validation. -/
def field : ServiceFailure → Option String
  | .validation _ field => field
  | .invalidDate _ field => field
  | .invalidDecimal _ field => field
  | .invalidGranularity _ => some "granularity"
  | _ => none

def name : ServiceFailure → String
  | .general _ => "ServiceError"
  | .validation _ _ => "ValidationError"
  | .invalidDate _ _ => "InvalidDateError"
  | .invalidDecimal _ _ => "InvalidDecimalError"
  | .invalidGranularity _ => "InvalidGranularityError"
  | .notFound _ _ _ => "NotFoundError"
  | .accountsNotFound _ => "AccountNotFoundError"

/-- The wider kinds that a kind of failure belongs to, narrowest first. -/
def widerNames : ServiceFailure → List String
  | .general _ => []
  | .validation _ _ | .notFound _ _ _ => ["ServiceError"]
  | .invalidDate _ _ | .invalidDecimal _ _ | .invalidGranularity _ => ["ValidationError", "ServiceError"]
  | .accountsNotFound _ => ["NotFoundError", "ServiceError"]

end ServiceFailure

/-- Closed sets of words that recorded data chooses from. -/
inductive Vocabulary where
  | backfillPolicy
  | priceKind
  | rateKind
deriving DecidableEq, Repr

def Vocabulary.name : Vocabulary → String
  | .backfillPolicy => "BalanceBackfillPolicy"
  | .priceKind => "PriceKind"
  | .rateKind => "FxRateKind"

/-- What an HTTP failure says: a value as it is shown, which may be blank. -/
structure Detail where
  shown : String
  blank : Bool
deriving DecidableEq, Repr

/-- Nothing, zeros, and what is empty are blank; nothing at all says nothing. -/
def Detail.ofJson? (value : Json) : Option Detail :=
  if value.isNull then none else some ⟨value.plain, value.isBlank⟩

inductive Failure where
  | service (cause : ServiceFailure)
  | arithmetic (signal : Decimal.Signal)
  /-- Universal time would leave the calendar. -/
  | dateOutOfRange
  /-- A clock without an offset shows the first day of the calendar, which has no day before it. -/
  | noDayBefore
  /-- A span reaches a billion days. -/
  | spanTooLong
  /-- A span is given by an undefined number. -/
  | spanUndefined
  /-- Something of another kind stands where a number of seconds is expected. -/
  | spanNotNumber (kind : String)
  /-- A number has more digits than may be read. -/
  | tooManyDigits (count : Nat)
  | unknownWord (word : String) (vocabulary : Vocabulary)
  | negativePlaces
  /-- Something that is no asset stands where one is expected. -/
  | unsupportedAsset (kind : String)
  | incomparableTimestamps
  | collectorConsumed
  /-- An asset that was not among those resolved. -/
  | unresolvedAsset (assetId : String)
  | unknownLogLevel (name : String) (known : List String)
  /-- A collaborator failed on its own. -/
  | inputOutput (message : String)
  | runtime (message : String)
  | http (status : Int) (detail : Option Detail)
deriving DecidableEq, Repr

def statusPhrase : Int → String
  | 100 => "Continue" | 101 => "Switching Protocols" | 102 => "Processing" | 103 => "Early Hints"
  | 200 => "OK" | 201 => "Created" | 202 => "Accepted" | 203 => "Non-Authoritative Information"
  | 204 => "No Content" | 205 => "Reset Content" | 206 => "Partial Content" | 207 => "Multi-Status"
  | 208 => "Already Reported" | 226 => "IM Used"
  | 300 => "Multiple Choices" | 301 => "Moved Permanently" | 302 => "Found" | 303 => "See Other"
  | 304 => "Not Modified" | 305 => "Use Proxy" | 307 => "Temporary Redirect" | 308 => "Permanent Redirect"
  | 400 => "Bad Request" | 401 => "Unauthorized" | 402 => "Payment Required" | 403 => "Forbidden"
  | 404 => "Not Found" | 405 => "Method Not Allowed" | 406 => "Not Acceptable"
  | 407 => "Proxy Authentication Required" | 408 => "Request Timeout" | 409 => "Conflict" | 410 => "Gone"
  | 411 => "Length Required" | 412 => "Precondition Failed" | 413 => "Request Entity Too Large"
  | 414 => "Request-URI Too Long" | 415 => "Unsupported Media Type"
  | 416 => "Requested Range Not Satisfiable" | 417 => "Expectation Failed" | 418 => "I'm a Teapot"
  | 421 => "Misdirected Request" | 422 => "Unprocessable Entity" | 423 => "Locked"
  | 424 => "Failed Dependency" | 425 => "Too Early" | 426 => "Upgrade Required"
  | 428 => "Precondition Required" | 429 => "Too Many Requests"
  | 431 => "Request Header Fields Too Large" | 451 => "Unavailable For Legal Reasons"
  | 500 => "Internal Server Error" | 501 => "Not Implemented" | 502 => "Bad Gateway"
  | 503 => "Service Unavailable" | 504 => "Gateway Timeout" | 505 => "HTTP Version Not Supported"
  | 506 => "Variant Also Negotiates" | 507 => "Insufficient Storage" | 508 => "Loop Detected"
  | 510 => "Not Extended" | 511 => "Network Authentication Required"
  | _ => ""

namespace Failure

def greatestDigits : Nat := 4300

def httpDetail (status : Int) (detail : Option Detail) : Detail :=
  detail.getD ⟨statusPhrase status, (statusPhrase status).isEmpty⟩

/-- What is told about a failure; arithmetic and calendar limits speak for themselves. -/
def message : Failure → String
  | .service cause => cause.message
  | .arithmetic _ | .dateOutOfRange | .spanTooLong => ""
  | .noDayBefore => "year 0 is out of range"
  | .spanUndefined => "cannot convert float NaN to integer"
  | .spanNotNumber kind => "unsupported type for timedelta seconds component: " ++ kind
  | .tooManyDigits count =>
    "Exceeds the limit (" ++ toString greatestDigits ++ " digits) for integer string conversion: value has "
      ++ toString count ++ " digits; use sys.set_int_max_str_digits() to increase the limit"
  | .unknownWord word vocabulary => Text.quoted word ++ " is not a valid " ++ vocabulary.name
  | .negativePlaces => "places must be >= 0"
  | .unsupportedAsset kind => "Unsupported asset type: " ++ kind
  | .incomparableTimestamps => "can't compare offset-naive and offset-aware datetimes"
  | .collectorConsumed => "ChangePointCollector has already been consumed"
  | .unresolvedAsset assetId => "AssetId(value=" ++ Text.quoted assetId ++ ")"
  | .unknownLogLevel name known =>
    "Invalid log level: '" ++ name ++ "'. Valid levels are: " ++ String.intercalate ", " known
  | .inputOutput message | .runtime message => message
  | .http status detail => toString status ++ ": " ++ (httpDetail status detail).shown

end Failure

def ofSignal {α : Type} : Except Decimal.Signal α → Except Failure α
  | .ok a => .ok a
  | .error signal => .error (.arithmetic signal)

@[simp] theorem ofSignal_ok {α : Type} (a : α) : ofSignal (.ok a) = .ok a := rfl
@[simp] theorem ofSignal_error {α : Type} (signal : Decimal.Signal) :
    (ofSignal (.error signal) : Except Failure α) = .error (.arithmetic signal) := rfl

end NetWorth
