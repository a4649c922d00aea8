import NetWorth.Api.Body
import NetWorth.Api.Problem
import NetWorth.Api.Query
import NetWorth.Settings

/-! # The HTTP surface

Four endpoints that are read with `GET`. An answer is a status and a body, the identifier of the
request, and the lines that were noted on the way. A failure beneath the service ends a request without
a body of its own, without its identifier, and without a line about its answer. -/
namespace NetWorth

/-- What the endpoints work on. `opening` tells of collaborators that the request is the first to use. -/
structure Wiring where
  ledger : LedgerReads
  market : MarketReads
  settings : Settings
  today : Date
  opening : List Line

inductive Content where
  | json (body : Json)
  | text (body : String)

structure Response where
  status : Int
  content : Content
  correlationId : Option String

inductive Endpoint where
  | snapshot
  | history
  | changePoints
  | health
deriving DecidableEq, Repr

namespace Endpoint

def path : Endpoint → String
  | .snapshot => "/portfolio/snapshot"
  | .history => "/portfolio/history"
  | .changePoints => "/portfolio/change-points"
  | .health => "/health"

def all : List Endpoint := [.snapshot, .history, .changePoints, .health]

/-- The endpoint of a path; one line end behind it does not count. -/
def ofPath? (path : String) : Option Endpoint :=
  let chars := path.toList
  let path := if chars.getLast? = some '\n' then String.ofList chars.dropLast else path
  all.find? fun e => e.path = path

/-- Whether a path is that of an endpoint with slashes behind it. -/
def isSlashed (path : String) : Bool :=
  let chars := path.toList
  chars.getLast? = some '/'
    && (ofPath? (String.ofList (chars.reverse.dropWhile (· = '/')).reverse)).isSome

end Endpoint

namespace Server

def version : String := "0.1.0"

def orElse (given : Option String) (fallback : String) : String :=
  let text := given.getD ""
  if text.isEmpty then fallback else text

def snapshotDate (wiring : Wiring) (given : Option String) : Except Failure Date :=
  let text := given.getD ""
  if text.isEmpty then .ok wiring.today else Date.read text (some "date")

def snapshot (wiring : Wiring) (params : SnapshotParams) : Journaled Json := do
  let date ← Journaled.of (snapshotDate wiring params.date)
  let places := params.places <|> wiring.settings.currencyDecimals
  let currency := orElse params.currency wiring.settings.reportingCurrency
  let valuation ← Valuation.run wiring.ledger wiring.market
    ⟨date, currency, some params.groupBy, params.detail, places⟩
  let body ← Journaled.of (Body.ofValuation Timestamp.zulu? valuation)
  return Body.snapshot .omitted body

def timelineQuery (wiring : Wiring) (params : TimelineParams) : TimelineQuery where
  first := params.first.map .text
  last := params.last.map .text
  granularity := orElse params.granularity wiring.settings.defaultGranularity
  includePrices := params.includePrices
  includeRates := params.includeRates
  accountIds := params.accountIds
  currency := some (orElse params.currency wiring.settings.reportingCurrency)

def history (wiring : Wiring) (params : TimelineParams) : Journaled Json := do
  let currency := orElse params.currency wiring.settings.reportingCurrency
  let report ← HistoryReport.run wiring.ledger wiring.market
    (.make (timelineQuery wiring params) currency wiring.settings.currencyDecimals)
  let body ← Journaled.of (Body.ofHistory Timestamp.zeroOffset? report)
  return Body.history .omitted body

def changePoints (wiring : Wiring) (params : TimelineParams) : Journaled Json := do
  let report ← ChangeReport.run wiring.ledger wiring.market (timelineQuery wiring params)
  let body ← Journaled.of (Body.ofChanges Timestamp.zulu? report)
  return Body.changes .omitted body

def health (settings : Settings) : Json :=
  .object [("status", .text "healthy"), ("app", .text settings.appName), ("version", .text version),
    ("reporting_currency", .text settings.reportingCurrency)]

def valuationReady : Line := ⟨.debug, .valuation, "PortfolioService initialized"⟩

def historyReady : Line := ⟨.debug, .history, "HistoryService initialized"⟩

def openingLines (wiring : Wiring) : Endpoint → List Line
  | .snapshot => wiring.opening ++ [valuationReady]
  | .history | .changePoints => wiring.opening ++ [valuationReady, historyReady]
  | .health => []

/-- The answer to a request, before it is noted: a status with a body, or nothing if something beneath
the service failed. -/
def settle (journaled : Journaled Json) : Option (Int × Json) × List Line :=
  match journaled.outcome with
  | .ok body => (some (200, body), journaled.lines)
  | .error (.service cause) =>
    let (status, problem) := Problem.ofService cause
    (some (status, problem.toJson), journaled.lines ++ [Problem.serviceLine cause])
  | .error (.http status detail) =>
    (some (status, (Problem.ofStatus status detail).toJson), journaled.lines)
  | .error _ => (none, journaled.lines)

def checkedThen {α : Type} (params : Checked α) (run : α → Journaled Json) :
    Option (Int × Json) × List Line :=
  match params with
  | .ok params => settle (run params)
  | .rejected issues => (some (422, (RequestProblem.ofIssues issues).toJson), [])

def dispatch (wiring : Wiring) (request : Request) : Endpoint → Option (Int × Json) × List Line
  | .snapshot => checkedThen request.snapshotParams (snapshot wiring)
  | .history => checkedThen request.timelineParams (history wiring)
  | .changePoints => checkedThen request.timelineParams (changePoints wiring)
  | .health => settle (pure (health wiring.settings))

def detail (text : String) : Json := .object [("detail", .text text)]

/-- How a mark of a path is noted: those that would end the path are escaped. -/
def shownMark (c : Char) : List Char :=
  match c with
  | '?' => ['%', '3', 'F']
  | '#' => ['%', '2', '3']
  | '\\' => ['%', '5', 'C']
  | '\t' | '\n' | '\r' => []
  | c => [c]

/-- A path as it is noted: unless it is empty it starts with a slash, and it is without tabs and line
ends. -/
def shownPath (path : String) : String :=
  let start := if path.isEmpty || path.toList.head? = some '/' then [] else ['/']
  String.ofList (start ++ path.toList.flatMap shownMark)

def accessLine (request : Request) (status : Int) : Line :=
  ⟨.debug, .access, request.method ++ " " ++ shownPath request.path ++ " -> " ++ toString status⟩

/-- An answer carries the identifier of its request and is noted. -/
def respond (request : Request) (status : Int) (content : Content) (lines : List Line) :
    Response × List Line :=
  (⟨status, content, request.correlationId?⟩, lines ++ [accessLine request status])

def answer (wiring : Wiring) (request : Request) (endpoint : Endpoint) : Response × List Line :=
  if request.method = "GET" then
    let (result, lines) := dispatch wiring request endpoint
    let lines := openingLines wiring endpoint ++ lines
    match result with
    | some (status, body) => respond request status (.json body) lines
    | none => (⟨500, .text "Internal Server Error", none⟩, lines)
  else respond request 405 (.json (detail "Method Not Allowed")) []

/-- Answers a request. From a path that ends in slashes it is sent on to the one without them. -/
def handle (wiring : Wiring) (request : Request) : Response × List Line :=
  match Endpoint.ofPath? request.path with
  | some endpoint => answer wiring request endpoint
  | none =>
    if Endpoint.isSlashed request.path then respond request 307 (.text "") []
    else respond request 404 (.json (detail "Not Found")) []

end Server

end NetWorth
