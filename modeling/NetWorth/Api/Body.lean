import NetWorth.Check
import NetWorth.History

/-! # Bodies of answers

The fixed form in which valuations, histories and change reports leave the program, and the checks that
read them back. Instants are texts here; `write` writes them and fails for those that the calendar does not
reach. Members without a value are left out, but the bounds of a report are always there. -/
namespace NetWorth.Body

/-- What becomes of members without a value. -/
inductive Absent where
  | omitted
  | shown
deriving DecidableEq, Repr

structure AssetLine where
  asset : Asset
  totalAmount : String
  amountDate : Date
  price : Option String
  priceDate : Option Date
  priceTimestamp : Option String
  rate : Option String
  rateDate : Option Date
  value : Option String
  holdings : Option (List HoldingRow)
deriving DecidableEq, Repr

structure Snapshot where
  date : Date
  currency : String
  totalValue : String
  byAsset : Option (List AssetLine)
  byAccount : Option (List AccountRow)
deriving DecidableEq, Repr

structure HistoryLine where
  timestamp : String
  date : Date
  totalValue : String
  triggers : Option (List String)
deriving DecidableEq, Repr

structure History where
  currency : String
  first : Option Date
  last : Option Date
  granularity : String
  points : List HistoryLine
  summary : Option HistorySummary
deriving DecidableEq, Repr

structure ChangeLine where
  timestamp : String
  triggers : List Trigger
deriving DecidableEq, Repr

structure Changes where
  first : Option Date
  last : Option Date
  granularity : String
  includePrices : Bool
  points : List ChangeLine
deriving DecidableEq, Repr

/-- An object of the members that have a value, of those named in `always`, and, if absent ones are
shown, of all. -/
def fields (absent : Absent) (always : List String) (members : List (String × Json)) : Json :=
  .object (members.filter fun m => absent = .shown || always.contains m.1 || !m.2.isNull)

def optional {α : Type} (write : α → Json) : Option α → Json
  | none => .null
  | some a => write a

def text (s : String) : Json := .text s

def date (d : Date) : Json := .text d.text

def list {α : Type} (write : α → Json) (items : List α) : Json := .array (items.map write)

def holding (row : HoldingRow) : Json :=
  .object [("account_id", .text row.accountId), ("account_name", .text row.accountName),
    ("amount", .text row.amount), ("balance_date", date row.date)]

def assetLine (absent : Absent) (line : AssetLine) : Json :=
  fields absent [] [("asset", line.asset.toJson), ("total_amount", .text line.totalAmount),
    ("amount_date", date line.amountDate), ("price", optional text line.price),
    ("price_date", optional date line.priceDate),
    ("price_timestamp", optional text line.priceTimestamp), ("fx_rate", optional text line.rate),
    ("fx_date", optional date line.rateDate), ("value_in_base", optional text line.value),
    ("holdings", optional (list holding) line.holdings)]

def accountLine (absent : Absent) (row : AccountRow) : Json :=
  fields absent [] [("account_id", .text row.accountId), ("account_name", .text row.accountName),
    ("connection_name", .text row.connectionName), ("value_in_base", optional text row.value)]

def snapshot (absent : Absent) (body : Snapshot) : Json :=
  fields absent [] [("as_of_date", date body.date), ("currency", .text body.currency),
    ("total_value", .text body.totalValue),
    ("by_asset", optional (list (assetLine absent)) body.byAsset),
    ("by_account", optional (list (accountLine absent)) body.byAccount)]

def summary (s : HistorySummary) : Json :=
  .object [("initial_value", .text s.initial), ("final_value", .text s.final),
    ("absolute_change", .text s.absoluteChange), ("percentage_change", .text s.percentageChange)]

def historyLine (absent : Absent) (line : HistoryLine) : Json :=
  fields absent [] [("timestamp", .text line.timestamp), ("date", date line.date),
    ("total_value", .text line.totalValue), ("change_triggers", optional (list text) line.triggers)]

/-- The members of a report that are there even without a value. -/
def bounds : List String := ["start_date", "end_date"]

def history (absent : Absent) (body : History) : Json :=
  fields absent bounds [("currency", .text body.currency), ("start_date", optional date body.first),
    ("end_date", optional date body.last), ("granularity", .text body.granularity),
    ("points", list (historyLine absent) body.points), ("summary", optional summary body.summary)]

def trigger : Trigger → Json
  | .balance accountId asset =>
    .object [("type", .text "balance"), ("account_id", .text accountId), ("asset", asset.toJson)]
  | .price assetId => .object [("type", .text "price"), ("asset_id", .text assetId.text)]
  | .rate base quote =>
    .object [("type", .text "fx_rate"), ("base", .text base), ("quote", .text quote)]

def changeLine (line : ChangeLine) : Json :=
  .object [("timestamp", .text line.timestamp), ("triggers", list trigger line.triggers)]

def changes (absent : Absent) (body : Changes) : Json :=
  fields absent bounds [("start_date", optional date body.first), ("end_date", optional date body.last),
    ("granularity", .text body.granularity), ("include_prices", .bool body.includePrices),
    ("points", list changeLine body.points)]

def instant (write : Timestamp → Option String) (t : Timestamp) : Except Failure String :=
  match write t with
  | some s => .ok s
  | none => .error .dateOutOfRange

def ofAssetRow (write : Timestamp → Option String) (row : AssetRow) : Except Failure AssetLine := do
  let captured ← AssetRow.optionally (instant write) row.priceTimestamp
  return ⟨row.asset, row.totalAmount, row.amountDate, row.price, row.priceDate, captured, row.rate,
    row.rateDate, row.value, row.holdings⟩

def ofValuation (write : Timestamp → Option String) (v : Valuation) : Except Failure Snapshot := do
  let assets ← AssetRow.optionally (List.mapM (ofAssetRow write)) v.byAsset
  return ⟨v.date, v.currency, v.totalValue, assets, v.byAccount⟩

def ofHistoryPoint (write : Timestamp → Option String) (p : HistoryPoint) :
    Except Failure HistoryLine := do
  return ⟨← instant write p.timestamp, p.date, p.totalValue, p.triggers⟩

def ofHistory (write : Timestamp → Option String) (r : HistoryReport) : Except Failure History := do
  return ⟨r.currency, r.range.first, r.range.last, r.granularity,
    ← r.points.mapM (ofHistoryPoint write), r.summary⟩

def ofChangePoint (write : Timestamp → Option String) (p : ChangePoint) :
    Except Failure ChangeLine := do
  return ⟨← instant write p.timestamp, p.triggers⟩

def ofChanges (write : Timestamp → Option String) (r : ChangeReport) : Except Failure Changes := do
  return ⟨r.range.first, r.range.last, r.granularity, r.includePrices,
    ← r.points.mapM (ofChangePoint write)⟩

end NetWorth.Body
