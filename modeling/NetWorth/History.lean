import NetWorth.History.Summary
import NetWorth.History.Timeline
import NetWorth.Valuation

/-! # Histories and change reports

A change report is the timeline of a request as it stands. A history also values each of its points as
of the point's date; points of one date share one valuation. -/
namespace NetWorth

structure HistoryPoint where
  timestamp : Timestamp
  date : Date
  totalValue : String
  /-- Descriptions of what changed; none if nothing did. -/
  triggers : Option (List String)
deriving DecidableEq, Repr

structure HistoryQuery where
  timeline : TimelineQuery
  currency : String
  places : Option Int
deriving DecidableEq, Repr

structure HistoryReport where
  currency : String
  range : DateRange
  granularity : String
  points : List HistoryPoint
  summary : Option HistorySummary
deriving DecidableEq, Repr

structure ChangeReport where
  range : DateRange
  granularity : String
  includePrices : Bool
  points : List ChangePoint
deriving DecidableEq, Repr

namespace HistoryQuery

def make (timeline : TimelineQuery) (currency : String) (places : Option Int) : HistoryQuery :=
  ⟨{ timeline with currency := some currency }, currency, places⟩

def valuationQuery (query : HistoryQuery) (date : Date) : ValuationQuery :=
  ⟨date, query.currency, some Grouping.asset.word, false, query.places⟩

end HistoryQuery

namespace HistoryReport

/-- The value of the portfolio on a date, taken from the values of the dates met if it is there. -/
def totalOn (ledger : LedgerReads) (market : MarketReads) (query : HistoryQuery)
    (totals : Keyed Date String) (date : Date) : Journaled String :=
  match Keyed.get? date totals with
  | some total => pure total
  | none => do
    let valuation ← Valuation.run ledger market (query.valuationQuery date)
    return valuation.totalValue

/-- Values one point behind those valued so far; `totals` holds the values of the dates met. -/
def valuePoint (ledger : LedgerReads) (market : MarketReads) (query : HistoryQuery)
    (state : Keyed Date String × List HistoryPoint) (point : ChangePoint) :
    Journaled (Keyed Date String × List HistoryPoint) := do
  let (totals, done) := state
  match point.timestamp.utcDate? with
  | none => .fail .dateOutOfRange
  | some date =>
    let total ← totalOn ledger market query totals date
    let triggers := point.triggers.map Trigger.text
    let valued : HistoryPoint :=
      ⟨point.timestamp, date, total, if triggers.isEmpty then none else some triggers⟩
    return (Keyed.put date total totals, done ++ [valued])

def openEnd : Option Date → String
  | none => "open"
  | some date => date.text

def run (ledger : LedgerReads) (market : MarketReads) (query : HistoryQuery) :
    Journaled HistoryReport := do
  let range ← Journaled.of query.timeline.range
  let timeline ← query.timeline.points ledger market range
  let (_, points) ← timeline.foldlM (valuePoint ledger market query) ([], [])
  Journaled.note .info .history ("History in " ++ query.currency ++ ": " ++ toString points.length
    ++ " points (" ++ openEnd range.first ++ " to " ++ openEnd range.last ++ ", granularity="
    ++ query.timeline.granularity ++ ")")
  let summary ← Journaled.of (HistorySummary.ofValues (points.map (·.totalValue)))
  return ⟨query.currency, range, query.timeline.granularity, points, summary⟩

end HistoryReport

namespace ChangeReport

def run (ledger : LedgerReads) (market : MarketReads) (query : TimelineQuery) :
    Journaled ChangeReport := do
  let range ← Journaled.of query.range
  let points ← query.points ledger market range
  return ⟨range, query.granularity, query.includePrices, points⟩

end ChangeReport

end NetWorth
