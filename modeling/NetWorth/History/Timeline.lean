import NetWorth.Calendar.IsoDate
import NetWorth.Timeline.Collection
import NetWorth.Timeline.Granularity
import NetWorth.Timeline.Range

/-! # The timeline of a request

The bounds are read first, then the granularity; then the change points are collected, those outside
the bounds are dropped, and the last of each bucket is kept. -/
namespace NetWorth

/-- A bound as it is given: a date, or a text still to be read. -/
inductive DateBound where
  | date (date : Date)
  | text (value : String)
deriving DecidableEq, Repr

structure TimelineQuery where
  first : Option DateBound
  last : Option DateBound
  granularity : String
  includePrices : Bool
  includeRates : Bool
  accountIds : List String
  currency : Option String
deriving DecidableEq, Repr

def Date.read (value : String) (field : Option String) : Except Failure Date :=
  match Date.parse? value with
  | some date => .ok date
  | none => .error (.service (.invalidDate value field))

namespace DateBound

def read (field : String) : Option DateBound → Except Failure (Option Date)
  | none => .ok none
  | some (.date given) => .ok (some given)
  | some (.text value) => (Date.read value (some field)).map some

end DateBound

namespace TimelineQuery

/-- Reads both bounds; a first date after the last one is refused. -/
def range (query : TimelineQuery) : Except Failure DateRange := do
  let first ← DateBound.read "start" query.first
  let last ← DateBound.read "end" query.last
  match first, last with
  | some f, some l =>
    if l < f then
      .error (.service (.validation
        ("Start date " ++ f.text ++ " is after end date " ++ l.text) (some "start")))
    else .ok ⟨first, last⟩
  | _, _ => .ok ⟨first, last⟩

def options (query : TimelineQuery) : CollectOptions :=
  ⟨query.accountIds, query.includePrices, query.includeRates, query.currency⟩

def points (ledger : LedgerReads) (market : MarketReads) (query : TimelineQuery) (range : DateRange) :
    Journaled (List ChangePoint) := do
  let granularity ← Journaled.of (Granularity.parse query.granularity)
  let collected ← Collection.run ledger market query.options
  let kept ← Journaled.of (range.keep ChangePoint.timestamp collected)
  Journaled.of (granularity.thin .last ChangePoint.timestamp kept)

end TimelineQuery

end NetWorth
