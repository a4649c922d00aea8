import NetWorth.Calendar.Timestamp
import NetWorth.Failure

/-! # Ranges of dates

The points whose date in universal time lies between two bounds, ends included. A missing bound does
not bind. -/
namespace NetWorth

structure DateRange where
  first : Option Date
  last : Option Date
deriving DecidableEq, Repr

namespace DateRange

def contains (range : DateRange) (date : Date) : Bool :=
  range.first.all (fun first => decide (first ≤ date))
    && range.last.all (fun last => decide (date ≤ last))

def isUnbounded (range : DateRange) : Bool := range.first.isNone && range.last.isNone

variable {α : Type}

/-- Whether a point lies in the range. -/
def holds (range : DateRange) (time : α → Timestamp) (point : α) : Except Failure Bool :=
  match (time point).utcDate? with
  | some date => .ok (range.contains date)
  | none => .error .dateOutOfRange

/-- The points in the range, in their order. Without bounds no date is looked at. -/
def keep (range : DateRange) (time : α → Timestamp) (points : List α) : Except Failure (List α) :=
  if range.isUnbounded then .ok points else points.filterM (range.holds time)

end DateRange

end NetWorth
