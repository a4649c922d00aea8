import NetWorth.Calendar.Timestamp
import NetWorth.Failure
import NetWorth.Json

/-! # Counts of seconds

Spans and times that are given as a number of seconds, whole or in floating point. They are counted in
microseconds, halves going to the even neighbour. -/
namespace NetWorth.Seconds

inductive Uncountable where
  | notNumber (kind : String)
  | infinite
  | undefined
deriving DecidableEq, Repr

/-- Counts seconds; `finite` counts those of a finite number in floating point, and an integer counts
`unit` for each of them. -/
def count (unit : Int) (finite : Binary64 → Int) : Json → Except Uncountable Int
  | .int n => .ok (n * unit)
  | .bool b => .ok (if b then unit else 0)
  | .float (.finite x) => .ok (finite x)
  | .float (.infinite _) => .error .infinite
  | .float .undefined => .error .undefined
  | value => .error (.notNumber value.kindName)

def micros (seconds : Json) : Except Uncountable Int :=
  count 1000000 (fun x => x.truncate * 1000000 + x.withSign x.fractionMillionths) seconds

def floor (seconds : Json) : Except Uncountable Int := count 1 Binary64.floor seconds

def greatestDays : Int := 999999999

/-- A span in microseconds. One of a billion days is refused. -/
def span (seconds : Json) : Except Failure Int :=
  match micros seconds with
  | .error (.notNumber kind) => .error (.spanNotNumber kind)
  | .error .infinite => .error .spanTooLong
  | .error .undefined => .error .spanUndefined
  | .ok micros =>
    let days := Int.fdiv micros Timestamp.microsPerDay
    if -greatestDays ≤ days ∧ days ≤ greatestDays then .ok micros else .error .spanTooLong

def whole (micros : Int) : Int :=
  ((Binary64.nearest? (decide (micros < 0)) micros.natAbs 1000000).map Binary64.truncate).getD 0

end NetWorth.Seconds
