import NetWorth.Amount

/-! # Comparing the ends of a history

The first value, the last one, and the change between them, absolute and in percent. -/
namespace NetWorth

structure HistorySummary where
  initial : String
  final : String
  absoluteChange : String
  percentageChange : String
deriving DecidableEq, Repr

namespace HistorySummary

/-- The relative change in percent with two places; there is none from zero. -/
def percentage (initial final : Decimal) : Except Failure String :=
  ofSignal (Number.percentageChange (.finite initial) (.finite final))

def ofEnds (first last : String) : Except Failure HistorySummary := do
  let initial ← Amount.read (.text first) none
  let final ← Amount.read (.text last) none
  let change ← ofSignal (final.sub initial)
  let percent ← percentage initial final
  return ⟨initial.canonical, final.canonical, change.canonical, percent⟩

def ofValues (values : List String) : Except Failure (Option HistorySummary) :=
  match values with
  | first :: second :: rest => (ofEnds first ((second :: rest).getLast (by simp))).map some
  | _ => .ok none

end HistorySummary

end NetWorth
