import NetWorth.Ledger

/-! # The balance that counts

On a date an account is worth its latest snapshot by the end of that day, the first recorded of equals.
Without one its backfill policy decides: nothing, a zero in the reporting currency, or the earliest
snapshot of all. -/
namespace NetWorth

/-- The balances that an account contributes to a valuation, and the policy behind them if they were
not observed by then. -/
structure EffectiveBalance where
  accountId : String
  timestamp : Timestamp
  balances : List Balance
  backfill : Option Backfill

namespace EffectiveBalance

def date (effective : EffectiveBalance) : Except Failure Date :=
  match effective.timestamp.utcDate? with
  | some date => .ok date
  | none => .error .dateOutOfRange

end EffectiveBalance

namespace BalanceSnapshot

/-- The first of the latest snapshots. -/
def latest : List BalanceSnapshot → Option BalanceSnapshot
  | [] => none
  | s :: rest =>
    match latest rest with
    | none => some s
    | some t => if s.timestamp.instant < t.timestamp.instant then some t else some s

def earliest : List BalanceSnapshot → Option BalanceSnapshot
  | [] => none
  | s :: rest =>
    match earliest rest with
    | none => some s
    | some t => if t.timestamp.instant < s.timestamp.instant then some t else some s

def takenBy (snapshots : List BalanceSnapshot) (date : Date) : List BalanceSnapshot :=
  snapshots.filter fun s => s.timestamp.instant ≤ (Timestamp.endOfDay date).instant

end BalanceSnapshot

namespace EffectiveBalance

def ofSnapshot (accountId : String) (backfill : Option Backfill) (snapshot : BalanceSnapshot) :
    EffectiveBalance :=
  ⟨accountId, snapshot.timestamp, snapshot.balances, backfill⟩

def zero (accountId : String) (date : Date) (currency : String) : EffectiveBalance :=
  ⟨accountId, .endOfDay date, [⟨.known (.currency currency), .text "0"⟩], some .zero⟩

/-- What an account contributes on a date. -/
def choose (accountId : String) (snapshots : List BalanceSnapshot) (policy : Backfill) (date : Date)
    (currency : String) : Option EffectiveBalance :=
  match BalanceSnapshot.latest (BalanceSnapshot.takenBy snapshots date) with
  | some snapshot => some (ofSnapshot accountId none snapshot)
  | none =>
    match policy with
    | .none => none
    | .zero => some (zero accountId date currency)
    | .carryEarliest =>
      (BalanceSnapshot.earliest snapshots).map (ofSnapshot accountId (some .carryEarliest))

def remark : Option EffectiveBalance → Option String
  | none => some "skipped"
  | some effective =>
    match effective.backfill with
    | none | some .none => none
    | some .zero => some "backfilling zero"
    | some .carryEarliest => some ("carrying earliest snapshot from " ++ effective.timestamp.localText)

def select (accountId : String) (snapshots : List BalanceSnapshot) (policy : Backfill) (date : Date)
    (currency : String) : Journaled (Option EffectiveBalance) := do
  let chosen := choose accountId snapshots policy date currency
  match remark chosen with
  | none => return chosen
  | some text =>
    Journaled.note .debug .calculators
      ("Account " ++ accountId ++ ": no balance by " ++ date.text ++ ", " ++ text)
    return chosen

end EffectiveBalance

end NetWorth
