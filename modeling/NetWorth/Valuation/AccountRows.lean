import NetWorth.Valuation.AssetRows

/-! # The breakdown by account

One row per account whose connection is known, in the order of names. The value of an account is the
sum over its own balances; it is left out when one of them has no known value, so a partial sum is never
reported. -/
namespace NetWorth

structure AccountRow where
  accountId : String
  accountName : String
  connectionName : String
  value : Option String
deriving DecidableEq, Repr

namespace AccountRow

/-- The sum of the known values so far, and whether one was missing. -/
structure Sum where
  total : Number
  missing : Bool

def addBalance (resolutions : Keyed AssetId Resolution) (sum : Sum) (balance : Balance) :
    Except Failure Sum := do
  let id ← AssetId.ofRecord balance.asset
  let resolution ← AssetRow.resolutionOf resolutions id
  let amount ← Amount.read balance.amount (some "amount")
  match ← resolution.valueOf amount with
  | none => return { sum with missing := true }
  | some value => return { sum with total := ← Amount.add sum.total value }

def ofBalances (resolutions : Keyed AssetId Resolution) (account : Account) (connection : Connection)
    (places : Option Int) (balances : List Balance) : Except Failure AccountRow := do
  let sum ← balances.foldlM (addBalance resolutions) ⟨.finite .zero, false⟩
  let value ← if sum.missing then .ok none else (Amount.format sum.total places).map some
  return ⟨account.id, account.name, connection.name, value⟩

/-- The row of one effective balance; none for an account or a connection that is not known. -/
def ofEffective (resolutions : Keyed AssetId Resolution) (accounts : Keyed String Account)
    (connections : Keyed String Connection) (places : Option Int) (effective : EffectiveBalance) :
    Journaled (Option AccountRow) := do
  match Keyed.get? effective.accountId accounts with
  | none => return none
  | some account =>
    match Keyed.get? account.connectionId connections with
    | none =>
      Journaled.note .debug .calculators ("Account " ++ account.id ++ ": connection "
        ++ account.connectionId ++ " not found, omitted from by_account")
      return none
    | some connection =>
      return some (← .of (ofBalances resolutions account connection places effective.balances))

/-- Rows are ordered by name, those of one name by identifier. -/
def le (a b : AccountRow) : Bool :=
  a.accountName < b.accountName || (a.accountName = b.accountName && a.accountId ≤ b.accountId)

def breakdown (balances : List EffectiveBalance) (resolutions : Keyed AssetId Resolution)
    (accounts : Keyed String Account) (connections : Keyed String Connection) (places : Option Int) :
    Journaled (List AccountRow) := do
  let rows ← balances.mapM (ofEffective resolutions accounts connections places)
  return (rows.filterMap id).mergeSort le

end AccountRow

end NetWorth
