import NetWorth.Valuation.AccountRows
import NetWorth.Valuation.Grouping

/-! # Valuation

What a portfolio is worth on a date in a currency: an effective balance per participating account, the
holdings merged by asset, one unit value per asset, the rows of both breakdowns, and the total. -/
namespace NetWorth

structure ValuationQuery where
  date : Date
  currency : String
  grouping : Option String
  detail : Bool
  places : Option Int

structure Valuation where
  date : Date
  currency : String
  totalValue : String
  byAsset : Option (List AssetRow)
  byAccount : Option (List AccountRow)
deriving DecidableEq, Repr

namespace Valuation

/-- The balance of one account; none if it is excluded or has nothing to contribute. -/
def effectiveBalance (ledger : LedgerReads) (query : ValuationQuery) (account : Account) :
    Journaled (Option EffectiveBalance) := do
  let overrides := (← Journaled.of (ledger.overrides account.id)).getD .default
  if overrides.excluded then return none
  else
    let snapshots ← Journaled.of (ledger.snapshots account.id)
    let policy ← Journaled.of (Backfill.ofWord overrides.backfill)
    EffectiveBalance.select account.id snapshots policy query.date query.currency

def effectiveBalances (ledger : LedgerReads) (query : ValuationQuery) (accounts : List Account) :
    Journaled (List EffectiveBalance) := do
  return (← accounts.mapM (effectiveBalance ledger query)).filterMap id

def resolutions (market : MarketReads) (query : ValuationQuery) (aggregates : Keyed AssetId Aggregate) :
    Journaled (Keyed AssetId Resolution) :=
  aggregates.mapM fun entry => do
    return (entry.1, ← market.resolve entry.2.asset query.currency query.date)

def summaryLine (query : ValuationQuery) (balances : List EffectiveBalance)
    (resolutions : Keyed AssetId Resolution) : String :=
  let backfilled := (balances.filter fun b => b.backfill.isSome).length
  let unresolved := (resolutions.filter fun r => !r.2.isResolved).length
  "Snapshot " ++ query.date.text ++ " in " ++ query.currency ++ ": "
    ++ toString balances.length ++ " accounts (" ++ toString backfilled ++ " backfilled), "
    ++ toString resolutions.length ++ " assets, " ++ toString unresolved ++ " unresolved"

/-- Values a portfolio. Missing prices and rates leave values open; they never fail. -/
def run (ledger : LedgerReads) (market : MarketReads) (query : ValuationQuery) :
    Journaled Valuation := do
  let grouping ← Grouping.read query.grouping
  let accounts ← Journaled.of ledger.accounts
  let connections ← Journaled.of ledger.connections
  let balances ← effectiveBalances ledger query accounts
  let aggregates ← Journaled.of (Aggregate.ofBalances balances)
  let resolutions ← resolutions market query aggregates
  let names := Keyed.ofList (accounts.map fun a => (a.id, a.name))
  let (assetRows, total) ← Journaled.of
    (AssetRow.breakdown aggregates resolutions names query.detail query.places)
  let accountRows ←
    if grouping.includesAccounts then
      some <$> AccountRow.breakdown balances resolutions
        (Keyed.ofList (accounts.map fun a => (a.id, a)))
        (Keyed.ofList (connections.map fun c => (c.id, c))) query.places
    else pure none
  Journaled.note .info .valuation (summaryLine query balances resolutions)
  let totalValue ← Journaled.of (Amount.format total query.places)
  return ⟨query.date, query.currency, totalValue,
    if grouping.includesAssets then some assetRows else none, accountRows⟩

end Valuation

end NetWorth
