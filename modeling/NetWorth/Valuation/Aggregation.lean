import NetWorth.Amount
import NetWorth.Asset.Identity
import NetWorth.Valuation.Selection

/-! # Holdings merged by asset

The balances of all accounts, gathered under the identity of their asset in the order in which the
identities appear. -/
namespace NetWorth

/-- One account's amount of an asset. -/
structure Holding where
  accountId : String
  amount : Decimal
  date : Date

/-- All holdings of an asset: their sum, the latest of their dates, and each of them. -/
structure Aggregate where
  asset : Asset
  total : Decimal
  latestDate : Date
  holdings : List Holding

namespace Aggregate

def single (asset : Asset) (holding : Holding) : Aggregate :=
  ⟨asset, holding.amount, holding.date, [holding]⟩

def addHolding (aggregate : Aggregate) (holding : Holding) : Except Failure Aggregate := do
  let total ← ofSignal (aggregate.total.add holding.amount)
  let latest := if aggregate.latestDate < holding.date then holding.date else aggregate.latestDate
  return { aggregate with
    total := total, latestDate := latest, holdings := aggregate.holdings ++ [holding] }

/-- Adds a holding under its asset's identity. -/
def enter (aggregates : Keyed AssetId Aggregate) (asset : Asset) (holding : Holding) :
    Except Failure (Keyed AssetId Aggregate) := do
  let id := AssetId.ofAsset asset
  let entry ← match Keyed.get? id aggregates with
    | none => .ok (single asset holding)
    | some aggregate => aggregate.addHolding holding
  return Keyed.put id entry aggregates

def enterBalance (accountId : String) (date : Date) (aggregates : Keyed AssetId Aggregate)
    (balance : Balance) : Except Failure (Keyed AssetId Aggregate) := do
  let asset ← balance.asset.normalize
  let amount ← Amount.read balance.amount (some "amount")
  enter aggregates asset ⟨accountId, amount, date⟩

def enterEffective (aggregates : Keyed AssetId Aggregate) (effective : EffectiveBalance) :
    Except Failure (Keyed AssetId Aggregate) := do
  let date ← effective.date
  effective.balances.foldlM (enterBalance effective.accountId date) aggregates

/-- The aggregates of all effective balances, under their identities in order of appearance. -/
def ofBalances (balances : List EffectiveBalance) : Except Failure (Keyed AssetId Aggregate) :=
  balances.foldlM enterEffective []

end Aggregate

end NetWorth
