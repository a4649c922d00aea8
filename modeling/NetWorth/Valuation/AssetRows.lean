import NetWorth.Market.Resolution
import NetWorth.Valuation.Aggregation

/-! # The breakdown by asset

One row per asset in the order of identities, and the total of the values that are known. An asset
without a known value has its row but adds nothing. -/
namespace NetWorth

/-- One account's share of an asset. -/
structure HoldingRow where
  accountId : String
  accountName : String
  amount : String
  date : Date
deriving DecidableEq, Repr

structure AssetRow where
  asset : Asset
  totalAmount : String
  amountDate : Date
  price : Option String
  priceDate : Option Date
  priceTimestamp : Option Timestamp
  rate : Option String
  rateDate : Option Date
  value : Option String
  holdings : Option (List HoldingRow)
deriving DecidableEq, Repr

namespace AssetRow

def holdingRow (names : Keyed String String) (holding : Holding) : HoldingRow :=
  ⟨holding.accountId, (Keyed.get? holding.accountId names).getD "", holding.amount.canonical,
    holding.date⟩

/-- The canonical text of an observed price or rate. -/
def observedText (value : Json) : Except Failure String := (Amount.read value none).map Decimal.canonical

def optionally {α β : Type} (f : α → Except Failure β) : Option α → Except Failure (Option β)
  | none => .ok none
  | some a => (f a).map some

def ofAggregate (aggregate : Aggregate) (resolution : Resolution) (value : Option Number)
    (holdings : Option (List HoldingRow)) (places : Option Int) : Except Failure AssetRow := do
  let price ← optionally (fun p : PriceObservation => observedText p.price) resolution.price
  let rate ← optionally (fun r : RateObservation => observedText r.rate) resolution.rate
  let valueText ← optionally (Amount.format · places) value
  return {
    asset := aggregate.asset
    totalAmount := aggregate.total.canonical
    amountDate := aggregate.latestDate
    price := price
    priceDate := resolution.price.map (·.date)
    priceTimestamp := resolution.price.map (·.timestamp)
    rate := rate
    rateDate := resolution.rate.map (·.date)
    value := valueText
    holdings := holdings }

def resolutionOf (resolutions : Keyed AssetId Resolution) (id : AssetId) : Except Failure Resolution :=
  match Keyed.get? id resolutions with
  | some resolution => .ok resolution
  | none => .error (.unresolvedAsset id.text)

def addValue (total : Number) : Option Number → Except Failure Number
  | none => .ok total
  | some value => Amount.add total value

def addRow (resolutions : Keyed AssetId Resolution) (names : Keyed String String) (detail : Bool)
    (places : Option Int) (state : List AssetRow × Number) (entry : AssetId × Aggregate) :
    Except Failure (List AssetRow × Number) := do
  let resolution ← resolutionOf resolutions entry.1
  let value ← resolution.valueOf entry.2.total
  let total ← addValue state.2 value
  let holdings := if detail then some (entry.2.holdings.map (holdingRow names)) else none
  let row ← ofAggregate entry.2 resolution value holdings places
  return (state.1 ++ [row], total)

def byIdentity (aggregates : Keyed AssetId Aggregate) : List (AssetId × Aggregate) :=
  aggregates.mergeSort fun a b => AssetId.le a.1 b.1

/-- The rows of all assets and the sum of the known values. -/
def breakdown (aggregates : Keyed AssetId Aggregate) (resolutions : Keyed AssetId Resolution)
    (names : Keyed String String) (detail : Bool) (places : Option Int) :
    Except Failure (List AssetRow × Number) :=
  (byIdentity aggregates).foldlM (addRow resolutions names detail places) ([], .finite .zero)

end AssetRow

end NetWorth
