import NetWorth.Amount
import NetWorth.Market

/-! # Resolution of unit values

What one unit of an asset is worth in a currency on a date. Only observations of that date count: of
prices the close, else the quote; of rates the direct one. What is missing leaves the value open. -/
namespace NetWorth

/-- A unit value with the observations behind it. A price may be known although its currency could not
be converted. -/
structure Resolution where
  unitValue : Option Number
  price : Option PriceObservation
  rate : Option RateObservation

namespace Resolution

def unresolved : Resolution := ⟨none, none, none⟩

def isResolved (resolution : Resolution) : Bool := resolution.unitValue.isSome

def valueOf (resolution : Resolution) (amount : Decimal) : Except Failure (Option Number) :=
  match resolution.unitValue with
  | none => .ok none
  | some unit => (Amount.mul (.finite amount) unit).map some

end Resolution

namespace MarketReads

/-- The kinds of price that value an asset, the preferred one first. -/
def valuationKinds : List PriceKind := [.close, .quote]

def firstPrice (market : MarketReads) (assetId : AssetId) (date : Date) :
    List PriceKind → Except Failure (Option PriceObservation)
  | [] => .ok none
  | kind :: rest => do
    match ← market.price assetId date kind with
    | some found => return some found
    | none => firstPrice market assetId date rest

def priceOf (market : MarketReads) (asset : Asset) (date : Date) :
    Journaled (Option PriceObservation) := do
  let assetId := AssetId.ofAsset asset
  match ← Journaled.of (market.firstPrice assetId date valuationKinds) with
  | some found => return some found
  | none =>
    Journaled.note .debug .resolver ("No price for " ++ assetId.text ++ " on " ++ date.text)
    return none

/-- The rate between two spellings of one currency. -/
def identityRate (code : String) (date : Date) : RateObservation :=
  ⟨code, code, date, Timestamp.endOfDay date, .text "1", RateKind.close.word, "identity"⟩

def rateBetween (market : MarketReads) (base quote : String) (date : Date) :
    Journaled (Option RateObservation) := do
  if Currency.same base quote then return some (identityRate (Currency.normalize base) date)
  else
    match ← Journaled.of
        (market.rate (Currency.normalize base) (Currency.normalize quote) date .close) with
    | some found => return some found
    | none =>
      Journaled.note .debug .resolver ("No FX rate " ++ base ++ "/" ++ quote ++ " on " ++ date.text)
      return none

def resolveCurrency (market : MarketReads) (code target : String) (date : Date) :
    Journaled Resolution := do
  if Currency.same code target then return ⟨some (.finite ⟨false, 1, 0⟩), none, none⟩
  else
    match ← market.rateBetween code target date with
    | none => return .unresolved
    | some rate =>
      let factor ← Journaled.of (Amount.read rate.rate (some "rate"))
      return ⟨some (.finite factor), none, some rate⟩

def resolvePriced (market : MarketReads) (asset : Asset) (target : String) (date : Date) :
    Journaled Resolution := do
  match ← market.priceOf asset date with
  | none => return .unresolved
  | some price =>
    let unitPrice ← Journaled.of (Amount.read price.price (some "price"))
    if Currency.same price.quoteCurrency target then
      return ⟨some (.finite unitPrice), some price, none⟩
    else
      match ← market.rateBetween price.quoteCurrency target date with
      | none => return ⟨none, some price, none⟩
      | some rate =>
        let factor ← Journaled.of (Amount.read rate.rate (some "rate"))
        let unit ← Journaled.of (Amount.mul (.finite unitPrice) (.finite factor))
        return ⟨some unit, some price, some rate⟩

def resolve (market : MarketReads) (asset : Asset) (target : String) (date : Date) :
    Journaled Resolution :=
  match asset with
  | .currency code => market.resolveCurrency code target date
  | _ => market.resolvePriced asset target date

end MarketReads

end NetWorth
