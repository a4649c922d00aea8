import NetWorth.Asset.Identity
import NetWorth.Calendar.Wire
import NetWorth.Journal

/-! # Market observations

Prices of assets and exchange rates of currencies on a date. A store keeps one observation under each
asset or pair, date and kind; a later one replaces it. Currency codes are kept trimmed and in upper
case. Valuation sees a store through its reads, any of which may fail. -/
namespace NetWorth

inductive PriceKind where
  | close
  | adjustedClose
  | quote
deriving DecidableEq, Repr

inductive RateKind where
  | close
deriving DecidableEq, Repr

def PriceKind.word : PriceKind → String
  | .close => "close"
  | .adjustedClose => "adj_close"
  | .quote => "quote"

def PriceKind.ofWord (word : String) : Except Failure PriceKind :=
  if word = "close" then .ok .close
  else if word = "adj_close" then .ok .adjustedClose
  else if word = "quote" then .ok .quote
  else .error (.unknownWord word .priceKind)

def RateKind.word : RateKind → String
  | .close => "close"

def RateKind.ofWord (word : String) : Except Failure RateKind :=
  if word = "close" then .ok .close else .error (.unknownWord word .rateKind)

/-- The price of one unit of an asset. Price and kind are kept as they were supplied. -/
structure PriceObservation where
  assetId : AssetId
  date : Date
  timestamp : Timestamp
  price : Json
  quoteCurrency : String
  kind : String
  source : String

structure RateObservation where
  base : String
  quote : String
  date : Date
  timestamp : Timestamp
  rate : Json
  kind : String
  source : String

structure MarketStore where
  prices : Keyed (AssetId × Date × PriceKind) PriceObservation
  rates : Keyed (String × String × Date × RateKind) RateObservation

/-- What valuation reads of prices and rates. -/
structure MarketReads where
  price : AssetId → Date → PriceKind → Except Failure (Option PriceObservation)
  prices : AssetId → Except Failure (List PriceObservation)
  rate : String → String → Date → RateKind → Except Failure (Option RateObservation)
  rates : String → String → Except Failure (List RateObservation)

namespace MarketStore

def empty : MarketStore := ⟨[], []⟩

def putPrice (store : MarketStore) (price : PriceObservation) : Except Failure MarketStore := do
  let kind ← PriceKind.ofWord price.kind
  return { store with prices := Keyed.put (price.assetId, price.date, kind) price store.prices }

def normalRate (rate : RateObservation) : RateObservation :=
  { rate with base := Currency.storeKey rate.base, quote := Currency.storeKey rate.quote }

def putRate (store : MarketStore) (rate : RateObservation) : Except Failure MarketStore := do
  let kept := normalRate rate
  let kind ← RateKind.ofWord rate.kind
  return { store with rates := Keyed.put (kept.base, kept.quote, kept.date, kind) kept store.rates }

/-- Stores one after another. The first refusal ends the batch; what was stored before it stays. -/
def putAll {α : Type} (put : MarketStore → α → Except Failure MarketStore) :
    MarketStore → List α → MarketStore × Except Failure Unit
  | store, [] => (store, .ok ())
  | store, a :: rest =>
    match put store a with
    | .ok next => putAll put next rest
    | .error failure => (store, .error failure)

def putPrices (store : MarketStore) (prices : List PriceObservation) :
    MarketStore × Except Failure Unit := putAll putPrice store prices

def putRates (store : MarketStore) (rates : List RateObservation) :
    MarketStore × Except Failure Unit := putAll putRate store rates

def price? (store : MarketStore) (assetId : AssetId) (date : Date) (kind : PriceKind) :
    Option PriceObservation := Keyed.get? (assetId, date, kind) store.prices

/-- The prices of an asset in the order in which their keys were first written. -/
def pricesOf (store : MarketStore) (assetId : AssetId) : List PriceObservation :=
  (store.prices.filter fun e => e.1.1 = assetId).map Prod.snd

def rate? (store : MarketStore) (base quote : String) (date : Date) (kind : RateKind) :
    Option RateObservation :=
  Keyed.get? (Currency.storeKey base, Currency.storeKey quote, date, kind) store.rates

/-- The rates of a pair in the order in which their keys were first written. -/
def ratesOf (store : MarketStore) (base quote : String) : List RateObservation :=
  (store.rates.filter fun e =>
    e.1.1 = Currency.storeKey base && e.1.2.1 = Currency.storeKey quote).map Prod.snd

def reads (store : MarketStore) : MarketReads where
  price := fun id date kind => .ok (store.price? id date kind)
  prices := fun id => .ok (store.pricesOf id)
  rate := fun base quote date kind => .ok (store.rate? base quote date kind)
  rates := fun base quote => .ok (store.ratesOf base quote)

end MarketStore

end NetWorth
