import NetWorth.Ledger
import NetWorth.Market
import NetWorth.Timeline.Collector

/-! # Collecting change points

Every balance of a participating account is a change at its own time. Prices of held assets and rates
into the target currency are changes at the end of the day they are for, so they come after the
balances of that day. -/
namespace NetWorth

structure CollectOptions where
  /-- The accounts to look at; none means all. -/
  accountIds : List String
  includePrices : Bool
  includeRates : Bool
  target : Option String
deriving DecidableEq, Repr

namespace Collection

def defaultOptions : CollectOptions := ⟨[], true, false, none⟩

/-- Requested accounts that are not known, each once, in ascending order. -/
def missingIds (requested : List String) (accounts : List Account) : List String :=
  ServiceFailure.sortedIds
    ((requested.filter fun id => !accounts.any (·.id = id)).eraseDups)

/-- The accounts to look at; a request for unknown ones is refused. -/
def chosenAccounts (requested : List String) (accounts : List Account) : Journaled (List Account) := do
  if requested.isEmpty then return accounts
  else
    let missing := missingIds requested accounts
    if missing.isEmpty then return accounts.filter fun a => requested.contains a.id
    else
      Journaled.note .warning .changePoints
        ("Change points requested for unknown accounts: " ++ Text.quotedList missing)
      Journaled.refuse (.unknownAccounts missing)

def addSnapshot (accountId : String) (collector : Collector) (snapshot : BalanceSnapshot) :
    Except Failure Collector :=
  snapshot.balances.foldlM (fun c b => c.addBalance snapshot.timestamp accountId b.asset) collector

def addAccount (ledger : LedgerReads) (collector : Collector) (account : Account) :
    Except Failure Collector := do
  let overrides := (← ledger.overrides account.id).getD .default
  if overrides.excluded then return collector
  else (← ledger.snapshots account.id).foldlM (addSnapshot account.id) collector

/-- A collector on its way through the market, and the currencies met so far. -/
structure Passage where
  collector : Collector
  currencies : List String

def addPriceOf (includePrices : Bool) (assetId : AssetId) (passage : Passage)
    (price : PriceObservation) : Except Failure Passage := do
  let currencies := Currency.normalize price.quoteCurrency :: passage.currencies
  if includePrices then
    return ⟨← passage.collector.addPrice (Timestamp.endOfDay price.date) assetId, currencies⟩
  else return ⟨passage.collector, currencies⟩

def currencyOf : Asset → List String
  | .currency code => [code]
  | _ => []

/-- Notes the currency of a held asset and adds its prices. Prices are read only if they matter. -/
def addHeld (market : MarketReads) (options : CollectOptions) (passage : Passage)
    (entry : AssetId × Asset) : Except Failure Passage := do
  let passage := { passage with currencies := currencyOf entry.2 ++ passage.currencies }
  if options.includePrices || options.includeRates then
    (← market.prices entry.1).foldlM (addPriceOf options.includePrices entry.1) passage
  else return passage

def heldInOrder (collector : Collector) : List (AssetId × Asset) :=
  collector.held.mergeSort fun a b => AssetId.le a.1 b.1

def addRatesOf (market : MarketReads) (target : String) (collector : Collector) (code : String) :
    Except Failure Collector := do
  (← market.rates code target).foldlM
    (fun c rate => c.addRate (Timestamp.endOfDay rate.date) code target) collector

/-- The currencies to convert from, each once, in ascending order. -/
def foreignCodes (currencies : List String) (target : String) : List String :=
  ((currencies.filter (· ≠ target)).eraseDups).mergeSort fun a b => decide (a ≤ b)

def addRates (market : MarketReads) (options : CollectOptions) (passage : Passage) :
    Except Failure Collector :=
  if options.includeRates then
    let target := Currency.normalize (options.target.getD "")
    (foreignCodes passage.currencies target).foldlM (addRatesOf market target) passage.collector
  else .ok passage.collector

def flagWord (flag : Bool) : String := if flag then "True" else "False"

def run (ledger : LedgerReads) (market : MarketReads) (options : CollectOptions) :
    Journaled (List ChangePoint) := do
  if options.includeRates && (options.target.getD "").isEmpty then
    Journaled.refuse
      (.validation "A target currency is required to collect FX change points" (some "currency"))
  else
    let known ← Journaled.of ledger.accounts
    let accounts ← chosenAccounts options.accountIds known
    let balances ← Journaled.of (accounts.foldlM (addAccount ledger) Collector.empty)
    let passage ← Journaled.of
      ((heldInOrder balances).foldlM (addHeld market options) ⟨balances, []⟩)
    let collector ← Journaled.of (addRates market options passage)
    let points ← Journaled.of collector.finish.1
    Journaled.note .info .changePoints ("Collected " ++ toString points.length
      ++ " change points from " ++ toString accounts.length ++ " accounts ("
      ++ toString balances.held.length ++ " held assets, prices=" ++ flagWord options.includePrices
      ++ ", fx=" ++ flagWord options.includeRates ++ ")")
    return points

end Collection

end NetWorth
