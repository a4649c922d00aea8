import NetWorth.Api.Body
import NetWorth.Check.Scalar

/-! # Reading bodies back

The checks of the bodies, member by member in the order in which they are written. -/
namespace NetWorth.Body

open Check

variable {α : Type}

/-- The kind of an object that is read by itself: it may be left out but must not be another. -/
def kindIs (word : String) (members : List (String × Json)) : Checked Unit :=
  withDefault "type" () (literal word) members

def currencyOf (members : List (String × Json)) : Checked Asset :=
  (fun _ code => .currency code) <$> kindIs "currency" members <*> required "iso_code" Check.text members

def equityOf (members : List (String × Json)) : Checked Asset :=
  (fun _ ticker exchange => .equity ticker exchange) <$> kindIs "equity" members
    <*> required "ticker" Check.text members <*> maybe "exchange" Check.text members

def cryptoOf (members : List (String × Json)) : Checked Asset :=
  (fun _ symbol network => .crypto symbol network) <$> kindIs "crypto" members
    <*> required "symbol" Check.text members <*> maybe "network" Check.text members

def asset : Check Asset :=
  tagged "type" [("currency", currencyOf), ("equity", equityOf), ("crypto", cryptoOf)]

def balanceTriggerOf (members : List (String × Json)) : Checked Trigger :=
  (fun _ accountId asset => .balance accountId asset) <$> kindIs "balance" members
    <*> required "account_id" Check.text members <*> required "asset" asset members

def priceTriggerOf (members : List (String × Json)) : Checked Trigger :=
  (fun _ id => .price ⟨id⟩) <$> kindIs "price" members <*> required "asset_id" Check.text members

def rateTriggerOf (members : List (String × Json)) : Checked Trigger :=
  (fun _ base quote => .rate base quote) <$> kindIs "fx_rate" members
    <*> required "base" Check.text members <*> required "quote" Check.text members

def triggerCheck : Check Trigger :=
  tagged "type" [("balance", balanceTriggerOf), ("price", priceTriggerOf), ("fx_rate", rateTriggerOf)]

def holdingOf (members : List (String × Json)) : Checked HoldingRow :=
  HoldingRow.mk <$> required "account_id" Check.text members
    <*> required "account_name" Check.text members <*> required "amount" Check.text members
    <*> required "balance_date" Check.date members

def holdingCheck : Check HoldingRow := object .notModel holdingOf

def assetLineOf (members : List (String × Json)) : Checked AssetLine :=
  AssetLine.mk <$> required "asset" asset members <*> required "total_amount" Check.text members
    <*> required "amount_date" Check.date members <*> maybe "price" Check.text members
    <*> maybe "price_date" Check.date members <*> maybe "price_timestamp" Check.text members
    <*> maybe "fx_rate" Check.text members <*> maybe "fx_date" Check.date members
    <*> maybe "value_in_base" Check.text members
    <*> maybe "holdings" (Check.list holdingCheck) members

def assetLineCheck : Check AssetLine := object .notModel assetLineOf

def accountLineOf (members : List (String × Json)) : Checked AccountRow :=
  AccountRow.mk <$> required "account_id" Check.text members
    <*> required "account_name" Check.text members <*> required "connection_name" Check.text members
    <*> maybe "value_in_base" Check.text members

def accountLineCheck : Check AccountRow := object .notModel accountLineOf

def snapshotOf (members : List (String × Json)) : Checked Snapshot :=
  Snapshot.mk <$> required "as_of_date" Check.date members <*> required "currency" Check.text members
    <*> required "total_value" Check.text members
    <*> maybe "by_asset" (Check.list assetLineCheck) members
    <*> maybe "by_account" (Check.list accountLineCheck) members

def snapshotCheck : Check Snapshot := object .notModel snapshotOf

def historyLineOf (members : List (String × Json)) : Checked HistoryLine :=
  HistoryLine.mk <$> required "timestamp" Check.text members <*> required "date" Check.date members
    <*> required "total_value" Check.text members
    <*> maybe "change_triggers" (Check.list Check.text) members

def historyLineCheck : Check HistoryLine := object .notModel historyLineOf

def summaryOf (members : List (String × Json)) : Checked HistorySummary :=
  HistorySummary.mk <$> required "initial_value" Check.text members
    <*> required "final_value" Check.text members <*> required "absolute_change" Check.text members
    <*> required "percentage_change" Check.text members

def summaryCheck : Check HistorySummary := object .notModel summaryOf

def historyOf (members : List (String × Json)) : Checked History :=
  History.mk <$> required "currency" Check.text members <*> maybe "start_date" Check.date members
    <*> maybe "end_date" Check.date members <*> required "granularity" Check.text members
    <*> withDefault "points" [] (Check.list historyLineCheck) members
    <*> maybe "summary" summaryCheck members

def historyCheck : Check History := object .notModel historyOf

def changeLineOf (members : List (String × Json)) : Checked ChangeLine :=
  ChangeLine.mk <$> required "timestamp" Check.text members
    <*> withDefault "triggers" [] (Check.list triggerCheck) members

def changeLineCheck : Check ChangeLine := object .notModel changeLineOf

def changesOf (members : List (String × Json)) : Checked Changes :=
  Changes.mk <$> maybe "start_date" Check.date members <*> maybe "end_date" Check.date members
    <*> required "granularity" Check.text members <*> required "include_prices" Check.boolean members
    <*> withDefault "points" [] (Check.list changeLineCheck) members

def changesCheck : Check Changes := object .notModel changesOf

end NetWorth.Body
