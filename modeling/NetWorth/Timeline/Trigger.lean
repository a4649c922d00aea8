import NetWorth.Asset.Identity
import NetWorth.Calendar.Timestamp
import NetWorth.Json.Writer

/-! # Change points

An instant at which the worth of a portfolio may have changed, with everything that happened then: a
balance was recorded, a price was observed, an exchange rate was observed. -/
namespace NetWorth

inductive Trigger where
  | balance (accountId : String) (asset : Asset)
  | price (assetId : AssetId)
  | rate (base quote : String)
deriving DecidableEq, Repr

structure ChangePoint where
  timestamp : Timestamp
  triggers : List Trigger
deriving DecidableEq, Repr

namespace Trigger

/-- The one-line description; an asset is described by compact JSON. -/
def text : Trigger → String
  | .balance accountId asset => "balance:" ++ accountId ++ ":" ++ Json.compact asset.toJson
  | .price assetId => "price:" ++ assetId.text
  | .rate base quote => "fx:" ++ base ++ "/" ++ quote

def pricedAsset? : Trigger → Option AssetId
  | .price assetId => some assetId
  | _ => none

/-- Puts the given identities, one after another, into the places of the price triggers. -/
def refill : List AssetId → List Trigger → List Trigger
  | id :: ids, .price _ :: rest => .price id :: refill ids rest
  | ids, trigger :: rest => trigger :: refill ids rest
  | _, [] => []

/-- Price triggers in the order of identities among themselves; all others stay where they are. -/
def arrange (triggers : List Trigger) : List Trigger :=
  refill (AssetId.sort (triggers.filterMap pricedAsset?)) triggers

end Trigger

end NetWorth
