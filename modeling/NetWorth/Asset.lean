import NetWorth.Currency
import NetWorth.Failure
import NetWorth.Json
import NetWorth.Json.Literal

/-! # Assets

What an account can hold: a currency, a listed security with or without its exchange, a crypto token
with or without its network. Records may also hold a value that is no asset; it is kept as it is and
refused where an asset is needed. -/
namespace NetWorth

inductive Asset where
  | currency (code : String)
  | equity (ticker : String) (exchange : Option String)
  | crypto (symbol : String) (network : Option String)
deriving DecidableEq, Repr

namespace Asset

/-- A qualifier that is blank counts as absent. -/
def qualifier? (text : Option String) : Option String :=
  (text.map Text.trim).filter fun s => s ≠ ""

/-- The spelling that stands for all spellings of an asset. -/
def normalize : Asset → Asset
  | .currency code => .currency (Currency.normalize code)
  | .equity ticker exchange =>
    .equity (Text.upper (Text.trim ticker)) ((qualifier? exchange).map Text.upper)
  | .crypto symbol network =>
    .crypto (Text.upper (Text.trim symbol)) ((qualifier? network).map Text.lower)

def optionalMember (name : String) : Option String → List (String × Json)
  | none => []
  | some s => [(name, .text s)]

/-- The members of an asset's description: its kind first, absent qualifiers left out. -/
def toJson : Asset → Json
  | .currency code => .object [("type", .text "currency"), ("iso_code", .text code)]
  | .equity ticker exchange =>
    .object ([("type", .text "equity"), ("ticker", .text ticker)] ++ optionalMember "exchange" exchange)
  | .crypto symbol network =>
    .object ([("type", .text "crypto"), ("symbol", .text symbol)] ++ optionalMember "network" network)

end Asset

/-- What stands in a record where an asset is expected. -/
inductive AssetRecord where
  | known (asset : Asset)
  | unrecognised (value : Json)

namespace AssetRecord

def asset : AssetRecord → Except Failure Asset
  | .known asset => .ok asset
  | .unrecognised value => .error (.unsupportedAsset value.kindName)

def toJson : AssetRecord → Json
  | .known asset => asset.toJson
  | .unrecognised value => value

def normalize (record : AssetRecord) : Except Failure Asset := record.asset.map Asset.normalize

@[simp] theorem asset_known (a : Asset) : (known a).asset = .ok a := rfl
@[simp] theorem normalize_known (a : Asset) : (known a).normalize = .ok a.normalize := rfl

end AssetRecord

end NetWorth
