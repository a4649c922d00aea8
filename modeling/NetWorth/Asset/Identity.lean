import NetWorth.Asset
import NetWorth.Text.Printable

/-! # Asset identities

Two spellings name one asset when their identities agree. An identity is a path: the kind of asset and
one or two segments, none of which can leave its directory. -/
namespace NetWorth

/-- Separators and what cannot be printed become hyphens. -/
def segmentChar (c : Char) : Char :=
  if c = '/' || c = '\\' || !Text.isPrintable c then '-' else c

def segmentChars (cs : List Char) : List Char :=
  let safe := (Text.trimChars cs).map segmentChar
  if safe = [] || safe = ['.'] || safe = ['.', '.'] then ['_'] else safe

/-- One segment of a path; a segment that would be empty or name a directory becomes an underscore. -/
def pathSegment (s : String) : String := String.ofList (segmentChars s.toList)

structure AssetId where
  text : String
deriving DecidableEq, Repr

namespace AssetId

def ofSegments (kind : String) (segments : List String) : AssetId :=
  ⟨String.intercalate "/" (kind :: segments)⟩

/-- The segments of an asset in normal form. -/
def segments : Asset → List String
  | .currency code => [Text.upper (pathSegment code)]
  | .equity ticker exchange =>
    Text.upper (pathSegment ticker) :: (exchange.map fun s => Text.upper (pathSegment s)).toList
  | .crypto symbol network =>
    Text.upper (pathSegment symbol) :: (network.map fun s => Text.lower (pathSegment s)).toList

def kind : Asset → String
  | .currency _ => "currency"
  | .equity _ _ => "equity"
  | .crypto _ _ => "crypto"

def ofAsset (asset : Asset) : AssetId := ofSegments (kind asset) (segments asset.normalize)

def ofRecord (record : AssetRecord) : Except Failure AssetId := record.asset.map ofAsset

@[simp] theorem ofRecord_known (a : Asset) : ofRecord (.known a) = .ok (ofAsset a) := rfl

/-- Identities are ordered by their text, code point by code point. -/
def le (a b : AssetId) : Bool := decide (a.text ≤ b.text)

def sort (ids : List AssetId) : List AssetId := ids.mergeSort le

end AssetId

def Asset.same (a b : Asset) : Bool := AssetId.ofAsset a = AssetId.ofAsset b

end NetWorth
