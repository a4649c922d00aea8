import NetWorth.Check.Scalar
import NetWorth.History.Timeline

/-! # Query parameters

The parameters of the endpoints. Of a parameter that is given several times the last value counts,
except for lists, which keep all of them. -/
namespace NetWorth

structure Request where
  method : String
  path : String
  params : List (String × String)
  headers : List (String × String)

structure SnapshotParams where
  currency : Option String
  date : Option String
  groupBy : String
  detail : Bool
  places : Option Int

structure TimelineParams where
  currency : Option String
  first : Option String
  last : Option String
  granularity : Option String
  includePrices : Bool
  includeRates : Bool
  accountIds : List String

namespace Request

def param? (request : Request) (name : String) : Option String :=
  (request.params.reverse.find? fun p => p.1 = name).map Prod.snd

/-- The members that checks see: each parameter with its last value. -/
def members (request : Request) : List (String × Json) :=
  Keyed.ofList (request.params.map fun p => (p.1, Json.text p.2))

def snapshotParams (request : Request) : Checked SnapshotParams :=
  (fun detail places => ⟨request.param? "currency", request.param? "date",
      (request.param? "group_by").getD "both", detail, places⟩)
    <$> Check.withDefault "detail" false Check.boolean request.members
    <*> Check.maybe "currency_decimals" (Check.integerBetween 0 12) request.members

def timelineParams (request : Request) : Checked TimelineParams :=
  (fun prices rates => ⟨request.param? "currency", request.param? "start", request.param? "end",
      request.param? "granularity", prices, rates,
      (request.params.filter fun p => p.1 = "account_id").map Prod.snd⟩)
    <$> Check.withDefault "include_prices" true Check.boolean request.members
    <*> Check.withDefault "include_fx" false Check.boolean request.members

/-- The first header of a name, whatever its case. -/
def header? (request : Request) (name : String) : Option String :=
  (request.headers.find? fun h => h.1.map Char.toLower = name.map Char.toLower).map Prod.snd

def correlationId? (request : Request) : Option String :=
  (["X-Correlation-ID", "X-Request-ID"].filterMap request.header?).find? fun v => v ≠ ""

end Request

end NetWorth
