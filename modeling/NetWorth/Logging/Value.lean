import NetWorth.Decimal.Extended
import NetWorth.Json.Literal

/-! # Values in log records

A record carries dynamic values, and numbers that are exact decimals. Messages show both, and a blank
value is as good as none. -/
namespace NetWorth

inductive LogValue where
  | dynamic (value : Json)
  | number (value : Number)

namespace LogValue

/-- Whether a value counts as nothing; of the numbers only zero does. -/
def isBlank : LogValue → Bool
  | .dynamic value => value.isBlank
  | .number n => n.isZero

def plain : LogValue → String
  | .dynamic value => value.plain
  | .number n => n.exact

def literal : LogValue → String
  | .dynamic value => value.literal
  | .number n => n.literal

def kindName : LogValue → String
  | .dynamic value => value.kindName
  | .number _ => "decimal.Decimal"

/-- A value in the JSON form of a record, where a number is told by its text. -/
def toJson : LogValue → Json
  | .dynamic value => value
  | .number n => .text n.exact

def integer? : LogValue → Option Int
  | .dynamic (.int n) => some n
  | .dynamic (.bool b) => some (if b then 1 else 0)
  | _ => none

end LogValue

end NetWorth
