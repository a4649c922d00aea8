import NetWorth.Decimal.Extended
import NetWorth.Failure
import NetWorth.Json.Literal

/-! # Amounts

Amounts, prices and rates are supplied as texts or integers and are read as exact decimals when they
are needed. Values are reported in canonical form, rounded half away from zero if a number of places is
asked for. -/
namespace NetWorth.Amount

def invalid {α : Type} (value : Json) (field : Option String) : Except Failure α :=
  .error (.service (.invalidDecimal value.literal field))

/-- Reads a decimal. Floating-point numbers are refused, since they are not exact. -/
def read (value : Json) (field : Option String) : Except Failure Decimal :=
  match value with
  | .int n => .ok (Decimal.ofInt n)
  | .text s =>
    match Decimal.parse? s with
    | some d => .ok d
    | none => invalid value field
  | _ => invalid value field

def add (a b : Number) : Except Failure Number := ofSignal (a.add b)

def mul (a b : Number) : Except Failure Number := ofSignal (a.mul b)

def round (n : Number) (places : Int) : Except Failure Number :=
  if places < 0 then .error .negativePlaces else ofSignal (n.round places.toNat)

/-- The text of a reported value. -/
def format (value : Number) (places : Option Int) : Except Failure String :=
  match places with
  | none => .ok value.canonical
  | some n => (round value n).map Number.canonical

@[simp] theorem format_none (value : Number) : format value none = .ok value.canonical := rfl

end NetWorth.Amount
