import NetWorth.Decimal.Context

/-! # Addition, multiplication and division

Each operation forms a result that rounds like the exact one and brings it into the context. -/
namespace NetWorth.Decimal

-- powers are those of the core library
attribute [local instance (high)] instPowNat

/-- The sum on the finer of the two grids. A sum of zero is negative only if both numbers are. -/
def exactAdd (a b : Decimal) : Decimal :=
  let exponent := min a.exponent b.exponent
  let sum := a.onGrid exponent + b.onGrid exponent
  ⟨if sum = 0 then a.negative && b.negative else sum < 0, sum.natAbs, exponent⟩

/-- Replaces a number that only nudges a sum by another with the same effect. Beside `large`, whatever
lies below two more digits than the precision keeps only its sign and whether it is zero. -/
def nudge (large small : Decimal) : Decimal :=
  let floor := large.exponent + min (-1) (Text.digitCount large.coefficient - precision - 2 : Int)
  if large.coefficient ≠ 0 ∧ small.leadingExponent < floor then
    ⟨small.negative, if small.coefficient = 0 then 0 else 1, floor⟩
  else small

def add (a b : Decimal) : Except Signal Decimal :=
  finish (if a.exponent < b.exponent then exactAdd (nudge b a) b else exactAdd a (nudge a b))

def sub (a b : Decimal) : Except Signal Decimal := add a b.neg

def mul (a b : Decimal) : Except Signal Decimal :=
  finish ⟨a.negative != b.negative, a.coefficient * b.coefficient, a.exponent + b.exponent⟩

/-- Drops at most `limit` trailing zeros of a coefficient, raising its exponent by each. -/
def dropZeros : Nat → Nat → Int → Nat × Int
  | 0, coefficient, exponent => (coefficient, exponent)
  | limit + 1, coefficient, exponent =>
    if coefficient % 10 = 0 then dropZeros limit (coefficient / 10) (exponent + 1)
    else (coefficient, exponent)

/-- A quotient of at least 29 digits that rounds like the exact one: if a remainder is left, the last
digit is kept away from 0 and 5. An exact quotient gives up its trailing zeros down to the difference
of the exponents. -/
def quotient (a b : Decimal) : Nat × Int :=
  let ideal := a.exponent - b.exponent
  if a.coefficient = 0 then (0, ideal)
  else
    let shift : Int := Text.digitCount b.coefficient - Text.digitCount a.coefficient + precision + 1
    let above := a.coefficient * 10 ^ shift.toNat
    let below := b.coefficient * 10 ^ (-shift).toNat
    let coefficient := above / below
    if above % below = 0 then dropZeros shift.toNat coefficient (ideal - shift)
    else (if coefficient % 5 = 0 then coefficient + 1 else coefficient, ideal - shift)

def div (a b : Decimal) : Except Signal Decimal :=
  if b.coefficient = 0 then
    .error (if a.coefficient = 0 then .invalidOperation else .divisionByZero)
  else
    let (coefficient, exponent) := quotient a b
    finish ⟨a.negative != b.negative, coefficient, exponent⟩

end NetWorth.Decimal
