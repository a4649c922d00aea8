import NetWorth.Text.Number

/-! # Decimal numbers

A finite decimal is a sign, a coefficient and a power of ten. Equal numbers have many forms (`1.5`,
`1.50`), and zero keeps both its sign and its exponent. -/
namespace NetWorth

structure Decimal where
  negative : Bool
  coefficient : Nat
  exponent : Int
deriving DecidableEq, Repr

namespace Decimal

-- powers are those of the core library
attribute [local instance (high)] instPowNat

def zero : Decimal := ⟨false, 0, 0⟩

def ofInt (n : Int) : Decimal := ⟨n < 0, n.natAbs, 0⟩

def isZero (d : Decimal) : Bool := d.coefficient = 0

def neg (d : Decimal) : Decimal := { d with negative := !d.negative }

/-- The number of digits in front of the point, counted below zero for what starts behind it. -/
def magnitude (d : Decimal) : Int := Text.digitCount d.coefficient + d.exponent

/-- The exponent that the leading digit has. -/
def leadingExponent (d : Decimal) : Int := d.magnitude - 1

/-- The coefficient with its sign, on a grid of `10 ^ exponent` that is at least as fine as the number's. -/
def onGrid (d : Decimal) (exponent : Int) : Int :=
  if d.coefficient = 0 then 0
  else
    let scaled : Int := d.coefficient * 10 ^ (d.exponent - exponent).toNat
    if d.negative then -scaled else scaled

@[simp] theorem neg_coefficient (d : Decimal) : d.neg.coefficient = d.coefficient := rfl
@[simp] theorem neg_exponent (d : Decimal) : d.neg.exponent = d.exponent := rfl
@[simp] theorem neg_neg (d : Decimal) : d.neg.neg = d := by cases d; simp [neg]

end Decimal

end NetWorth
