import NetWorth.Decimal.Arithmetic

/-! # Rounding to places

Amounts for display are rounded half away from zero to a number of decimal places. A result of more
than 28 digits is refused. -/
namespace NetWorth.Decimal

-- powers are those of the core library
attribute [local instance (high)] instPowNat

def greatestPlaces : Nat := 2000054

/-- The nearest number with the given places. Places beyond the finest grid count as that grid. -/
def round (d : Decimal) (places : Nat) : Except Signal Decimal :=
  if greatestPlaces < places then .error .invalidOperation
  else
    let exponent := max (-(places : Int)) leastQuantum
    if d.coefficient ≠ 0 ∧ exponent + precision < d.magnitude then .error .invalidOperation
    else
      let coefficient := nearestOnGrid .away d exponent
      if 10 ^ precision ≤ coefficient then .error .invalidOperation
      else .ok ⟨d.negative, coefficient, exponent⟩

end NetWorth.Decimal
