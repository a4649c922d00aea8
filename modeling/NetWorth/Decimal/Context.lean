import NetWorth.Decimal
import NetWorth.Rounding

/-! # The arithmetic context

Results have at most 28 digits, halves going to the even neighbour, and a leading exponent of at most
999999. What is too large is signalled; what is too small loses digits below the least quantum. -/
namespace NetWorth.Decimal

-- powers are those of the core library
attribute [local instance (high)] instPowNat

inductive Signal where
  | invalidOperation
  | divisionByZero
  | overflow
deriving DecidableEq, Repr

def precision : Nat := 28
def greatestExponent : Int := 999999

def leastQuantum : Int := -1000026

def greatestQuantum : Int := 999972

/-- The grid on which a number that is not zero has 28 digits, or the finest one if that is coarser. -/
def quantum (d : Decimal) : Int := max (d.magnitude - precision) leastQuantum

/-- The multiple of `10 ^ exponent` nearest to a number, without its sign. A number below a tenth of the
grid is nearest to zero, which is settled without building the power. -/
def nearestOnGrid (tie : Tie) (d : Decimal) (exponent : Int) : Nat :=
  if d.coefficient = 0 then 0
  else if exponent ≤ d.exponent then d.coefficient * 10 ^ (d.exponent - exponent).toNat
  else if d.magnitude < exponent then 0
  else roundQuotient tie d.coefficient (10 ^ (exponent - d.exponent).toNat)

/-- Brings an exact result into the context. Rounding up to 29 digits moves on to the next grid. -/
def finish (d : Decimal) : Except Signal Decimal :=
  if d.coefficient = 0 then
    .ok { d with exponent := max leastQuantum (min d.exponent greatestExponent) }
  else if greatestQuantum < d.magnitude - precision then .error .overflow
  else if d.quantum ≤ d.exponent then .ok d
  else
    let coefficient := nearestOnGrid .toEven d d.quantum
    if coefficient = 10 ^ precision then
      if greatestQuantum < d.quantum + 1 then .error .overflow
      else .ok ⟨d.negative, 10 ^ (precision - 1), d.quantum + 1⟩
    else .ok ⟨d.negative, coefficient, d.quantum⟩

end NetWorth.Decimal
