import NetWorth.Rounding
import NetWorth.Text.Number

/-! # Binary floating-point numbers and their shortest decimal text

A finite number is a sign and a significand times a power of two, as the nearest one to a decimal
numeral, ties going to the even significand. Its text is the shortest decimal that reads back as the
same number, and of the shortest ones the nearest. -/
namespace NetWorth

structure Binary64 where
  negative : Bool
  significand : Nat
  exponent : Int
deriving DecidableEq, Repr

namespace Binary64

-- powers are those of the core library
attribute [local instance (high)] instPowNat

def precision : Nat := 53
def leastExponent : Int := -1074
def greatestExponent : Int := 971

def scaleBy (base : Nat) (power : Int) (numerator denominator : Nat) : Nat × Nat :=
  if 0 ≤ power then (numerator * base ^ power.toNat, denominator)
  else (numerator, denominator * base ^ (-power).toNat)

def floorLog2 (numerator denominator : Nat) : Int :=
  let guess := (numerator.log2 : Int) - denominator.log2
  let (above, below) := scaleBy 2 (-guess) numerator denominator
  if above < below then guess - 1 else guess

/-- The nearest number to a quotient, if it is within the range. -/
def nearest? (negative : Bool) (numerator denominator : Nat) : Option Binary64 :=
  if numerator = 0 then some ⟨negative, 0, leastExponent⟩
  else
    let exponent := max leastExponent (floorLog2 numerator denominator - (precision - 1))
    let (above, below) := scaleBy 2 (-exponent) numerator denominator
    let significand := roundQuotient .toEven above below
    let (significand, exponent) :=
      if significand = 2 ^ precision then (significand / 2, exponent + 1) else (significand, exponent)
    if exponent ≤ greatestExponent then some ⟨negative, significand, exponent⟩ else none

/-- The number that a decimal numeral `coefficient × 10 ^ exponent` stands for. Exponents far outside
the range are settled without building their powers. -/
def ofDecimal? (negative : Bool) (coefficient : Nat) (exponent : Int) : Option Binary64 :=
  let magnitude := exponent + Text.digitCount coefficient
  if coefficient = 0 || magnitude < -400 then some ⟨negative, 0, leastExponent⟩
  else if magnitude > 400 then none
  else
    let (above, below) := scaleBy 10 exponent coefficient 1
    nearest? negative above below

def size (x : Binary64) : Nat × Nat := scaleBy 2 x.exponent x.significand 1

def withSign (x : Binary64) (n : Nat) : Int := if x.negative then -(n : Int) else n

def isZero (x : Binary64) : Bool := x.significand = 0

def isWhole (x : Binary64) : Bool := x.size.1 % x.size.2 = 0

def truncate (x : Binary64) : Int := x.withSign (x.size.1 / x.size.2)

def floor (x : Binary64) : Int := Int.fdiv (x.withSign x.size.1) x.size.2

def millionths (tie : Tie) (numerator denominator : Nat) : Nat :=
  let scaled := (nearest? false (numerator * 1000000) denominator).getD ⟨false, 0, 0⟩
  roundQuotient tie scaled.size.1 scaled.size.2

/-- The fraction of the size of a number in millionths, halves going to the even neighbour. -/
def fractionMillionths (x : Binary64) : Nat := millionths .toEven (x.size.1 % x.size.2) x.size.2

/-- How far a number is above its floor in millionths, halves going up. The distance is taken in
floating point too. -/
def millionthsAbove (x : Binary64) : Nat :=
  let above := (Int.fmod (x.withSign x.size.1) x.size.2).toNat
  let distance := (nearest? false above x.size.2).getD ⟨false, 0, 0⟩
  millionths .away distance.size.1 distance.size.2

/-- The multiple of `10 ^ power` that reads back as the number, nearest first. -/
def gridPoint? (x : Binary64) (power : Int) : Option Nat :=
  let belowGap := if x.significand = 2 ^ (precision - 1) && x.exponent ≠ leastExponent then 1 else 2
  let inGrid (quarters : Nat) : Nat × Nat :=
    let (above, below) := scaleBy 2 x.exponent quarters 4
    scaleBy 10 (-power) above below
  let (value, unit) := inGrid (4 * x.significand)
  let (low, lowUnit) := inGrid (4 * x.significand - belowGap)
  let (high, highUnit) := inGrid (4 * x.significand + 2)
  let inside (point : Nat) : Bool :=
    if x.significand % 2 = 0 then low ≤ point * lowUnit && point * highUnit ≤ high
    else low < point * lowUnit && point * highUnit < high
  let lower := value / unit
  let ordered := if roundQuotient .toEven value unit = lower then [lower, lower + 1] else [lower + 1, lower]
  ordered.find? fun point => point ≠ 0 && inside point

/-- The shortest decimal of a number that is not zero: the point of the coarsest grid that has one. -/
def shortest (x : Binary64) : Nat × Int :=
  let powers := (List.range 640).map fun (i : Nat) => (310 : Int) - i
  (powers.findSome? fun power => (x.gridPoint? power).map (·, power)).getD (0, 0)

/-- Positional from 1e-4 up to 1e16, with at least one digit on each side of the point; otherwise one
digit before the point and an exponent of at least two digits. -/
def text (x : Binary64) : String :=
  let (coefficient, power) := if x.significand = 0 then (0, 0) else x.shortest
  let digits := Text.numeral coefficient
  let point := (digits.length : Int) + power
  let body : List Char :=
    if -4 < point && point ≤ 16 then
      if point ≤ 0 then '0' :: '.' :: List.replicate (-point).toNat '0' ++ digits
      else if 0 ≤ power then digits ++ List.replicate power.toNat '0' ++ ['.', '0']
      else digits.take point.toNat ++ '.' :: digits.drop point.toNat
    else
      let fraction := digits.drop 1
      let size := Text.filled 2 (Text.numeral (point - 1).natAbs)
      digits.take 1 ++ (if fraction.isEmpty then [] else '.' :: fraction)
        ++ 'e' :: (if point - 1 < 0 then '-' else '+') :: size
  String.ofList (if x.negative then '-' :: body else body)

end Binary64

end NetWorth
