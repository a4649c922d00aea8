import NetWorth.Decimal.Number
import NetWorth.Decimal.Round

/-! # Arithmetic with infinities and undefined values

Every operation is that of finite decimals where it can be. A signalling value is refused; of other
undefined values the first is passed on. Infinities follow their signs, and an operation that leaves a
result open, such as a difference of infinities, is refused. -/
namespace NetWorth.Number

-- powers are those of the core library
attribute [local instance (high)] instPowNat

open Decimal (Signal)

def isSignalling : Number → Bool
  | .undefined _ signalling _ => signalling
  | _ => false

def isZero : Number → Bool
  | .finite d => d.isZero
  | _ => false

def neg : Number → Number
  | .finite d => .finite d.neg
  | .infinite negative => .infinite !negative
  | .undefined negative signalling payload => .undefined (!negative) signalling payload

/-- An undefined value as a result: of its payload the last 28 digits are kept. -/
def passedOn (negative : Bool) (payload : Nat) : Number :=
  .undefined negative false (payload % 10 ^ Decimal.precision)

def settled? (a b : Number) : Option (Except Signal Number) :=
  if a.isSignalling || b.isSignalling then some (.error .invalidOperation)
  else
    match a, b with
    | .undefined negative _ payload, _ => some (.ok (passedOn negative payload))
    | _, .undefined negative _ payload => some (.ok (passedOn negative payload))
    | _, _ => none

def add (a b : Number) : Except Signal Number :=
  match settled? a b with
  | some outcome => outcome
  | none =>
    match a, b with
    | .finite a, .finite b => (a.add b).map .finite
    | .infinite p, .infinite q => if p = q then .ok a else .error .invalidOperation
    | .infinite _, _ => .ok a
    | _, _ => .ok b

def sub (a b : Number) : Except Signal Number :=
  match settled? a b with
  | some outcome => outcome
  | none => add a b.neg

def mul (a b : Number) : Except Signal Number :=
  match settled? a b with
  | some outcome => outcome
  | none =>
    match a, b with
    | .finite a, .finite b => (a.mul b).map .finite
    | .finite d, .infinite q =>
      if d.isZero then .error .invalidOperation else .ok (.infinite (d.negative != q))
    | .infinite p, .finite d =>
      if d.isZero then .error .invalidOperation else .ok (.infinite (p != d.negative))
    | .infinite p, .infinite q => .ok (.infinite (p != q))
    | _, _ => .ok a

/-- A finite number divided by an infinity is a zero on the finest grid. -/
def div (a b : Number) : Except Signal Number :=
  match settled? a b with
  | some outcome => outcome
  | none =>
    match a, b with
    | .finite a, .finite b => (a.div b).map .finite
    | .infinite p, .finite d => .ok (.infinite (p != d.negative))
    | .finite d, .infinite q => .ok (.finite ⟨d.negative != q, 0, Decimal.leastQuantum⟩)
    | _, _ => .error .invalidOperation

def round (n : Number) (places : Nat) : Except Signal Number :=
  match n with
  | .finite d => (d.round places).map .finite
  | .infinite _ => .error .invalidOperation
  | .undefined negative signalling payload =>
    if signalling || Decimal.greatestPlaces < places then .error .invalidOperation
    else .ok (passedOn negative payload)

/-- What stands in place of a change from zero. -/
def notAvailable : String := "N/A"

def unsignedZero : Number → Number
  | .finite d => .finite (if d.isZero then { d with negative := false } else d)
  | n => n

/-- The relative change in percent with two places; there is none from zero. -/
def percentageChange (initial final : Number) : Except Signal String :=
  if initial.isSignalling then .error .invalidOperation
  else if initial.isZero then .ok notAvailable
  else do
    let change ← final.sub initial
    let ratio ← change.div initial
    let percent ← ratio.mul (.finite ⟨false, 100, 0⟩)
    let rounded ← percent.round 2
    return rounded.unsignedZero.fixed

@[simp] theorem add_finite (a b : Decimal) :
    (Number.finite a).add (.finite b) = (a.add b).map .finite := rfl

@[simp] theorem sub_finite (a b : Decimal) :
    (Number.finite a).sub (.finite b) = (a.sub b).map .finite := rfl

@[simp] theorem mul_finite (a b : Decimal) :
    (Number.finite a).mul (.finite b) = (a.mul b).map .finite := rfl

@[simp] theorem div_finite (a b : Decimal) :
    (Number.finite a).div (.finite b) = (a.div b).map .finite := rfl

@[simp] theorem round_finite (d : Decimal) (places : Nat) :
    (Number.finite d).round places = (d.round places).map .finite := rfl

end NetWorth.Number
