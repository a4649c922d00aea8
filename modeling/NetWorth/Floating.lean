import NetWorth.Binary64

/-! # Floating-point numbers and what lies beyond them

Supplied numbers may be too large for any finite number, or be none at all. Both have a word for a text,
and a sign where they have one. -/
namespace NetWorth

inductive Floating where
  | finite (value : Binary64)
  | infinite (negative : Bool)
  | undefined
deriving DecidableEq, Repr

namespace Floating

/-- The number that a decimal numeral stands for; one beyond the finite numbers is infinite. -/
def ofDecimal (negative : Bool) (coefficient : Nat) (exponent : Int) : Floating :=
  match Binary64.ofDecimal? negative coefficient exponent with
  | some x => .finite x
  | none => .infinite negative

def finite? : Floating → Option Binary64
  | .finite x => some x
  | _ => none

def isZero (x : Floating) : Bool := x.finite?.any Binary64.isZero

/-- The integer that a number equals. -/
def integer? (x : Floating) : Option Int :=
  x.finite?.bind fun x => if x.isWhole then some x.truncate else none

def text : Floating → String
  | .finite x => x.text
  | .infinite negative => if negative then "-inf" else "inf"
  | .undefined => "nan"

end Floating

end NetWorth
