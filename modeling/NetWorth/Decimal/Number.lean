import NetWorth.Decimal.Reader
import NetWorth.Decimal.Writer

/-! # Numbers with infinities and undefined values

What a numeral may name besides a finite decimal: an infinity, or an undefined value ("not a number")
with an optional payload, which may be signalling. -/
namespace NetWorth

inductive Number where
  | finite (value : Decimal)
  | infinite (negative : Bool)
  | undefined (negative signalling : Bool) (payload : Nat)
deriving DecidableEq, Repr

namespace Number

/-- The word for what is not finite, in any case of its ASCII letters, with the digits behind it. -/
def special? (negative : Bool) (cs : List Char) : Option Number :=
  let word := cs.takeWhile fun c => !Text.isDigit c
  let payload := cs.drop word.length
  let name := String.ofList (word.map Char.toLower)
  if !payload.all Text.isDigit then none
  else if (name = "inf" || name = "infinity") && payload.isEmpty then some (.infinite negative)
  else if name = "nan" then some (.undefined negative false (Text.digitsValue payload))
  else if name = "snan" then some (.undefined negative true (Text.digitsValue payload))
  else none

def parse? (s : String) : Option Number :=
  match Decimal.parse? s with
  | some d => some (.finite d)
  | none =>
    let (negative, rest) := Decimal.splitSign (Decimal.significantChars s)
    special? negative rest

def undefinedText (negative signalling : Bool) (payload : Nat) : String :=
  String.ofList (Decimal.signChars negative) ++ (if signalling then "sNaN" else "NaN")
    ++ (if payload = 0 then "" else String.ofList (Text.numeral payload))

def infiniteText (negative : Bool) : String := String.ofList (Decimal.signChars negative) ++ "Infinity"

def canonical : Number → String
  | .finite d => d.canonical
  | .infinite negative => infiniteText negative
  | .undefined negative signalling payload => undefinedText negative signalling payload

/-- Positional notation of a finite number with every digit and its sign as they are. -/
def fixed : Number → String
  | .finite d => d.fixed
  | other => other.canonical

def exact : Number → String
  | .finite d => d.exact
  | other => other.canonical

def literal (n : Number) : String := "Decimal('" ++ n.exact ++ "')"

end Number

end NetWorth
