import NetWorth.Decimal
import NetWorth.Text.Blank
import NetWorth.Text.Digit

/-! # Reading decimal numbers

A numeral is a sign, digits with at most one point among them, and an exponent; sign and exponent may
be missing, the digits may not. Digits of any script count, blanks around the numeral and underscores
anywhere in it do not. What is read is exact. -/
namespace NetWorth.Decimal

def greatestReadable : Int := 999999999999999999

def leastReadable : Int := -1999999999999999997

/-- The characters that count: without surrounding blanks and without underscores. -/
def significantChars (s : String) : List Char :=
  (Text.trimChars s.toList).filter (· ≠ '_')

def splitSign : List Char → Bool × List Char
  | '-' :: rest => (true, rest)
  | '+' :: rest => (false, rest)
  | rest => (false, rest)

/-- The exponent behind the digits: nothing, or a letter, an optional sign and digits. -/
def exponentPart? : List Char → Option Int
  | [] => some 0
  | mark :: rest =>
    if mark = 'e' || mark = 'E' then
      let (negative, digits) := splitSign rest
      if digits.isEmpty || !digits.all Text.isDigit then none
      else some (if negative then -(Text.digitsValue digits : Int) else Text.digitsValue digits)
    else none

def fractionPart : List Char → List Char × List Char
  | '.' :: rest => rest.span Text.isDigit
  | rest => ([], rest)

def unsigned? (negative : Bool) (cs : List Char) : Option Decimal := do
  let (whole, rest) := cs.span Text.isDigit
  let (fraction, rest) := fractionPart rest
  if whole.isEmpty && fraction.isEmpty then none
  else
    let exponent ← exponentPart? rest
    return ⟨negative, Text.digitsValue (whole ++ fraction), exponent - fraction.length⟩

def numeral? (cs : List Char) : Option Decimal :=
  let (negative, rest) := splitSign cs
  unsigned? negative rest

/-- Exponents beyond the readable range are refused, those of zero too. -/
def withinReach (d : Decimal) : Bool :=
  d.leadingExponent ≤ greatestReadable && leastReadable ≤ d.exponent

def parse? (s : String) : Option Decimal := (numeral? (significantChars s)).filter withinReach

end NetWorth.Decimal
