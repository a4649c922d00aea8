import NetWorth.Decimal
import NetWorth.Text.Digit

/-! # Writing decimal numbers

The canonical text is positional: no exponent, no zeros at the end of the fraction, no point without a
fraction, and no sign on zero, so equal numbers have one text. -/
namespace NetWorth.Decimal

def places (d : Decimal) : Nat := (-d.exponent).toNat

/-- The digits in positional notation, at least one of them in front of the point. -/
def positionalDigits (d : Decimal) : List Char :=
  if d.coefficient = 0 then List.replicate (d.places + 1) '0'
  else Text.filled (d.places + 1) (Text.numeral d.coefficient ++ List.replicate d.exponent.toNat '0')

def wholeDigits (d : Decimal) : List Char :=
  d.positionalDigits.take (d.positionalDigits.length - d.places)

def fractionDigits (d : Decimal) : List Char :=
  d.positionalDigits.drop (d.positionalDigits.length - d.places)

def joinPoint (whole fraction : List Char) : List Char :=
  if fraction.isEmpty then whole else whole ++ '.' :: fraction

def signChars (negative : Bool) : List Char := if negative then ['-'] else []

def fixedChars (d : Decimal) : List Char :=
  signChars d.negative ++ joinPoint d.wholeDigits d.fractionDigits

def fixed (d : Decimal) : String := String.ofList d.fixedChars

def canonicalChars (d : Decimal) : List Char :=
  signChars (d.negative && !d.isZero)
    ++ joinPoint d.wholeDigits (Text.dropTrailingZeros d.fractionDigits)

def canonical (d : Decimal) : String := String.ofList d.canonicalChars

/-- The text that keeps coefficient and exponent: positional when the exponent is not positive and at
most five zeros follow the point, otherwise with one digit in front of the point and an exponent. -/
def exact (d : Decimal) : String :=
  let digits := Text.numeral d.coefficient
  let positional := d.exponent ≤ 0 && -6 < d.magnitude
  let size := d.leadingExponent
  let body :=
    if positional then joinPoint d.wholeDigits d.fractionDigits
    else joinPoint (digits.take 1) (digits.drop 1)
      ++ 'E' :: (if size < 0 then '-' else '+') :: Text.numeral size.natAbs
  String.ofList (signChars d.negative ++ body)

end NetWorth.Decimal
