import NetWorth.Failure
import NetWorth.Logging.Value
import NetWorth.Rounding

/-! # Writing one argument of a message

A letter says how an argument is written: as text, as a whole number to a base, as a number with a fixed
count of places, in scientific notation, or as a single character. A layout adds the sign that a number
shows, the precision, and the width that the whole is filled to. -/
namespace NetWorth.Template

-- powers are those of the core library
attribute [local instance (high)] instPowNat

inductive Misfit where
  | tooFewArguments
  | tooManyArguments
  | needsNames
  | missingName (name : String)
  | listHasNoNames
  | sizeNotInteger
  | sizeOutOfRange
  | widthTooBig
  | precisionTooBig
  | notNumber (letter : Char) (kind : String)
  | notInteger (letter : Char) (kind : String)
  | notCharacter
  | characterOutOfRange
  | numberOutOfRange
  | infiniteNumber
  | undefinedNumber
  | undefinedFloating
  | signallingNumber
  | tooManyDigits
  | unknownLetter (letter : Char) (position : Nat)
  | incomplete
  | incompleteName
deriving DecidableEq, Repr

def Misfit.message : Misfit → String
  | .tooFewArguments => "not enough arguments for format string"
  | .tooManyArguments => "not all arguments converted during string formatting"
  | .needsNames => "format requires a mapping"
  | .missingName name => Text.quoted name
  | .listHasNoNames => "list indices must be integers or slices, not str"
  | .sizeNotInteger => "* wants int"
  | .sizeOutOfRange => "the size is out of range"
  | .widthTooBig => "width too big"
  | .precisionTooBig => "precision too big"
  | .notNumber letter kind =>
    if letter = 'f' then "must be real number, not " ++ kind
    else "%" ++ letter.toString ++ " format: a real number is required, not " ++ kind
  | .notInteger letter kind => "%" ++ letter.toString ++ " format: an integer is required, not " ++ kind
  | .notCharacter => "%c requires int or char"
  | .characterOutOfRange => "%c arg not in range(0x110000)"
  | .numberOutOfRange => "int too large to convert to float"
  | .infiniteNumber => "cannot convert Infinity to integer"
  | .undefinedNumber => "cannot convert NaN to integer"
  | .undefinedFloating => "cannot convert float NaN to integer"
  | .signallingNumber => "cannot convert signaling NaN to float"
  | .tooManyDigits =>
    "Exceeds the limit (" ++ toString Failure.greatestDigits ++ " digits) for integer string conversion; "
      ++ "use sys.set_int_max_str_digits() to increase the limit"
  | .unknownLetter letter position =>
    let shown := if 31 ≤ letter.toNat ∧ letter.toNat < 127 then letter else '?'
    "unsupported format character '" ++ shown.toString ++ "' (0x"
      ++ String.ofList (Nat.toDigits 16 letter.toNat) ++ ") at index " ++ toString position
  | .incomplete => "incomplete format"
  | .incompleteName => "incomplete format key"

/-- How an argument is set: to which side and with what it is filled, the sign it shows, whether its base
or point is marked in any case, its width, and its precision. -/
structure Layout where
  left : Bool
  zeros : Bool
  plus : Bool
  space : Bool
  alternate : Bool
  width : Nat
  precision : Option Nat

namespace Layout

/-- Fills a text to the width. Zeros stand between sign and number, blanks outside of both. -/
def fill (layout : Layout) (sign body : List Char) (numeric : Bool) : List Char :=
  let missing := layout.width - (sign.length + body.length)
  if layout.zeros && numeric && !layout.left then sign ++ List.replicate missing '0' ++ body
  else if layout.left then sign ++ body ++ List.replicate missing ' '
  else List.replicate missing ' ' ++ sign ++ body

def sign (layout : Layout) (negative : Bool) : List Char :=
  if negative then ['-'] else if layout.plus then ['+'] else if layout.space then [' '] else []

def text (layout : Layout) (s : String) : List Char :=
  let chars := match layout.precision with
    | some n => s.toList.take n
    | none => s.toList
  layout.fill [] chars false

def integer (layout : Layout) (base : Nat) (mark : List Char) (upper : Bool) (n : Int) : List Char :=
  let digits := Nat.toDigits base n.natAbs
  let digits := if upper then digits.map Char.toUpper else digits
  let digits := Text.filled (layout.precision.getD 0) digits
  layout.fill (layout.sign (n < 0) ++ if layout.alternate then mark else []) digits true

/-- Whole digits and a fraction; without a fraction the point is kept on request only. -/
def pointed (whole fraction : List Char) (keepPoint : Bool) : List Char :=
  if fraction.isEmpty then whole ++ (if keepPoint then ['.'] else []) else whole ++ '.' :: fraction

def positional (digits : List Char) (places : Nat) (keepPoint : Bool) : List Char :=
  let digits := Text.filled (places + 1) digits
  let split := digits.length - places
  pointed (digits.take split) (digits.drop split) keepPoint

def fixed (layout : Layout) (numerator denominator : Nat) : List Char :=
  let places := layout.precision.getD 6
  let scaled := roundQuotient .toEven (numerator * 10 ^ places) denominator
  positional (Text.numeral scaled) places layout.alternate

/-- The given number of leading digits of a quotient, and the exponent of the first of them. Rounding up
to one digit more moves the exponent on. -/
def leadingDigits (count numerator denominator : Nat) : Nat × Int :=
  if numerator = 0 then (0, 0)
  else
    let guess : Int := (Text.digitCount numerator : Int) - Text.digitCount denominator
    let (above, below) := Binary64.scaleBy 10 (-guess) numerator denominator
    let exponent := if above < below then guess - 1 else guess
    let (above, below) := Binary64.scaleBy 10 ((count : Int) - 1 - exponent) numerator denominator
    let digits := roundQuotient .toEven above below
    if digits = 10 ^ count then (10 ^ (count - 1), exponent + 1) else (digits, exponent)

def withExponent (digits : List Char) (exponent : Int) (mark : Char) (keepPoint : Bool) : List Char :=
  pointed (digits.take 1) (digits.drop 1) keepPoint
    ++ mark :: (if exponent < 0 then '-' else '+') :: Text.filled 2 (Text.numeral exponent.natAbs)

def scientific (layout : Layout) (mark : Char) (numerator denominator : Nat) : List Char :=
  let count := layout.precision.getD 6 + 1
  let (digits, exponent) := leadingDigits count numerator denominator
  withExponent (Text.filled count (Text.numeral digits)) exponent mark layout.alternate

/-- Positional from 1e-4 up to the precision, otherwise with an exponent; zeros at the end of the
fraction are kept on request only. -/
def general (layout : Layout) (mark : Char) (numerator denominator : Nat) : List Char :=
  let count := max 1 (layout.precision.getD 6)
  let (digits, exponent) := leadingDigits count numerator denominator
  let digits := Text.filled count (Text.numeral digits)
  let trim (fraction : List Char) := if layout.alternate then fraction else Text.dropTrailingZeros fraction
  if -4 ≤ exponent ∧ exponent < count then
    let whole := (exponent + 1).toNat
    let digits := List.replicate (-exponent).toNat '0' ++ digits
    pointed (digits.take (max 1 whole)) (trim (digits.drop (max 1 whole))) layout.alternate
  else withExponent (digits.take 1 ++ trim (digits.drop 1)) exponent mark layout.alternate

def asciiLiteral (value : LogValue) : String :=
  String.ofList (value.literal.toList.flatMap fun c =>
    if c.toNat < 128 then [c]
    else if c.toNat < 0x100 then '\\' :: 'x' :: Text.hexField 2 c.toNat
    else if c.toNat < 0x10000 then '\\' :: 'u' :: Text.hexField 4 c.toNat
    else '\\' :: 'U' :: Text.hexField 8 c.toNat)

def wholeDecimal? (d : Decimal) : Option Int :=
  if d.coefficient = 0 ∨ d.magnitude ≤ 0 then some 0
  else if Failure.greatestDigits < d.magnitude then none
  else
    let (above, below) := Binary64.scaleBy 10 d.exponent d.coefficient 1
    some (if d.negative then -((above / below : Nat) : Int) else (above / below : Nat))

def wholePart (letter : Char) (value : LogValue) : Except Misfit Int :=
  match value with
  | .dynamic (.float (.finite x)) => .ok x.truncate
  | .dynamic (.float (.infinite _)) | .number (.infinite _) => .error .infiniteNumber
  | .dynamic (.float .undefined) => .error .undefinedFloating
  | .number (.undefined _ _ _) => .error .undefinedNumber
  | .number (.finite d) =>
    match wholeDecimal? d with
    | some n => .ok n
    | none => .error .tooManyDigits
  | .dynamic _ =>
    match value.integer? with
    | some n => .ok n
    | none => .error (.notNumber letter value.kindName)

/-- The number in floating point that a value stands for. A decimal beyond all of them is infinite, while
an integer beyond them is refused. -/
def approximate (value : LogValue) : Except Misfit Floating :=
  match value with
  | .dynamic (.float x) => .ok x
  | .number (.infinite negative) => .ok (.infinite negative)
  | .number (.undefined _ signalling _) =>
    if signalling then .error .signallingNumber else .ok .undefined
  | .number (.finite d) => .ok (.ofDecimal d.negative d.coefficient d.exponent)
  | .dynamic _ =>
    match value.integer? with
    | none => .error (.notNumber 'f' value.kindName)
    | some n =>
      match Binary64.nearest? (decide (n < 0)) n.natAbs 1 with
      | some x => .ok (.finite x)
      | none => .error .numberOutOfRange

def character (value : LogValue) : Except Misfit Char :=
  match value, value.integer? with
  | .dynamic (.text s), _ =>
    match s.toList with
    | [c] => .ok c
    | _ => .error .notCharacter
  | _, some n => if 0 ≤ n ∧ n < 0x110000 then .ok (Char.ofNat n.toNat) else .error .characterOutOfRange
  | _, none => .error .notCharacter

def greatestIntegerPrecision : Nat := 2147483644

def integerOrRefused (layout : Layout) (base : Nat) (mark : List Char) (upper : Bool) (n : Int) :
    Except Misfit (List Char) :=
  if greatestIntegerPrecision < layout.precision.getD 0 then .error .sizeOutOfRange
  else .ok (layout.integer base mark upper n)

def digits (layout : Layout) (letter : Char) (x : Binary64) : List Char :=
  let (numerator, denominator) := x.size
  if letter = 'f' || letter = 'F' then layout.fixed numerator denominator
  else if letter = 'e' || letter = 'E' then layout.scientific letter numerator denominator
  else layout.general (if letter = 'G' then 'E' else 'e') numerator denominator

/-- A number in floating point. What is not finite is a word, in the case of the letter; an undefined
number has no sign of its own. -/
def floating (layout : Layout) (letter : Char) (number : Floating) : List Char :=
  let word (w : List Char) := if letter.isUpper then w.map Char.toUpper else w
  match number with
  | .finite x => layout.fill (layout.sign x.negative) (layout.digits letter x) true
  | .infinite negative => layout.fill (layout.sign negative) (word ['i', 'n', 'f']) true
  | .undefined => layout.fill (layout.sign false) (word ['n', 'a', 'n']) true

def write (layout : Layout) (letter : Char) (position : Nat) (value : LogValue) :
    Except Misfit (List Char) :=
  match letter with
  | 's' => .ok (layout.text value.plain)
  | 'r' => .ok (layout.text value.literal)
  | 'a' => .ok (layout.text (asciiLiteral value))
  | 'c' => do return layout.fill [] [← character value] false
  | 'd' | 'i' | 'u' => do layout.integerOrRefused 10 [] false (← wholePart letter value)
  | 'x' | 'X' | 'o' =>
    match value.integer? with
    | some n =>
      let base := if letter = 'o' then 8 else 16
      layout.integerOrRefused base ['0', letter] (letter = 'X') n
    | none => .error (.notInteger letter value.kindName)
  | 'f' | 'F' | 'e' | 'E' | 'g' | 'G' => do return layout.floating letter (← approximate value)
  | _ => .error (.unknownLetter letter position)

end Layout

end NetWorth.Template
