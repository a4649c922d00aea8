import NetWorth.Calendar.Timestamp

/-! # Timestamps as text

Reports write instants in universal time, the year in the digits that it has, with a fraction of nine digits
only when it is not zero; log lines write the clock as it stands, with its offset. Reading accepts both, with one
to nine digits of fraction and an offset that may be missing. -/
namespace NetWorth.Timestamp

def clockChars (t : Timestamp) : List Char :=
  Text.filled 2 (Text.numeral t.hour) ++ ':' :: Text.filled 2 (Text.numeral t.minute)
    ++ ':' :: Text.filled 2 (Text.numeral t.second)

/-- Date and time of the clock, with its fraction of a second in nanoseconds unless that is zero. -/
def coreChars (t : Timestamp) : List Char :=
  t.date.printedChars ++ 'T' :: t.clockChars
    ++ if t.microsecond = 0 then [] else '.' :: Text.filled 9 (Text.numeral (t.microsecond * 1000))

/-- The instant with the suffix `Z`, if the calendar reaches it. -/
def zulu? (t : Timestamp) : Option String :=
  t.toUtc?.map fun u => String.ofList (u.coreChars ++ ['Z'])

def zeroOffset? (t : Timestamp) : Option String :=
  t.toUtc?.map fun u => String.ofList (u.coreChars ++ ['+', '0', '0', ':', '0', '0'])

def offsetChars (seconds : Int) : List Char :=
  let size := seconds.natAbs
  (if seconds < 0 then '-' else '+') :: Text.filled 2 (Text.numeral (size / 3600))
    ++ ':' :: Text.filled 2 (Text.numeral (size / 60 % 60))
    ++ if size % 60 = 0 then [] else ':' :: Text.filled 2 (Text.numeral (size % 60))

/-- The clock as it stands, with six digits of fraction unless it is zero, and its offset if known. -/
def localText (t : Timestamp) : String :=
  String.ofList (t.date.textChars ++ 'T' :: t.clockChars
    ++ (if t.microsecond = 0 then [] else '.' :: Text.filled 6 (Text.numeral t.microsecond))
    ++ match t.offset with
      | none => []
      | some seconds => offsetChars seconds)

/-- Takes a fraction of a second off the front, in microseconds; digits behind the sixth are dropped. -/
def takeFraction : List Char → Nat × List Char
  | '.' :: rest =>
    let digits := rest.takeWhile Char.isDigit
    let six := (digits ++ List.replicate 6 '0').take 6
    ((Date.fieldOf? six).getD 0, rest.drop digits.length)
  | rest => (0, rest)

def offsetOf? : List Char → Option (Option Int)
  | [] => some none
  | ['Z'] => some (some 0)
  | sign :: h₁ :: h₂ :: ':' :: m₁ :: m₂ :: rest => do
    let hours ← Date.fieldOf? [h₁, h₂]
    let minutes ← Date.fieldOf? [m₁, m₂]
    let seconds ← match rest with
      | [] => some 0
      | [':', s₁, s₂] => Date.fieldOf? [s₁, s₂]
      | _ => none
    let size : Int := hours * 3600 + minutes * 60 + seconds
    if sign = '+' then some (some size) else if sign = '-' then some (some (-size)) else none
  | _ => none

def ofWall? (wall : Nat) (offset : Option Int) : Option Timestamp :=
  if h : wall < 3652059 * 86400000000 then some ⟨wall, offset, h⟩ else none

def ofChars? : List Char → Option Timestamp
  | y₁ :: y₂ :: y₃ :: y₄ :: '-' :: m₁ :: m₂ :: '-' :: d₁ :: d₂ :: 'T'
      :: h₁ :: h₂ :: ':' :: n₁ :: n₂ :: ':' :: s₁ :: s₂ :: rest => do
    let date ← Date.ofChars? [y₁, y₂, y₃, y₄, '-', m₁, m₂, '-', d₁, d₂]
    let hour ← Date.fieldOf? [h₁, h₂]
    let minute ← Date.fieldOf? [n₁, n₂]
    let second ← Date.fieldOf? [s₁, s₂]
    let (micros, rest) := takeFraction rest
    let offset ← offsetOf? rest
    if hour < 24 ∧ minute < 60 ∧ second < 60 then
      ofWall? (((date.day * 24 + hour) * 60 + minute) * 60000000 + second * microsPerSecond + micros)
        offset
    else none
  | _ => none

def parse? (s : String) : Option Timestamp := ofChars? s.toList

end NetWorth.Timestamp
