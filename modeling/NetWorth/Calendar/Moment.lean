import NetWorth.Binary64
import NetWorth.Calendar.Timestamp

/-! # Moments that name a day

A day can be named by a moment: a date with a time of the clock, or a count of seconds since 1970, or of
milliseconds if it is great. Only the day of the clock and whether it is its midnight are of interest,
so an offset from universal time is read and then left alone. Moments reach one year further back than
dates do.

A count can be written as a numeral: a sign or none, digits, and behind a point further digits and an exponent or
none. Without a point it is a word of 64 bits, which keeps the lowest of more. -/
namespace NetWorth

structure Moment where
  /-- Days since 0001-01-01, below zero in the year before it. -/
  day : Int
  midnight : Bool
deriving DecidableEq, Repr

namespace Moment

def cycle : Nat := 146097

/-- The day of a date that may lie in the year 0, which has the days of the year 400. -/
def dayOf? (year month day : Nat) : Option Int :=
  if year = 0 then (Date.ofFields? 400 month day).map fun d => (d.day : Int) - cycle
  else (Date.ofFields? year month day).map fun d => (d.day : Int)

def isDistance : List Char → Bool
  | [h₁, h₂, m₁, m₂] | [h₁, h₂, ':', m₁, m₂] =>
    match Date.fieldOf? [h₁, h₂], Date.fieldOf? [m₁, m₂] with
    | some hours, some minutes => hours < 24 && minutes < 60
    | _, _ => false
  | _ => false

def isOffset : List Char → Bool
  | [] | ['Z'] | ['z'] => true
  | sign :: rest => (sign = '+' || sign = '-' || sign = '−') && isDistance rest

/-- Takes a fraction of a second off the front, in microseconds; digits behind the sixth do not count,
and a mark without digits is refused. -/
def fraction? : List Char → Option (Nat × List Char)
  | mark :: rest =>
    if mark = '.' || mark = ',' then
      let digits := rest.takeWhile Char.isDigit
      if digits.isEmpty then none
      else
        (Date.fieldOf? ((digits ++ List.replicate 6 '0').take 6)).map (·, rest.drop digits.length)
    else some (0, mark :: rest)
  | [] => some (0, [])

/-- Takes seconds with their fraction off the front, in microseconds; a time may do without them. -/
def seconds? : List Char → Option (Nat × List Char)
  | ':' :: s₁ :: s₂ :: rest => do
    let second ← Date.fieldOf? [s₁, s₂]
    let (micros, rest) ← fraction? rest
    if second < 60 then some (second * Timestamp.microsPerSecond + micros, rest) else none
  | [':'] | [':', _] => none
  | rest => some (0, rest)

def timeOfDay? : List Char → Option Nat
  | h₁ :: h₂ :: ':' :: m₁ :: m₂ :: rest => do
    let hour ← Date.fieldOf? [h₁, h₂]
    let minute ← Date.fieldOf? [m₁, m₂]
    let (micros, rest) ← seconds? rest
    if hour < 24 ∧ minute < 60 ∧ isOffset rest then some ((hour * 60 + minute) * 60000000 + micros)
    else none
  | _ => none

def isSeparator (c : Char) : Bool := c = 'T' || c = 't' || c = ' ' || c = '_'

def ofClock? : List Char → Option Moment
  | y₁ :: y₂ :: y₃ :: y₄ :: '-' :: m₁ :: m₂ :: '-' :: d₁ :: d₂ :: rest => do
    let year ← Date.fieldOf? [y₁, y₂, y₃, y₄]
    let month ← Date.fieldOf? [m₁, m₂]
    let day ← dayOf? year month (← Date.fieldOf? [d₁, d₂])
    match rest with
    | [] => some ⟨day, true⟩
    | separator :: rest =>
      if isSeparator separator then (timeOfDay? rest).map fun micros => ⟨day, micros = 0⟩ else none
  | _ => none

def greatestSeconds : Nat := 20000000000

/-- The first and the last second that a count can mean: those of the years 0 and 9999. -/
def firstSecond : Int := -62167219200
def lastSecond : Int := 253402300799

def ofMicros? (micros : Int) : Option Moment :=
  let seconds := Int.fdiv micros Timestamp.microsPerSecond
  if firstSecond ≤ seconds ∧ seconds ≤ lastSecond then
    let wall := Timestamp.epoch + micros
    some ⟨Int.fdiv wall Timestamp.microsPerDay, Int.fmod wall Timestamp.microsPerDay = 0⟩
  else none

def ofCount? (count : Int) : Option Moment :=
  ofMicros? (count * if greatestSeconds < count.natAbs then 1000 else 1000000)

/-- The moment of a count in floating point. A great one is brought to seconds first; what is above a
whole second is counted in microseconds, halves going up. -/
def ofFloat? (x : Binary64) : Option Moment := do
  let (numerator, denominator) := x.size
  let seconds ←
    if greatestSeconds * denominator < numerator then
      Binary64.nearest? x.negative numerator (denominator * 1000)
    else some x
  ofMicros? (seconds.floor * 1000000 + seconds.millionthsAbove)

/-- The signed word of 64 bits that an integer is cut to. -/
def word (n : Int) : Int := Int.bmod n 18446744073709551616

def signedField? : List Char → Option Int
  | '-' :: digits => if digits.isEmpty then none else (Date.fieldOf? digits).map fun n => -(n : Int)
  | '+' :: digits => if digits.isEmpty then none else (Date.fieldOf? digits).map Int.ofNat
  | digits => if digits.isEmpty then none else (Date.fieldOf? digits).map Int.ofNat

def exponent? : List Char → Option Int
  | [] => some 0
  | mark :: rest => if mark = 'e' || mark = 'E' then signedField? rest else none

def ofUnsigned? (negative : Bool) (whole rest : List Char) : Option Moment := do
  match rest with
  | [] =>
    let count ← Date.fieldOf? whole
    if whole.isEmpty then none else ofCount? (word (if negative then -(count : Int) else count))
  | '.' :: rest =>
    let fraction := rest.takeWhile Char.isDigit
    let exponent ← exponent? (rest.drop fraction.length)
    let coefficient ← Date.fieldOf? (whole ++ fraction)
    if whole.isEmpty && fraction.isEmpty then none
    else ofFloat? (← Binary64.ofDecimal? negative coefficient (exponent - fraction.length))
  | _ => none

def ofNumeral? (cs : List Char) : Option Moment :=
  let (negative, unsigned) : Bool × List Char := match cs with
    | '-' :: rest => (true, rest)
    | '+' :: rest => (false, rest)
    | rest => (false, rest)
  let whole := unsigned.takeWhile Char.isDigit
  ofUnsigned? negative whole (unsigned.drop whole.length)

/-- Reads a moment of a clock, else the numeral of a count. -/
def ofText? (s : String) : Option Moment := ofClock? s.toList <|> ofNumeral? s.toList

def date? (moment : Moment) : Option Date :=
  if h : 0 ≤ moment.day ∧ moment.day < 3652059 then some ⟨moment.day.toNat, by omega⟩ else none

end Moment

end NetWorth
