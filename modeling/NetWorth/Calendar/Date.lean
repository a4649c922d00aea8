import NetWorth.Text.Blank
import NetWorth.Text.Number

/-! # Calendar dates

A date is a day of the Gregorian calendar in the years 1 to 9999, counted from 0001-01-01, a Monday.
Year, month and day of the month are functions of that count. -/
namespace NetWorth

structure Date where
  day : Nat
  inRange : day < 3652059
deriving DecidableEq, Repr

namespace Date

/-- The number of days from 0001-01-01 to 9999-12-31. -/
def dayCount : Nat := 3652059

def isLeap (year : Nat) : Bool := year % 4 = 0 && (year % 100 ≠ 0 || year % 400 = 0)

def yearStart (year : Nat) : Nat :=
  365 * (year - 1) + (year - 1) / 4 + (year - 1) / 400 - (year - 1) / 100

def monthLengths (leap : Bool) : List Nat :=
  [31, if leap then 29 else 28, 31, 30, 31, 30, 31, 31, 30, 31, 30, 31]

/-- The year in which a day lies: a guess from the mean length of a year, off by one at most. -/
def yearOf (day : Nat) : Nat :=
  let guess := 400 * day / 146097 + 1
  if day < yearStart guess then guess - 1
  else if yearStart (guess + 1) ≤ day then guess + 1
  else guess

def monthOf : List Nat → Nat → Nat × Nat
  | [], n => (1, n + 1)
  | length :: rest, n =>
    if n < length then (1, n + 1)
    else
      let (month, day) := monthOf rest (n - length)
      (month + 1, day)

def year (d : Date) : Nat := yearOf d.day

def monthAndDay (d : Date) : Nat × Nat :=
  monthOf (monthLengths (isLeap d.year)) (d.day - yearStart d.year)

def month (d : Date) : Nat := d.monthAndDay.1

def dayOfMonth (d : Date) : Nat := d.monthAndDay.2

/-- The date with the given fields, if the calendar has it. -/
def ofFields? (year month day : Nat) : Option Date :=
  let lengths := monthLengths (isLeap year)
  let count := yearStart year + (lengths.take (month - 1)).foldr (· + ·) 0 + (day - 1)
  if 1 ≤ year ∧ year ≤ 9999 ∧ 1 ≤ month ∧ 1 ≤ day ∧ day ≤ lengths.getD (month - 1) 0 then
    if h : count < 3652059 then some ⟨count, h⟩ else none
  else none

/-- Four digits, two and two, with hyphens between them. -/
def textChars (d : Date) : List Char :=
  Text.filled 4 (Text.numeral d.year) ++ '-' :: Text.filled 2 (Text.numeral d.month)
    ++ '-' :: Text.filled 2 (Text.numeral d.dayOfMonth)

/-- The date as clocks print it, with its year in the digits that it has. -/
def printedChars (d : Date) : List Char := Text.numeral d.year ++ d.textChars.drop 4

def text (d : Date) : String := String.ofList d.textChars

def fieldOf? (digits : List Char) : Option Nat :=
  if digits.all Char.isDigit then
    some (digits.foldl (fun n c => 10 * n + (c.toNat - '0'.toNat)) 0)
  else none

/-- Reads the text of a date and nothing else. -/
def ofChars? : List Char → Option Date
  | [y₁, y₂, y₃, y₄, '-', m₁, m₂, '-', d₁, d₂] => do
    ofFields? (← fieldOf? [y₁, y₂, y₃, y₄]) (← fieldOf? [m₁, m₂]) (← fieldOf? [d₁, d₂])
  | _ => none

@[simp] theorem day_lt (d : Date) : d.day < dayCount := d.inRange

theorem ext_day {a b : Date} (h : a.day = b.day) : a = b := by
  cases a; cases b; simp_all

instance : LE Date := ⟨fun a b => a.day ≤ b.day⟩
instance : LT Date := ⟨fun a b => a.day < b.day⟩
instance (a b : Date) : Decidable (a ≤ b) := inferInstanceAs (Decidable (a.day ≤ b.day))
instance (a b : Date) : Decidable (a < b) := inferInstanceAs (Decidable (a.day < b.day))

end Date

end NetWorth
