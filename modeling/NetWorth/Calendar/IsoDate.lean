import NetWorth.Calendar.Date

/-! # Dates of ISO 8601

A day is named by its year, its month and its day of the month, or by the week of a year and a day of that week,
a week alone standing for its Monday. Hyphens stand between these parts, or none do. The reader of such texts
asks only that a text is as long as one of the forms, in bytes, and leaves what follows a day unread. Dates are
asked for in one of the forms only, so their shape is checked before they are read. -/
namespace NetWorth.Date

/-- The Monday of the first week of a year, which is the week of its fourth of January. -/
def firstMonday (year : Nat) : Nat := yearStart year + 3 - (yearStart year + 3) % 7

/-- Whether a year has fifty-three weeks: its first day is a Thursday, or a Wednesday in a leap year. -/
def isLong (year : Nat) : Bool :=
  yearStart year % 7 = 3 || (yearStart year % 7 = 2 && isLeap year)

def ofWeek? (year week weekday : Nat) : Option Date :=
  let count := firstMonday year + (week - 1) * 7 + (weekday - 1)
  if 1 ≤ year ∧ 1 ≤ week ∧ week ≤ (if isLong year then 53 else 52) ∧ 1 ≤ weekday ∧ weekday ≤ 7 then
    if h : count < 3652059 then some ⟨count, h⟩ else none
  else none

def nextPart? : Bool → List Char → Option (List Char)
  | true, '-' :: rest => some rest
  | true, _ => none
  | false, rest => some rest

def ofWeekPart? (hyphens : Bool) (year : Nat) : List Char → Option Date
  | w₁ :: w₂ :: rest => do
    let week ← fieldOf? [w₁, w₂]
    if rest.isEmpty then ofWeek? year week 1
    else
      match ← nextPart? hyphens rest with
      | d :: _ => ofWeek? year week (← fieldOf? [d])
      | [] => none
  | _ => none

def ofMonthPart? (hyphens : Bool) (year : Nat) : List Char → Option Date
  | m₁ :: m₂ :: rest => do
    let month ← fieldOf? [m₁, m₂]
    match ← nextPart? hyphens rest with
    | d₁ :: d₂ :: _ => ofFields? year month (← fieldOf? [d₁, d₂])
    | _ => none
  | _ => none

def ofIsoChars? : List Char → Option Date
  | y₁ :: y₂ :: y₃ :: y₄ :: rest => do
    let year ← fieldOf? [y₁, y₂, y₃, y₄]
    let hyphens := rest.head? = some '-'
    match if hyphens then rest.tail else rest with
    | 'W' :: rest => ofWeekPart? hyphens year rest
    | rest => ofMonthPart? hyphens year rest
  | _ => none

def ofIso? (cs : List Char) : Option Date :=
  let bytes := (cs.map Char.utf8Size).foldr (· + ·) 0
  if bytes = 7 ∨ bytes = 8 ∨ bytes = 10 then ofIsoChars? cs else none

/-- Whether a text has ten characters, with hyphens where a date has them. -/
def isHyphenated (cs : List Char) : Bool := cs.length = 10 && cs[4]? = some '-' && cs[7]? = some '-'

/-- Reads a date of the form with hyphens, month and day; blanks around it do not count. -/
def parse? (s : String) : Option Date :=
  let cs := Text.trimChars s.toList
  if isHyphenated cs then ofIso? cs else none

end NetWorth.Date
