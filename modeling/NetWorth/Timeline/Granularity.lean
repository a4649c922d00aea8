import NetWorth.Calendar.Timestamp
import NetWorth.Failure
import NetWorth.Keyed
import NetWorth.Text.Blank
import NetWorth.Text.CaseMap
import NetWorth.Text.Digit

/-! # Granularity

How finely a timeline is kept: every point, or one per hour, day, week from Monday, month, year, or
window of a fixed width counted from 1970-01-01. -/
namespace NetWorth

inductive Granularity where
  | full
  | hourly
  | daily
  | weekly
  | monthly
  | yearly
  | window (milliseconds : Int)
deriving DecidableEq, Repr

inductive Keep where
  | first
  | last
deriving DecidableEq, Repr

namespace Granularity

def word? : Granularity → Option String
  | .full => some "full"
  | .hourly => some "hourly"
  | .daily => some "daily"
  | .weekly => some "weekly"
  | .monthly => some "monthly"
  | .yearly => some "yearly"
  | .window _ => none

def named : List Granularity := [.full, .hourly, .daily, .weekly, .monthly, .yearly]

def unit? : List Char → Option Nat
  | ['m', 's'] => some 1
  | ['s'] => some 1000
  | ['m'] => some 60000
  | ['h'] => some 3600000
  | ['d'] => some 86400000
  | ['w'] => some 604800000
  | _ => none

structure Duration where
  digits : List Char
  unit : Nat

/-- Digits of any script, blanks if any, and a unit. -/
def Duration.ofChars? (cs : List Char) : Option Duration :=
  let digits := cs.takeWhile Text.isDigit
  if digits.isEmpty then none
  else (unit? ((cs.drop digits.length).dropWhile Text.isBlank)).map (⟨digits, ·⟩)

def Duration.window (limit : Option Nat) (duration : Duration) : Except Failure Granularity :=
  if limit.any (· < duration.digits.length) then .error (.tooManyDigits duration.digits.length)
  else .ok (.window (Text.digitsValue duration.digits * duration.unit))

def ofWord? (word : String) : Option Granularity :=
  if word = "none" then some .full else named.find? fun g => g.word? = some word

/-- Reads a granularity without regard to case and surrounding blanks. Numbers of more digits than the limit, if
there is one, are not read. -/
def parseWithin (limit : Option Nat) (value : String) : Except Failure Granularity :=
  let word := Text.lower (Text.trim value)
  match ofWord? word with
  | some g => .ok g
  | none =>
    match Duration.ofChars? word.toList with
    | some duration => duration.window limit
    | none => .error (.service (.invalidGranularity value))

def parse (value : String) : Except Failure Granularity := parseWithin (some Failure.greatestDigits) value

/-- Whether every point is kept: always in full, and for windows without a width. -/
def keepsAll : Granularity → Bool
  | .full => true
  | .window milliseconds => milliseconds ≤ 0
  | _ => false

/-- The number of the bucket of a timestamp in universal time; later buckets have greater numbers. -/
def bucket (g : Granularity) (utc : Timestamp) : Int :=
  match g with
  | .full => utc.instant
  | .hourly => utc.wall / 3600000000
  | .daily => utc.date.day
  | .weekly => utc.date.day / 7
  | .monthly => utc.date.year * 12 + utc.date.month
  | .yearly => utc.date.year
  | .window milliseconds => Int.fdiv (Int.fdiv (utc.instant - Timestamp.epoch) 1000) milliseconds

variable {α : Type}

/-- A timestamp in universal time. A clock without an offset is a clock of the system, which is assumed to show
universal time. Where it stands is settled by looking at the day before as well, so it has no place on the first
day of the calendar. -/
def placed (t : Timestamp) : Except Failure Timestamp :=
  if t.offset = none ∧ t.wall < Timestamp.microsPerDay then .error .noDayBefore
  else
    match t.toUtc? with
    | some utc => .ok utc
    | none => .error .dateOutOfRange

def bucketOf (g : Granularity) (time : α → Timestamp) (point : α) : Except Failure Int :=
  (placed (time point)).map g.bucket

/-- Enters a point into its bucket: the first one stays, or the last one replaces it. -/
def enter (g : Granularity) (keep : Keep) (time : α → Timestamp) (buckets : Keyed Int α) (point : α) :
    Except Failure (Keyed Int α) := do
  let key ← g.bucketOf time point
  match keep, Keyed.get? key buckets with
  | .first, some _ => return buckets
  | _, _ => return Keyed.put key point buckets

def thin (g : Granularity) (keep : Keep) (time : α → Timestamp) (points : List α) :
    Except Failure (List α) :=
  if g.keepsAll then .ok points
  else do
    let buckets ← points.foldlM (g.enter keep time) []
    return Keyed.values (buckets.mergeSort fun a b => decide (a.1 ≤ b.1))

end Granularity

end NetWorth
