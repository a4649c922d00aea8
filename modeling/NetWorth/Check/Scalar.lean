import NetWorth.Calendar.Moment
import NetWorth.Check
import NetWorth.Check.Integer

/-! # Checking single values

Texts, integers, truth values and dates. Numbers stand for each other where nothing is lost, and texts
stand for numbers, truth values and dates. -/
namespace NetWorth.Check

def text : Check String
  | .text s => .ok s
  | _ => .issue .notText

def literal (word : String) : Check Unit
  | .text s => if s = word then .ok () else .issue .wrongLiteral
  | _ => .issue .wrongLiteral

def wordEnd : Int := 9223372036854775808

def isWord (n : Int) : Bool := -wordEnd ≤ n && n < wordEnd

/-- Whether a floating-point number stands for an integer of 64 bits. The least of these does not
count. -/
def isWordFloat (x : Binary64) : Bool := x.isWhole && -wordEnd < x.truncate && x.truncate < wordEnd

def integer : Check Int
  | .int n => .ok n
  | .bool b => .ok (if b then 1 else 0)
  | .text s =>
    match readInteger s with
    | .value n => .ok n
    | .tooLong => .issue .integerSize
    | .unreadable => .issue .integerText
  | .float (.finite x) =>
    if !x.isWhole then .issue .integerFraction
    else if isWordFloat x then .ok x.truncate
    else .issue .integerSize
  | .float _ => .issue .notFinite
  | _ => .issue .notInteger

def integerBetween (least greatest : Int) (value : Json) : Checked Int :=
  (integer value).andThen fun n =>
    if n < least then .issue .tooSmall else if greatest < n then .issue .tooLarge else .ok n

def booleanText? (s : String) : Option Bool :=
  let word := s.map Char.toLower
  if ["1", "true", "t", "yes", "y", "on"].contains word then some true
  else if ["0", "false", "f", "no", "n", "off"].contains word then some false
  else none

def booleanOf (n : Int) : Checked Bool :=
  if n = 1 then .ok true else if n = 0 then .ok false else .issue .booleanText

def boolean : Check Bool
  | .bool b => .ok b
  | .int n => if isWord n then booleanOf n else .issue .notBoolean
  | .float (.finite x) => if isWordFloat x then booleanOf x.truncate else .issue .notBoolean
  | .text s =>
    match booleanText? s with
    | some b => .ok b
    | none => .issue .booleanText
  | _ => .issue .notBoolean

def dateOf : Option Moment → Checked Date
  | none => .issue .dateText
  | some moment =>
    if !moment.midnight then .issue .dateWithTime
    else
      match moment.date? with
      | some d => .ok d
      | none => .issue .dateOutOfRange

/-- A date as a text, or the moment of its midnight as a text or a count. An integer of more than 64 bits
is no count. -/
def date : Check Date
  | .text s => dateOf (Moment.ofText? s)
  | .int n => if isWord n then dateOf (Moment.ofCount? n) else .issue .notDate
  | .float x => dateOf (x.finite?.bind Moment.ofFloat?)
  | _ => .issue .notDate

end NetWorth.Check
