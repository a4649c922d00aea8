import NetWorth.Calendar.Date
import NetWorth.Text.Blank

/-! # Integers as people write them

An integer is a minus or none and digits without zeros in front. A text that is not is read again once it
is tidied: white space around it, a plus, zeros in front, a fraction of zeros, and single underscores
between digits go. More than 4300 digits are too many. -/
namespace NetWorth.Check

inductive IntegerReading where
  | value (n : Int)
  | tooLong
  | unreadable
deriving DecidableEq, Repr

def greatestLength : Nat := 4300

/-- Reads an integer without anything to tidy. Length is judged before what follows the digits. -/
def readTidy (cs : List Char) : IntegerReading :=
  let (negative, unsigned) : Bool × List Char := match cs with
    | '-' :: rest => (true, rest)
    | rest => (false, rest)
  let digits := unsigned.takeWhile Char.isDigit
  if digits.head? = some '0' then
    if unsigned = ['0'] then .value 0 else .unreadable
  else if greatestLength < digits.length then .tooLong
  else if digits.isEmpty || digits.length < unsigned.length then .unreadable
  else
    let n := (Date.fieldOf? digits).getD 0
    .value (if negative then -(n : Int) else n)

def trimWhite (cs : List Char) : List Char :=
  ((cs.dropWhile Text.isWhite).reverse.dropWhile Text.isWhite).reverse

/-- What follows the zeros and underscores behind a first zero. In front of a point, or of nothing, the
last of them stays. -/
def behindZero? (last : Char) : List Char → Option (List Char)
  | [] => some [last]
  | c :: rest =>
    if c = '0' || c = '_' then behindZero? c rest
    else if c.isDigit || c = '-' then some (c :: rest)
    else if c = '.' then some (last :: c :: rest)
    else none

def dropZeros? : List Char → Option (List Char)
  | [] => none
  | c :: rest =>
    if c = '0' then behindZero? c rest
    else if c.isDigit || c = '-' then some (c :: rest)
    else none

def dropFraction (cs : List Char) : List Char :=
  let whole := cs.takeWhile (· ≠ '.')
  let fraction := (cs.drop whole.length).drop 1
  if !fraction.isEmpty && fraction.all (· = '0') then whole else cs

def hasDouble : List Char → Bool
  | '_' :: '_' :: _ => true
  | _ :: rest => hasDouble rest
  | [] => false

def dropUnderscores (cs : List Char) : List Char :=
  if cs.head? = some '_' || cs.getLast? = some '_' || hasDouble cs then cs else cs.filter (· ≠ '_')

def tidyUnsigned? (cs : List Char) : Option (List Char) :=
  (dropZeros? cs).map fun cs => dropUnderscores (dropFraction cs)

/-- Tidies a text. A minus stays, and a plus must not stand before one. -/
def tidy? (cs : List Char) : Option (List Char) :=
  match trimWhite cs with
  | '+' :: '-' :: _ => none
  | '+' :: rest => tidyUnsigned? rest
  | '-' :: rest => (tidyUnsigned? rest).map ('-' :: ·)
  | cs => tidyUnsigned? cs

/-- Reads an integer, tidying it if need be; what is then still too long is as good as unreadable. -/
def readInteger (s : String) : IntegerReading :=
  match readTidy s.toList with
  | .unreadable =>
    match (tidy? s.toList).map readTidy with
    | some (.value n) => .value n
    | _ => .unreadable
  | reading => reading

end NetWorth.Check
