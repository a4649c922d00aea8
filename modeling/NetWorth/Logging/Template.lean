import NetWorth.Keyed
import NetWorth.Logging.Layout
import NetWorth.Text.Digit

/-! # Message templates

A template is read into pieces: characters that stand for themselves, and places for arguments, each
with a name, flags, a width, a precision and a letter. Arguments are taken in order, or by name if a
single object is given. The first piece that does not fit decides what is told. -/
namespace NetWorth.Template

inductive Size where
  | absent
  | written (n : Nat)
  | supplied

/-- A place for an argument. A template that ends inside a place leaves it without a letter. -/
structure Place where
  name : Option String
  flags : List Char
  width : Size
  precision : Size
  letter : Option Char
  position : Nat

/-- Where the values of names are found: among the members of an object. A list has values but no
names. -/
inductive Names where
  | members (members : List (String × Json))
  | list

inductive Piece where
  | literal (c : Char)
  | place (place : Place)
  | unclosedName

/-- A name up to the parenthesis that closes it, with what follows; `depth` others are open inside. -/
def readName (depth : Nat) (read : List Char) : List Char → Option (String × List Char)
  | [] => none
  | ')' :: rest =>
    match depth with
    | 0 => some (String.ofList read.reverse, rest)
    | depth + 1 => readName depth (')' :: read) rest
  | '(' :: rest => readName (depth + 1) ('(' :: read) rest
  | c :: rest => readName depth (c :: read) rest

def readSize : List Char → Size × List Char
  | '*' :: rest => (.supplied, rest)
  | cs =>
    let digits := cs.takeWhile Char.isDigit
    (if digits.isEmpty then .absent else .written (Text.digitsValue digits), cs.drop digits.length)

/-- A precision without digits is zero. -/
def readPrecision : List Char → Size × List Char
  | '.' :: rest =>
    match readSize rest with
    | (.absent, rest) => (.written 0, rest)
    | found => found
  | cs => (.absent, cs)

def isFlag (c : Char) : Bool := c = '-' || c = '0' || c = '+' || c = ' ' || c = '#'

def skipSizeLetter : List Char → List Char
  | 'h' :: rest | 'l' :: rest | 'L' :: rest => rest
  | cs => cs

def readPlace (total : Nat) (name : Option String) (cs : List Char) : Place × List Char :=
  let flags := cs.takeWhile isFlag
  let (width, cs) := readSize (cs.drop flags.length)
  let (precision, cs) := readPrecision cs
  let cs := skipSizeLetter cs
  (⟨name, flags, width, precision, cs.head?, total - cs.length⟩, cs.tail)

def piecesFrom (total : Nat) : Nat → List Char → List Piece
  | 0, _ => []
  | _ + 1, [] => []
  | budget + 1, '%' :: '%' :: rest => .literal '%' :: piecesFrom total budget rest
  | budget + 1, '%' :: '(' :: rest =>
    match readName 0 [] rest with
    | none => [.unclosedName]
    | some (name, rest) =>
      let (place, rest) := readPlace total (some name) rest
      .place place :: piecesFrom total budget rest
  | budget + 1, '%' :: rest =>
    let (place, rest) := readPlace total none rest
    .place place :: piecesFrom total budget rest
  | budget + 1, c :: rest => .literal c :: piecesFrom total budget rest

def pieces (template : String) : List Piece :=
  piecesFrom template.toList.length template.toList.length template.toList

def take : List LogValue → Except Misfit (LogValue × List LogValue)
  | [] => .error .tooFewArguments
  | value :: rest => .ok (value, rest)

structure Arguments where
  values : List LogValue
  names : Option Names

structure SizeLimit where
  least : Int
  greatest : Int
  misfit : Misfit

def SizeLimit.width : SizeLimit := ⟨-9223372036854775808, 9223372036854775807, .widthTooBig⟩

def SizeLimit.precision : SizeLimit := ⟨-2147483648, 2147483647, .precisionTooBig⟩

def Size.resolve (size : Size) (limit : SizeLimit) (arguments : List LogValue) :
    Except Misfit (Option Int × List LogValue) :=
  match size with
  | .absent => .ok (none, arguments)
  | .written n => if limit.greatest < n then .error limit.misfit else .ok (some n, arguments)
  | .supplied => do
    let (value, rest) ← take arguments
    match value.integer? with
    | some n =>
      if n < limit.least ∨ limit.greatest < n then .error .sizeOutOfRange else return (some n, rest)
    | none => .error .sizeNotInteger

/-- The arguments that a place draws on: a named place has its own one only. -/
def argumentsFor (names : Option Names) (place : Place) (arguments : List LogValue) :
    Except Misfit (List LogValue) :=
  match place.name, names with
  | none, _ => .ok arguments
  | some _, none => .error .needsNames
  | some _, some .list => .error .listHasNoNames
  | some name, some (.members members) =>
    match Keyed.get? name members with
    | some value => .ok [.dynamic value]
    | none => .error (.missingName name)

/-- Fills a place, and tells which arguments are left. A width below zero means the left side, a
precision below zero none. -/
def Place.fill (names : Option Names) (place : Place) (arguments : List LogValue) :
    Except Misfit (List Char × List LogValue) := do
  let arguments ← argumentsFor names place arguments
  let (width, arguments) ← place.width.resolve .width arguments
  let (precision, arguments) ← place.precision.resolve .precision arguments
  match place.letter with
  | none => .error .incomplete
  | some letter =>
    let (value, arguments) ← take arguments
    let width := width.getD 0
    let layout : Layout := ⟨place.flags.contains '-' || width < 0, place.flags.contains '0',
      place.flags.contains '+', place.flags.contains ' ', place.flags.contains '#', width.natAbs,
      precision.map Int.toNat⟩
    return (← layout.write letter place.position value, arguments)

/-- Fills the pieces in order. Arguments that no place takes are refused, unless they go by name. -/
def fillPieces (names : Option Names) :
    List Piece → List LogValue → Except Misfit (List Char)
  | [], arguments =>
    if arguments.isEmpty || names.isSome then .ok [] else .error .tooManyArguments
  | .literal c :: rest, arguments => do return c :: (← fillPieces names rest arguments)
  | .unclosedName :: _, _ => .error (if names.isSome then .incompleteName else .needsNames)
  | .place place :: rest, arguments => do
    let (written, left) ← place.fill names arguments
    return written ++ (← fillPieces names rest left)

namespace Arguments

/-- Several values; a single object that is not empty gives names as well. -/
def ofList (values : List Json) : Arguments :=
  match values with
  | [.object members] =>
    ⟨[.dynamic (.object members)], if members.isEmpty then none else some (.members members)⟩
  | _ => ⟨values.map .dynamic, none⟩

def ofValue (value : LogValue) : Arguments :=
  if value.isBlank then ⟨[], none⟩
  else
    match value with
    | .dynamic (.object members) => ⟨[value], some (.members members)⟩
    | .dynamic (.array _) => ⟨[value], some .list⟩
    | _ => ⟨[value], none⟩

end Arguments

def fill (template : String) (arguments : Arguments) : Except Misfit String := do
  return String.ofList (← fillPieces arguments.names (pieces template) arguments.values)

end NetWorth.Template
