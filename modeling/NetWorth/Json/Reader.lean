import NetWorth.Json

/-! # Reading JSON text

A value is read from the front of a list of characters, together with what is left over. Every step
spends one unit of a budget that the whole text's length bounds. Integers stay exact; a numeral with a
point or an exponent is a floating-point number, and what is beyond these is a word. -/
namespace NetWorth.Json

def isSpace (c : Char) : Bool := c = ' ' || c = '\t' || c = '\n' || c = '\r'

def hexValue? (c : Char) : Option Nat :=
  if '0' ≤ c && c ≤ '9' then some (c.toNat - '0'.toNat)
  else if 'a' ≤ c && c ≤ 'f' then some (c.toNat - 'a'.toNat + 10)
  else if 'A' ≤ c && c ≤ 'F' then some (c.toNat - 'A'.toNat + 10)
  else none

def unit? (a b c d : Char) : Option Nat := do
  let a ← hexValue? a
  let b ← hexValue? b
  let c ← hexValue? c
  let d ← hexValue? d
  return ((a * 16 + b) * 16 + c) * 16 + d

/-- Reads the rest of a text up to its closing quote; `read` holds what came before, last first. -/
def readText (read : List Char) : List Char → Option (String × List Char)
  | '"' :: rest => some (String.ofList read.reverse, rest)
  | '\\' :: 'u' :: a :: b :: c :: d :: '\\' :: 'u' :: e :: f :: g :: h :: rest => do
    let high ← unit? a b c d
    let low ← unit? e f g h
    if 0xD800 ≤ high ∧ high < 0xDC00 ∧ 0xDC00 ≤ low ∧ low < 0xE000 then
      readText (Char.ofNat (0x10000 + (high - 0xD800) * 0x400 + (low - 0xDC00)) :: read) rest
    else readText (Char.ofNat high :: read) ('\\' :: 'u' :: e :: f :: g :: h :: rest)
  | '\\' :: 'u' :: a :: b :: c :: d :: rest => do
    readText (Char.ofNat (← unit? a b c d) :: read) rest
  | '\\' :: c :: rest =>
    match c with
    | 'n' => readText ('\n' :: read) rest
    | 'r' => readText ('\r' :: read) rest
    | 't' => readText ('\t' :: read) rest
    | 'b' => readText (Char.ofNat 8 :: read) rest
    | 'f' => readText (Char.ofNat 12 :: read) rest
    | '"' | '\\' | '/' => readText (c :: read) rest
    | _ => none
  | c :: rest => readText (c :: read) rest
  | [] => none
termination_by cs => cs.length

def isNumeralChar (c : Char) : Bool := c.isDigit || c = '+' || c = '-' || c = '.' || c = 'e' || c = 'E'

def natOf? (digits : List Char) : Option Nat :=
  if digits.isEmpty || !digits.all Char.isDigit then none
  else some (digits.foldl (fun n c => 10 * n + (c.toNat - '0'.toNat)) 0)

def intOf? : List Char → Option Int
  | '-' :: digits => (natOf? digits).map fun n => -(n : Int)
  | '+' :: digits => (natOf? digits).map Int.ofNat
  | digits => (natOf? digits).map Int.ofNat

def readNumeral (cs : List Char) : Option Json :=
  if cs.all fun c => c.isDigit || c = '-' then (intOf? cs).map .int
  else
    let (negative, unsigned) := match cs with
      | '-' :: rest => (true, rest)
      | rest => (false, rest)
    let mantissa := unsigned.takeWhile fun c => c ≠ 'e' && c ≠ 'E'
    let exponentText := (unsigned.drop mantissa.length).drop 1
    let whole := mantissa.takeWhile (· ≠ '.')
    let fraction := (mantissa.drop whole.length).drop 1
    do
      let exponent ← if exponentText.isEmpty then some 0 else intOf? exponentText
      let coefficient ← natOf? (whole ++ fraction)
      return .float (.ofDecimal negative coefficient (exponent - fraction.length))

mutual

def readValue : Nat → List Char → Option (Json × List Char)
  | 0, _ => none
  | budget + 1, cs =>
    match cs.dropWhile isSpace with
    | 'n' :: 'u' :: 'l' :: 'l' :: rest => some (.null, rest)
    | 't' :: 'r' :: 'u' :: 'e' :: rest => some (.bool true, rest)
    | 'f' :: 'a' :: 'l' :: 's' :: 'e' :: rest => some (.bool false, rest)
    | 'N' :: 'a' :: 'N' :: rest => some (.float .undefined, rest)
    | 'I' :: 'n' :: 'f' :: 'i' :: 'n' :: 'i' :: 't' :: 'y' :: rest => some (.float (.infinite false), rest)
    | '-' :: 'I' :: 'n' :: 'f' :: 'i' :: 'n' :: 'i' :: 't' :: 'y' :: rest =>
      some (.float (.infinite true), rest)
    | '"' :: rest => (readText [] rest).map fun (s, rest) => (.text s, rest)
    | '[' :: rest =>
      match rest.dropWhile isSpace with
      | ']' :: rest => some (.array [], rest)
      | rest => readItems budget [] rest
    | '\x7b' :: rest =>
      match rest.dropWhile isSpace with
      | '\x7d' :: rest => some (.object [], rest)
      | rest => readMembers budget [] rest
    | rest =>
      let digits := rest.takeWhile isNumeralChar
      (readNumeral digits).map (·, rest.drop digits.length)

/-- Reads the items that follow those in `read`, which are held last first. -/
def readItems : Nat → List Json → List Char → Option (Json × List Char)
  | 0, _, _ => none
  | budget + 1, read, cs => do
    let (item, rest) ← readValue budget cs
    match rest.dropWhile isSpace with
    | ',' :: rest => readItems budget (item :: read) rest
    | ']' :: rest => some (.array (item :: read).reverse, rest)
    | _ => none

/-- Reads the members that follow those in `read`, which are held last first. Of members with one name
the last counts, in the place of the first. -/
def readMembers : Nat → List (String × Json) → List Char → Option (Json × List Char)
  | 0, _, _ => none
  | budget + 1, read, cs => do
    match cs.dropWhile isSpace with
    | '"' :: rest =>
      let (name, rest) ← readText [] rest
      match rest.dropWhile isSpace with
      | ':' :: rest =>
        let (value, rest) ← readValue budget rest
        match rest.dropWhile isSpace with
        | ',' :: rest => readMembers budget ((name, value) :: read) rest
        | '\x7d' :: rest =>
          let inOrder := ((name, value) :: read).reverse
          some (.object (Keyed.ofList inOrder), rest)
        | _ => none
      | _ => none
    | _ => none

end

def parse? (s : String) : Option Json :=
  let cs := s.toList
  match readValue (cs.length + 1) cs with
  | some (value, rest) => if rest.all isSpace then some value else none
  | none => none

end NetWorth.Json
