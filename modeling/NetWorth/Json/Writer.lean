import NetWorth.Json

/-! # Writing values as JSON text

A layout says what stands between members and whether characters outside ASCII are escaped. Two layouts
are in use: trigger descriptions are compact and keep every character, log lines are spaced and ASCII. -/
namespace NetWorth.Json

structure Layout where
  comma : List Char
  colon : List Char
  asciiOnly : Bool

def Layout.compact : Layout := ⟨[','], [':'], false⟩

def Layout.spaced : Layout := ⟨[',', ' '], [':', ' '], true⟩

/-- The escape of a code point by its UTF-16 units. -/
def escapeUnits (n : Nat) : List Char :=
  if n < 0x10000 then '\\' :: 'u' :: Text.hexField 4 n
  else
    let high := 0xD800 + (n - 0x10000) / 0x400
    let low := 0xDC00 + (n - 0x10000) % 0x400
    '\\' :: 'u' :: Text.hexField 4 high ++ '\\' :: 'u' :: Text.hexField 4 low

def escapeChar (asciiOnly : Bool) (c : Char) : List Char :=
  if c = '"' then ['\\', '"']
  else if c = '\\' then ['\\', '\\']
  else if c = '\n' then ['\\', 'n']
  else if c = '\r' then ['\\', 'r']
  else if c = '\t' then ['\\', 't']
  else if c.toNat = 8 then ['\\', 'b']
  else if c.toNat = 12 then ['\\', 'f']
  else if c.toNat < 32 || (asciiOnly && 126 < c.toNat) then escapeUnits c.toNat
  else [c]

def writeText (layout : Layout) (s : String) : List Char :=
  '"' :: s.toList.flatMap (escapeChar layout.asciiOnly) ++ ['"']

/-- A number in floating point; what is not finite is a word. -/
def writeFloat : Floating → List Char
  | .finite x => x.text.toList
  | .infinite false => ['I', 'n', 'f', 'i', 'n', 'i', 't', 'y']
  | .infinite true => ['-', 'I', 'n', 'f', 'i', 'n', 'i', 't', 'y']
  | .undefined => ['N', 'a', 'N']

mutual

def write (layout : Layout) : Json → List Char
  | .null => ['n', 'u', 'l', 'l']
  | .bool true => ['t', 'r', 'u', 'e']
  | .bool false => ['f', 'a', 'l', 's', 'e']
  | .int n => (toString n).toList
  | .float x => writeFloat x
  | .text s => writeText layout s
  | .array items => '[' :: writeItems layout items ++ [']']
  | .object members => '\x7b' :: writeMembers layout members ++ ['\x7d']

def writeItems (layout : Layout) : List Json → List Char
  | [] => []
  | [item] => write layout item
  | item :: next :: rest => write layout item ++ layout.comma ++ writeItems layout (next :: rest)

def writeMembers (layout : Layout) : List (String × Json) → List Char
  | [] => []
  | [(name, value)] => writeText layout name ++ layout.colon ++ write layout value
  | (name, value) :: next :: rest =>
    writeText layout name ++ layout.colon ++ write layout value ++ layout.comma
      ++ writeMembers layout (next :: rest)

end

def compact (value : Json) : String := String.ofList (write .compact value)

def spaced (value : Json) : String := String.ofList (write .spaced value)

end NetWorth.Json
