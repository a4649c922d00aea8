import NetWorth.Json
import NetWorth.Text.Quoted

/-! # Values inside messages

How a rejected value is shown to the reader of a message, and what its kind is called there. -/
namespace NetWorth.Json

mutual

/-- The literal form: texts are quoted, and nothing is called `None`. -/
def literal : Json → String
  | .null => "None"
  | .bool true => "True"
  | .bool false => "False"
  | .int n => toString n
  | .float x => x.text
  | .text s => Text.quoted s
  | .array items => "[" ++ literalItems items ++ "]"
  | .object members => "\x7b" ++ literalMembers members ++ "\x7d"

def literalItems : List Json → String
  | [] => ""
  | [item] => literal item
  | item :: next :: rest => literal item ++ ", " ++ literalItems (next :: rest)

def literalMembers : List (String × Json) → String
  | [] => ""
  | [(name, value)] => Text.quoted name ++ ": " ++ literal value
  | (name, value) :: next :: rest =>
    Text.quoted name ++ ": " ++ literal value ++ ", " ++ literalMembers (next :: rest)

end

/-- The plain form: a text stands for itself, anything else as in `literal`. -/
def plain : Json → String
  | .text s => s
  | value => value.literal

def kindName : Json → String
  | .null => "NoneType"
  | .bool _ => "bool"
  | .int _ => "int"
  | .float _ => "float"
  | .text _ => "str"
  | .array _ => "list"
  | .object _ => "dict"

end NetWorth.Json
