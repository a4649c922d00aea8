import NetWorth.Floating
import NetWorth.Keyed

/-! # Dynamic values

What importers and requests supply before it is checked: nothing, truth values, integers,
floating-point numbers, texts, lists, and objects whose members keep their order. -/
namespace NetWorth

inductive Json where
  | null
  | bool (value : Bool)
  | int (value : Int)
  | float (value : Floating)
  | text (value : String)
  | array (items : List Json)
  | object (members : List (String × Json))

namespace Json

instance : Inhabited Json := ⟨.null⟩

def members : Json → List (String × Json)
  | .object members => members
  | _ => []

/-- Looks a member up in an object; `null` and a missing member are the same here. -/
def get? (value : Json) (name : String) : Option Json :=
  match Keyed.get? name value.members with
  | none => none
  | some .null => none
  | some found => some found

def isNull : Json → Bool
  | .null => true
  | _ => false

/-- Whether a value counts as nothing: `null`, false, zeros, and what is empty. -/
def isBlank : Json → Bool
  | .null => true
  | .bool b => !b
  | .int n => n = 0
  | .float x => x.isZero
  | .text s => s.isEmpty
  | .array items => items.isEmpty
  | .object members => members.isEmpty

mutual

/-- How many lists and objects that are not empty stand one inside the other. -/
def depth : Json → Nat
  | .array items => itemsDepth items
  | .object members => membersDepth members
  | _ => 0

def itemsDepth : List Json → Nat
  | [] => 0
  | item :: rest => max (depth item + 1) (itemsDepth rest)

def membersDepth : List (String × Json) → Nat
  | [] => 0
  | (_, value) :: rest => max (depth value + 1) (membersDepth rest)

end

mutual

/-- A value with nothing in the places of numbers that are not finite. -/
def finiteOnly : Json → Json
  | .float (.finite x) => .float (.finite x)
  | .float _ => .null
  | .array items => .array (finiteItems items)
  | .object members => .object (finiteMembers members)
  | value => value

def finiteItems : List Json → List Json
  | [] => []
  | item :: rest => finiteOnly item :: finiteItems rest

def finiteMembers : List (String × Json) → List (String × Json)
  | [] => []
  | (name, value) :: rest => (name, finiteOnly value) :: finiteMembers rest

end

def ofText? : Option String → Json
  | none => .null
  | some s => .text s

end Json

end NetWorth
