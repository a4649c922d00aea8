import NetWorth.Json

/-! # Checking supplied values

A check turns a dynamic value into a typed one or lists everything that is wrong with it, each issue
with the place where it was found. Parts are checked independently, so one answer names all issues, in
the order of the parts. -/
namespace NetWorth

inductive IssueKind where
  | missing
  | wrongLiteral
  | notText
  | textTooShort
  | textTooLong
  | notInteger
  | integerFraction
  | integerText
  | integerSize
  | notFinite
  | tooSmall
  | tooLarge
  | notBoolean
  | booleanText
  | notDate
  | dateText
  | dateWithTime
  | dateOutOfRange
  | notObject
  | notModel
  | notList
  | unknownTag
  | missingTag
  | refused
  | tooDeep
deriving DecidableEq, Repr

def IssueKind.word : IssueKind → String
  | .missing => "missing"
  | .wrongLiteral => "literal_error"
  | .notText => "string_type"
  | .textTooShort => "string_too_short"
  | .textTooLong => "string_too_long"
  | .notInteger => "int_type"
  | .integerFraction => "int_from_float"
  | .integerText => "int_parsing"
  | .integerSize => "int_parsing_size"
  | .notFinite => "finite_number"
  | .tooSmall => "greater_than_equal"
  | .tooLarge => "less_than_equal"
  | .notBoolean => "bool_type"
  | .booleanText => "bool_parsing"
  | .notDate => "date_type"
  | .dateText => "date_from_datetime_parsing"
  | .dateWithTime => "date_from_datetime_inexact"
  | .dateOutOfRange => "date_parsing"
  | .notObject => "dict_type"
  | .notModel => "model_type"
  | .notList => "list_type"
  | .unknownTag => "union_tag_invalid"
  | .missingTag => "union_tag_not_found"
  | .refused => "value_error"
  | .tooDeep => "json_invalid"

structure Issue where
  location : List String
  kind : IssueKind
deriving DecidableEq, Repr

inductive Checked (α : Type) where
  | ok (value : α)
  | rejected (issues : List Issue)
deriving Repr

namespace Checked

variable {α β : Type}

def map (f : α → β) : Checked α → Checked β
  | .ok a => .ok (f a)
  | .rejected issues => .rejected issues

/-- Applies a checked function to a checked argument; the issues of both add up. -/
def apply (f : Checked (α → β)) (a : Checked α) : Checked β :=
  match f, a with
  | .ok f, .ok a => .ok (f a)
  | .rejected issues, .ok _ => .rejected issues
  | .ok _, .rejected issues => .rejected issues
  | .rejected first, .rejected second => .rejected (first ++ second)

instance : Applicative Checked where
  pure := .ok
  map := map
  seq f a := apply f (a ())

def issue (kind : IssueKind) : Checked α := .rejected [⟨[], kind⟩]

def under (place : String) : Checked α → Checked α
  | .ok a => .ok a
  | .rejected issues => .rejected (issues.map fun i => { i with location := place :: i.location })

def andThen (a : Checked α) (f : α → Checked β) : Checked β :=
  match a with
  | .ok a => f a
  | .rejected issues => .rejected issues

@[simp] theorem pure_eq (a : α) : (pure a : Checked α) = .ok a := rfl
@[simp] theorem map_ok (f : α → β) (a : α) : f <$> (Checked.ok a) = .ok (f a) := rfl
@[simp] theorem seq_ok (f : α → β) (a : α) : (Checked.ok f) <*> (Checked.ok a) = .ok (f a) := rfl
@[simp] theorem under_ok (place : String) (a : α) : under place (.ok a) = .ok a := rfl

end Checked

abbrev Check (α : Type) := Json → Checked α

namespace Check

variable {α : Type}

def optional (check : Check α) : Check (Option α)
  | .null => .ok none
  | value => (check value).map some

def itemsFrom (check : Check α) : Nat → List Json → Checked (List α)
  | _, [] => .ok []
  | n, item :: rest =>
    List.cons <$> (check item).under (toString n) <*> itemsFrom check (n + 1) rest

def list (check : Check α) : Check (List α)
  | .array items => itemsFrom check 0 items
  | _ => .issue .notList

/-- Checks the members of an object; of what is none, the given kind of issue is made. -/
def object (otherwise : IssueKind) (check : List (String × Json) → Checked α) : Check α
  | .object members => check members
  | _ => .issue otherwise

/-- The levels of lists and objects, one inside the other, that a document may have. -/
def greatestDepth : Nat := 200

/-- Checks a document, unless it is too deep to be read. -/
def document (check : Check α) : Check α := fun value =>
  if greatestDepth < value.depth then .issue .tooDeep else check value

def required (name : String) (check : Check α) (members : List (String × Json)) : Checked α :=
  match Keyed.get? name members with
  | some value => (check value).under name
  | none => (Checked.issue .missing).under name

def withDefault (name : String) (fallback : α) (check : Check α) (members : List (String × Json)) :
    Checked α :=
  match Keyed.get? name members with
  | some value => (check value).under name
  | none => .ok fallback

/-- A member that may be missing or `null`. -/
def maybe (name : String) (check : Check α) (members : List (String × Json)) : Checked (Option α) :=
  withDefault name none (optional check) members

/-- One of several kinds of object, told apart by the text of one member. -/
def tagged (tag : String) (kinds : List (String × (List (String × Json) → Checked α))) : Check α :=
  object .notObject fun members =>
    match Keyed.get? tag members with
    | none => .issue .missingTag
    | some (.text word) =>
      match Keyed.get? word kinds with
      | some check => (check members).under word
      | none => .issue .unknownTag
    | some _ => .issue .unknownTag

end Check

end NetWorth
