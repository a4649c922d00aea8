import NetWorth.Api.BodyCheck
import NetWorth.Proofs.Calendar.DateText
import NetWorth.Proofs.Keyed

/-! # Values that read back

A way of writing is faithful to a check if the check reads back whatever was written, and what was written
is nowhere `null`. Lists keep this. Of an object, the members without a value may be left out: a check that
can do without them reads nothing in their places. -/
namespace NetWorth

namespace Json

mutual

/-- Whether a value is nowhere `null`, at any depth. -/
def nullFree : Json → Bool
  | .null => false
  | .array items => itemsNullFree items
  | .object members => membersNullFree members
  | _ => true

def itemsNullFree : List Json → Bool
  | [] => true
  | item :: rest => nullFree item && itemsNullFree rest

def membersNullFree : List (String × Json) → Bool
  | [] => true
  | (_, value) :: rest => nullFree value && membersNullFree rest

end

theorem nullFree_array {items : List Json} :
    (Json.array items).nullFree = true ↔ ∀ item ∈ items, item.nullFree = true := by
  rw [nullFree]
  induction items with
  | nil => simp [itemsNullFree]
  | cons item rest ih => rw [itemsNullFree, Bool.and_eq_true, ih, List.forall_mem_cons]

theorem nullFree_object {members : List (String × Json)} :
    (Json.object members).nullFree = true ↔ ∀ m ∈ members, m.2.nullFree = true := by
  rw [nullFree]
  induction members with
  | nil => simp [membersNullFree]
  | cons member rest ih => rw [membersNullFree, Bool.and_eq_true, ih, List.forall_mem_cons]

@[simp] theorem nullFree_text (s : String) : (Json.text s).nullFree = true := rfl

@[simp] theorem nullFree_bool (b : Bool) : (Json.bool b).nullFree = true := rfl

/-- Nothing in an object is `null` but members of the given names, which are always there. -/
structure NullsUnder (names : List String) (value : Json) : Prop where
  present : ∀ name ∈ names, (Keyed.get? name value.members).isSome = true
  elsewhere : ∀ m ∈ value.members, m.2.nullFree = true ∨ m.1 ∈ names ∧ m.2 = .null

theorem isNull_of_nullFree {value : Json} (h : value.nullFree = true) : value.isNull = false := by
  cases value <;> first | rfl | contradiction

end Json

/-- What is written reads back, and none of it is `null`. -/
structure Faithful {α : Type} (check : Check α) (write : α → Json) : Prop where
  reads : ∀ a, check (write a) = .ok a
  nullFree : ∀ a, (write a).nullFree = true

/-- What is written reads back, and at most the members of the given names are `null`. -/
structure FaithfulBut {α : Type} (names : List String) (check : Check α) (write : α → Json) : Prop where
  reads : ∀ a, check (write a) = .ok a
  nulls : ∀ a, (write a).NullsUnder names

namespace Faithful

variable {α : Type} {check : Check α} {write : α → Json}

theorem text : Faithful Check.text Body.text := ⟨fun _ => rfl, fun _ => rfl⟩

theorem date : Faithful Check.date Body.date := ⟨Date.check_text, fun _ => rfl⟩

theorem boolean : Faithful Check.boolean Json.bool := ⟨fun _ => rfl, fun _ => rfl⟩

theorem itemsFrom (h : Faithful check write) (n : Nat) (items : List α) :
    Check.itemsFrom check n (items.map write) = .ok items := by
  induction items generalizing n with
  | nil => rfl
  | cons item rest ih =>
    rw [List.map_cons, Check.itemsFrom, h.reads, ih]
    rfl

theorem list (h : Faithful check write) : Faithful (Check.list check) (Body.list write) where
  reads := h.itemsFrom 0
  nullFree _ := Json.nullFree_array.2 (List.forall_mem_map.2 fun a _ => h.nullFree a)

/-- What may be missing reads back from `null` or from its value. -/
theorem optional (h : Faithful check write) (value : Option α) :
    Check.optional check (Body.optional write value) = .ok value := by
  cases value with
  | none => rfl
  | some a =>
    have hcheck : Check.optional check (write a) = (check (write a)).map some := by
      have hnull := h.nullFree a
      cases hwrite : write a with
      | null =>
        rw [hwrite] at hnull
        contradiction
      | bool | int | float | text | array | object => rfl
    exact hcheck.trans (congrArg (Checked.map some) (h.reads a))

variable {members : List (String × Json)}

theorem required (h : Faithful check write) (name : String) {a : α}
    (hget : Keyed.get? name members = some (write a)) : Check.required name check members = .ok a := by
  rw [Check.required, hget]
  exact congrArg (Checked.under name) (h.reads a)

theorem withDefault (h : Faithful check write) (name : String) {a fallback : α}
    (hget : Keyed.get? name members = some (write a)) :
    Check.withDefault name fallback check members = .ok a := by
  rw [Check.withDefault, hget]
  exact congrArg (Checked.under name) (h.reads a)

end Faithful

namespace Body

variable {α : Type} {check : Check α} {write : α → Json} {always : List String}
  {members : List (String × Json)}

/-- The members that are written when those without a value are left out. -/
def kept (always : List String) (members : List (String × Json)) : List (String × Json) :=
  members.filter fun m => always.contains m.1 || !m.2.isNull

theorem fields_omitted (always : List String) (members : List (String × Json)) :
    fields .omitted always members = .object (kept always members) := rfl

/-- Members under different names, each `null` or with nothing `null` in it. -/
structure Orderly (members : List (String × Json)) : Prop where
  distinct : (Keyed.keys members).Nodup
  sound : ∀ m ∈ members, m.2 = .null ∨ m.2.nullFree = true

theorem sound_optional (h : Faithful check write) (value : Option α) :
    optional write value = .null ∨ (optional write value).nullFree = true := by
  cases value with
  | none => exact .inl rfl
  | some a => exact .inr (h.nullFree a)

namespace Orderly

theorem get?_kept (h : Orderly members) (always : List String) (name : String) :
    Keyed.get? name (kept always members) =
      (Keyed.get? name members).filter fun value => always.contains name || !value.isNull :=
  Keyed.get?_filter h.distinct _ name

theorem get?_kept_of_faithful (h : Orderly members) (hwrite : Faithful check write) {name : String} {a : α}
    (hget : Keyed.get? name members = some (write a)) :
    Keyed.get? name (kept always members) = some (write a) := by
  rw [h.get?_kept, hget, Option.filter_some, Json.isNull_of_nullFree (hwrite.nullFree a)]
  simp

theorem required (h : Orderly members) (hwrite : Faithful check write) (name : String) {a : α}
    (hget : Keyed.get? name members = some (write a)) :
    Check.required name check (kept always members) = .ok a :=
  hwrite.required name (h.get?_kept_of_faithful hwrite hget)

theorem withDefault (h : Orderly members) (hwrite : Faithful check write) (name : String) {a fallback : α}
    (hget : Keyed.get? name members = some (write a)) :
    Check.withDefault name fallback check (kept always members) = .ok a :=
  hwrite.withDefault name (h.get?_kept_of_faithful hwrite hget)

/-- A value that may be missing reads back, also where its member is left out. -/
theorem maybe (h : Orderly members) (hwrite : Faithful check write) (name : String) {value : Option α}
    (hget : Keyed.get? name members = some (optional write value)) :
    Check.maybe name check (kept always members) = .ok value := by
  rw [Check.maybe, Check.withDefault, h.get?_kept, hget, Option.filter_some]
  split
  · rename_i found hfound
    split at hfound
    · rw [← Option.some.inj hfound, hwrite.optional]
      rfl
    · contradiction
  · rename_i hmissing
    cases value with
    | none => rfl
    | some a =>
      rw [optional, Json.isNull_of_nullFree (hwrite.nullFree a)] at hmissing
      simp at hmissing

theorem sound_kept (h : Orderly members) {m : String × Json} (hm : m ∈ kept always members) :
    m.2.nullFree = true ∨ m.1 ∈ always ∧ m.2 = .null := by
  obtain ⟨hmem, hshown⟩ := List.mem_filter.1 hm
  rcases h.sound m hmem with hnull | hfree
  · rw [hnull] at hshown
    exact .inr ⟨by simpa [Json.isNull] using hshown, hnull⟩
  · exact .inl hfree

end Orderly

section

variable {check : List (String × Json) → Checked α} {members : α → List (String × Json)}

/-- Where members without a value are left out but for some, the object reads back if its members do, and
only those that are never left out can be `null`. -/
theorem faithfulBut_fields (horderly : ∀ a, Orderly (members a))
    (hreads : ∀ a, Orderly (members a) → check (kept always (members a)) = .ok a)
    (hpresent : ∀ a, ∀ name ∈ always, name ∈ Keyed.keys (members a)) :
    FaithfulBut always (Check.object .notModel check) fun a => fields .omitted always (members a) where
  reads a := hreads a (horderly a)
  nulls a := by
    refine ⟨fun name hname => ?_, fun m hm => (horderly a).sound_kept hm⟩
    obtain ⟨value, hvalue⟩ := Option.isSome_iff_exists.1 (Keyed.get?_isSome_iff.2 (hpresent a name hname))
    show (Keyed.get? name (kept always (members a))).isSome = true
    simp [(horderly a).get?_kept, hvalue, Option.filter_some, hname]

/-- Where every member without a value is left out, nothing is `null`. -/
theorem faithful_fields (horderly : ∀ a, Orderly (members a))
    (hreads : ∀ a, Orderly (members a) → check (kept [] (members a)) = .ok a) :
    Faithful (Check.object .notModel check) fun a => fields .omitted [] (members a) where
  reads a := hreads a (horderly a)
  nullFree a := by
    rw [fields_omitted, Json.nullFree_object]
    intro m hm
    rcases (horderly a).sound_kept hm with hfree | ⟨hnone, -⟩
    · exact hfree
    · contradiction

end

end Body

end NetWorth
