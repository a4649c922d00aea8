/-! # Keyed lists

Values under keys, in the order in which the keys were first written. Writing a key again replaces its
value and leaves it in its place. -/
namespace NetWorth

abbrev Keyed (κ α : Type) := List (κ × α)

namespace Keyed

variable {κ α : Type} [DecidableEq κ]

def get? (key : κ) : Keyed κ α → Option α
  | [] => none
  | (k, a) :: rest => if k = key then some a else get? key rest

def put (key : κ) (value : α) : Keyed κ α → Keyed κ α
  | [] => [(key, value)]
  | (k, a) :: rest => if k = key then (k, value) :: rest else (k, a) :: put key value rest

def erase (key : κ) : Keyed κ α → Keyed κ α
  | [] => []
  | (k, a) :: rest => if k = key then erase key rest else (k, a) :: erase key rest

def keys (m : Keyed κ α) : List κ := m.map Prod.fst

def values (m : Keyed κ α) : List α := m.map Prod.snd

/-- The list that holds the last value of each key, at the key's first place. -/
def ofList (entries : List (κ × α)) : Keyed κ α := entries.foldl (fun m e => put e.1 e.2 m) []

@[simp] theorem get?_nil (key : κ) : get? key ([] : Keyed κ α) = none := rfl

theorem get?_cons (key k : κ) (a : α) (rest : Keyed κ α) :
    get? key ((k, a) :: rest) = if k = key then some a else get? key rest := rfl

theorem get?_put (key other : κ) (value : α) (m : Keyed κ α) :
    get? other (put key value m) = if key = other then some value else get? other m := by
  induction m with
  | nil => simp [put, get?]
  | cons e rest ih =>
    obtain ⟨k, a⟩ := e
    by_cases hk : k = key
    · subst hk; by_cases ho : k = other <;> simp [put, get?, ho]
    · by_cases ho : k = other
      · subst ho; simp [put, get?, hk, Ne.symm hk]
      · simp [put, get?, hk, ho, ih]

theorem get?_erase (key other : κ) (m : Keyed κ α) :
    get? other (erase key m) = if key = other then none else get? other m := by
  induction m with
  | nil => simp [erase]
  | cons e rest ih =>
    obtain ⟨k, a⟩ := e
    by_cases hk : k = key
    · subst hk; by_cases ho : k = other <;> simp_all [erase, get?]
    · by_cases ho : k = other
      · subst ho; simp [erase, get?, hk, Ne.symm hk]
      · simp [erase, get?, hk, ho, ih]

theorem keys_put (key : κ) (value : α) (m : Keyed κ α) :
    keys (put key value m) = if key ∈ keys m then keys m else keys m ++ [key] := by
  induction m with
  | nil => simp [put, keys]
  | cons e rest ih =>
    obtain ⟨k, a⟩ := e
    by_cases hk : k = key
    · subst hk; simp [put, keys]
    · simp only [put, if_neg hk, keys, List.map_cons, List.mem_cons] at ih ⊢
      rw [ih]
      by_cases hm : key ∈ rest.map Prod.fst <;> simp [hm, Ne.symm hk]

theorem get?_eq_none {key : κ} {m : Keyed κ α} : get? key m = none ↔ key ∉ keys m := by
  induction m with
  | nil => simp [keys]
  | cons e rest ih =>
    obtain ⟨k, a⟩ := e
    by_cases hk : k = key
    · simp [get?, keys, hk]
    · simp only [get?, if_neg hk, keys, List.map_cons, List.mem_cons, not_or] at ih ⊢
      simp [ih, Ne.symm hk]

theorem mem_of_get? {key : κ} {value : α} {m : Keyed κ α} (h : get? key m = some value) :
    (key, value) ∈ m := by
  induction m with
  | nil => simp at h
  | cons e rest ih =>
    obtain ⟨k, a⟩ := e
    rw [get?_cons] at h
    split at h
    · rename_i hk; subst hk; simp_all
    · exact List.mem_cons_of_mem _ (ih h)

end Keyed

end NetWorth
