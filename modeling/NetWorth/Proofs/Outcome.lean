import Mathlib.Data.List.Forall2
import NetWorth.Journal

/-! # Sequences of operations that may fail

A sequence ends well exactly when each of its parts does. -/
namespace NetWorth

namespace Outcome

variable {ε α β σ : Type}

@[simp] theorem bind_ok_iff {x : Except ε α} {f : α → Except ε β} {b : β} :
    x.bind f = .ok b ↔ ∃ a, x = .ok a ∧ f a = .ok b := by
  cases x <;> simp [Except.bind]

@[simp] theorem andThen_ok_iff {x : Except ε α} {f : α → Except ε β} {b : β} :
    (x >>= f) = .ok b ↔ ∃ a, x = .ok a ∧ f a = .ok b := bind_ok_iff

theorem bind_error_iff {x : Except ε α} {f : α → Except ε β} {e : ε} :
    x.bind f = .error e ↔ x = .error e ∨ ∃ a, x = .ok a ∧ f a = .error e := by
  cases x <;> simp [Except.bind]

@[simp] theorem map_ok_iff {x : Except ε α} {f : α → β} {b : β} :
    x.map f = .ok b ↔ ∃ a, x = .ok a ∧ f a = b := by
  cases x <;> simp [Except.map]

@[simp] theorem fmap_ok_iff {x : Except ε α} {f : α → β} {b : β} :
    (f <$> x) = .ok b ↔ ∃ a, x = .ok a ∧ f a = b := map_ok_iff

@[simp] theorem pure_ok_iff {a b : α} : (pure a : Except ε α) = .ok b ↔ a = b := by
  simp [pure, Except.pure]

theorem ok_of_toOption {x : Except ε α} {a : α} (h : x.toOption = some a) : x = .ok a := by
  cases x with
  | error e => contradiction
  | ok b => exact congrArg Except.ok (Option.some.inj h)

/-- Sequences agree where their first parts agree and their rests agree on what those lead to. -/
theorem bind_congr {x y : Except ε α} {f g : α → Except ε β} (hxy : x = y)
    (h : ∀ a, y = .ok a → f a = g a) : x.bind f = y.bind g := by
  subst hxy
  cases x with
  | error e => rfl
  | ok a => exact h a rfl

theorem ofSignal_ok_iff {x : Except Decimal.Signal α} {a : α} : ofSignal x = .ok a ↔ x = .ok a := by
  cases x <;> simp [ofSignal]

theorem mapM_ok_iff {f : α → Except ε β} {xs : List α} {ys : List β} :
    xs.mapM f = .ok ys ↔ List.Forall₂ (fun x y => f x = .ok y) xs ys := by
  induction xs generalizing ys with
  | nil => cases ys <;> simp
  | cons x xs ih =>
    rw [List.mapM_cons]
    constructor
    · intro h
      simp only [andThen_ok_iff, pure_ok_iff] at h
      obtain ⟨y, hy, rest, hrest, rfl⟩ := h
      exact .cons hy (ih.1 hrest)
    · intro h
      cases h with
      | cons hy hrest =>
        simp only [andThen_ok_iff, pure_ok_iff]
        exact ⟨_, hy, _, ih.2 hrest, rfl⟩

theorem mapM_congr {f g : α → Except ε β} {xs : List α} (h : ∀ x ∈ xs, f x = g x) :
    xs.mapM f = xs.mapM g := by
  induction xs with
  | nil => rfl
  | cons x xs ih =>
    rw [List.mapM_cons, List.mapM_cons, h x List.mem_cons_self,
      ih fun y hy => h y (List.mem_cons_of_mem x hy)]

theorem mem_of_mapM {f : α → Except ε β} {xs : List α} {ys : List β} (h : xs.mapM f = .ok ys) {y : β} :
    y ∈ ys ↔ ∃ x ∈ xs, f x = .ok y := by
  have hall := mapM_ok_iff.1 h
  clear h
  induction hall with
  | nil => simp
  | @cons x z xs ys hxz _ ih =>
    simp only [List.mem_cons, exists_eq_or_imp, hxz, ih, Except.ok.injEq]
    rw [@eq_comm _ y z]

theorem exists_of_mapM {f : α → Except ε β} {xs : List α} {ys : List β} (h : xs.mapM f = .ok ys) {x : α}
    (hx : x ∈ xs) : ∃ y, f x = .ok y := by
  have hall := mapM_ok_iff.1 h
  clear h
  induction hall with
  | nil => simp at hx
  | cons hxy _ ih =>
    rcases List.mem_cons.1 hx with rfl | hx
    · exact ⟨_, hxy⟩
    · exact ih hx

/-- What holds of each element's result holds along the list of results. -/
theorem forall₂_of_mapM {f : α → Except ε β} {R : α → β → Prop} {xs : List α} {ys : List β}
    (h : xs.mapM f = .ok ys) (hstep : ∀ x ∈ xs, ∀ y, f x = .ok y → R x y) : List.Forall₂ R xs ys := by
  have hall := mapM_ok_iff.1 h
  clear h
  induction hall with
  | nil => exact .nil
  | @cons x y xs ys hxy _ ih =>
    exact .cons (hstep x (by simp) y hxy) (ih fun z hz => hstep z (by simp [hz]))

/-- Two walks over related elements have related results. -/
theorem forall₂_of_mapM₂ {γ : Type} {f : α → Except ε β} {g : γ → Except ε σ} {Q : α → γ → Prop}
    {R : β → σ → Prop} {xs : List α} {xs' : List γ} {ys : List β} {zs : List σ} (h : List.Forall₂ Q xs xs')
    (hf : xs.mapM f = .ok ys) (hg : xs'.mapM g = .ok zs)
    (hstep : ∀ x x' y z, Q x x' → f x = .ok y → g x' = .ok z → R y z) : List.Forall₂ R ys zs := by
  induction h generalizing ys zs with
  | nil =>
    obtain rfl := pure_ok_iff.1 hf
    obtain rfl := pure_ok_iff.1 hg
    exact .nil
  | cons hx _ ih =>
    cases mapM_ok_iff.1 hf with
    | cons hy hys =>
      cases mapM_ok_iff.1 hg with
      | cons hz hzs => exact .cons (hstep _ _ _ _ hx hy hz) (ih (mapM_ok_iff.2 hys) (mapM_ok_iff.2 hzs))

/-- Two walks over one list have related results where the results of each element are related. -/
theorem forall₂_of_mapM_mapM {f : α → Except ε β} {g : α → Except ε σ} {R : β → σ → Prop} {xs : List α}
    {ys : List β} {zs : List σ} (hf : xs.mapM f = .ok ys) (hg : xs.mapM g = .ok zs)
    (hstep : ∀ x ∈ xs, ∀ y z, f x = .ok y → g x = .ok z → R y z) : List.Forall₂ R ys zs := by
  have hself : List.Forall₂ (fun x x' => x' = x ∧ x ∈ xs) xs xs := List.forall₂_same.2 fun x hx => ⟨rfl, hx⟩
  refine forall₂_of_mapM₂ hself hf hg fun x x' y z hx hy hz => ?_
  obtain ⟨rfl, hmem⟩ := hx
  exact hstep _ hmem y z hy hz

theorem mapM_filter {f : α → Except ε β} {p : α → Bool} {q : β → Bool} {xs : List α} {ys : List β}
    (h : xs.mapM f = .ok ys) (hchosen : ∀ x y, f x = .ok y → q y = p x) :
    (xs.filter p).mapM f = .ok (ys.filter q) := by
  have hall := mapM_ok_iff.1 h
  clear h
  induction hall with
  | nil => rfl
  | @cons x y xs ys hxy _ ih =>
    rw [List.filter_cons, List.filter_cons, hchosen x y hxy]
    cases p x with
    | false => exact ih
    | true => exact mapM_ok_iff.2 (.cons hxy (mapM_ok_iff.1 ih))

theorem filterMap_of_mapM {f : α → Except ε β} {xs : List α} {ys : List β} (h : xs.mapM f = .ok ys) :
    xs.filterMap (fun x => (f x).toOption) = ys := by
  have hall := mapM_ok_iff.1 h
  clear h
  induction hall with
  | nil => rfl
  | cons hxy _ ih => rw [List.filterMap_cons, hxy, Except.toOption, ih]

theorem perm_of_mapM {f : α → Except ε β} {xs xs' : List α} {ys ys' : List β} (hperm : xs'.Perm xs)
    (h : xs.mapM f = .ok ys) (h' : xs'.mapM f = .ok ys') : ys'.Perm ys := by
  rw [← filterMap_of_mapM h, ← filterMap_of_mapM h']
  exact hperm.filterMap _

/-- What a walk keeps has the names of the elements that it came from, in their order. -/
theorem names_sublist_of_mapM {γ : Type} {f : α → Except ε (Option β)} {name : α → γ} {name' : β → γ}
    {xs : List α} {ys : List (Option β)} (h : xs.mapM f = .ok ys)
    (hname : ∀ x ∈ xs, ∀ y, f x = .ok (some y) → name' y = name x) :
    ((ys.filterMap id).map name').Sublist (xs.map name) := by
  have hall := forall₂_of_mapM (R := fun x y => ∀ z, y = some z → name' z = name x) h
    fun x hx y hy z hz => hname x hx z (hz ▸ hy)
  clear h
  induction hall with
  | nil => exact List.Sublist.slnil
  | @cons x y _ _ hxy _ ih =>
    have hrest := ih fun z hz => hname z (List.mem_cons_of_mem x hz)
    cases y with
    | none => exact hrest.cons _
    | some z =>
      simp only [List.filterMap_cons, id_eq, List.map_cons, hxy z rfl]
      exact hrest.cons_cons _

/-- After the elements have been taken through an operation, the next one goes on from the results. -/
theorem mapM_of_mapM_andThen {f : α → Except ε β} {g : β → Except ε σ} {xs : List α} {ys : List β}
    {zs : List σ} (hf : xs.mapM f = .ok ys) (h : (xs.mapM fun x => f x >>= g) = .ok zs) :
    ys.mapM g = .ok zs := by
  rw [mapM_ok_iff]
  refine forall₂_of_mapM_mapM hf h fun x _ y z hy hz => ?_
  obtain ⟨y', hy', hz⟩ := andThen_ok_iff.1 hz
  obtain rfl := Except.ok.inj (hy.symm.trans hy')
  exact hz

theorem foldlM_cons_ok_iff {f : σ → α → Except ε σ} {s s' : σ} {x : α} {xs : List α} :
    (x :: xs).foldlM f s = .ok s' ↔ ∃ t, f s x = .ok t ∧ xs.foldlM f t = .ok s' := by
  rw [List.foldlM_cons, andThen_ok_iff]

@[simp] theorem foldlM_nil_ok_iff {f : σ → α → Except ε σ} {s s' : σ} :
    ([] : List α).foldlM f s = .ok s' ↔ s = s' := pure_ok_iff

theorem foldlM_mapM {g : α → Except ε β} {f : σ → β → Except ε σ} {step : σ → α → Except ε σ}
    (hstep : ∀ s x s', step s x = .ok s' ↔ ∃ y, g x = .ok y ∧ f s y = .ok s') {xs : List α} {s s' : σ} :
    xs.foldlM step s = .ok s' ↔ ∃ ys, xs.mapM g = .ok ys ∧ ys.foldlM f s = .ok s' := by
  induction xs generalizing s with
  | nil => simp
  | cons x xs ih =>
    simp only [foldlM_cons_ok_iff, hstep, ih, List.mapM_cons, andThen_ok_iff, pure_ok_iff]
    constructor
    · rintro ⟨t, ⟨y, hy, ht⟩, ys, hys, hs⟩
      exact ⟨y :: ys, ⟨y, hy, ys, hys, rfl⟩, foldlM_cons_ok_iff.2 ⟨t, ht, hs⟩⟩
    · rintro ⟨-, ⟨y, hy, ys, hys, rfl⟩, hs⟩
      obtain ⟨t, ht, hs⟩ := foldlM_cons_ok_iff.1 hs
      exact ⟨t, ⟨y, hy, ht⟩, ys, hys, hs⟩

/-- Elements that are each taken apart into parts are folded by folding all parts. -/
theorem foldlM_flatMap_ok_iff {P : α → Prop} {g : α → List β} {f : σ → β → Except ε σ}
    {step : σ → α → Except ε σ} {xs : List α}
    (hstep : ∀ x ∈ xs, ∀ s s', step s x = .ok s' ↔ P x ∧ (g x).foldlM f s = .ok s') {s s' : σ} :
    xs.foldlM step s = .ok s' ↔ (∀ x ∈ xs, P x) ∧ (xs.flatMap g).foldlM f s = .ok s' := by
  induction xs generalizing s with
  | nil => simp
  | cons x xs ih =>
    have hrest := @ih fun y hy => hstep y (List.mem_cons_of_mem x hy)
    simp only [foldlM_cons_ok_iff, hstep x List.mem_cons_self, hrest, List.mem_cons,
      forall_eq_or_imp, List.flatMap_cons, List.foldlM_append, andThen_ok_iff]
    constructor
    · rintro ⟨t, ⟨hx, ht⟩, hxs, hs⟩
      exact ⟨⟨hx, hxs⟩, t, ht, hs⟩
    · rintro ⟨⟨hx, hxs⟩, t, ht, hs⟩
      exact ⟨t, ⟨hx, ht⟩, hxs, hs⟩

theorem foldlM_eq_foldl {f : σ → α → Except ε σ} {g : σ → α → σ} {xs : List α}
    (h : ∀ s, ∀ x ∈ xs, f s x = .ok (g s x)) (s : σ) : xs.foldlM f s = .ok (xs.foldl g s) := by
  induction xs generalizing s with
  | nil => rfl
  | cons x xs ih =>
    rw [foldlM_cons_ok_iff]
    exact ⟨g s x, h s x List.mem_cons_self, ih (fun s y hy => h s y (List.mem_cons_of_mem x hy)) _⟩

theorem exists_of_foldlM {f : σ → α → Except ε σ} {xs : List α} {s s' : σ} (h : xs.foldlM f s = .ok s')
    {x : α} (hx : x ∈ xs) : ∃ t t', f t x = .ok t' := by
  induction xs generalizing s with
  | nil => simp at hx
  | cons y xs ih =>
    obtain ⟨t, ht, hrest⟩ := foldlM_cons_ok_iff.1 h
    rcases List.mem_cons.1 hx with rfl | hx
    · exact ⟨s, t, ht⟩
    · exact ih hrest hx

/-- A walk whose steps fail for their elements alone, whatever came before, fails as the elements do. -/
theorem foldlM_error_iff {f : σ → α → Except ε σ} {g : α → Except ε β}
    (h : ∀ s x e, f s x = .error e ↔ g x = .error e) {xs : List α} {s : σ} {e : ε} :
    xs.foldlM f s = .error e ↔ xs.mapM g = .error e := by
  induction xs generalizing s with
  | nil => exact ⟨nofun, nofun⟩
  | cons x xs ih =>
    rw [List.foldlM_cons, List.mapM_cons]
    cases hf : f s x with
    | error first =>
      rw [(h s x first).1 hf]
      simp only [bind, Except.bind, Except.error.injEq]
    | ok t =>
      cases hg : g x with
      | error first => exact absurd ((h s x first).2 hg) (by simp [hf])
      | ok y =>
        refine Iff.trans (ih (s := t)) ?_
        cases xs.mapM g with
        | error rest => simp only [bind, Except.bind, Except.error.injEq]
        | ok ys => exact ⟨nofun, nofun⟩

/-- What holds at the start of a walk and is kept by each of its steps holds at its end. -/
theorem foldlM_keeps {P : σ → Prop} {f : σ → α → Except ε σ} {xs : List α} {s s' : σ}
    (h : xs.foldlM f s = .ok s') (hstart : P s)
    (hstep : ∀ s, ∀ x ∈ xs, ∀ t, P s → f s x = .ok t → P t) : P s' := by
  induction xs generalizing s with
  | nil => exact foldlM_nil_ok_iff.1 h ▸ hstart
  | cons x xs ih =>
    obtain ⟨t, ht, hrest⟩ := foldlM_cons_ok_iff.1 h
    exact ih hrest (hstep s x List.mem_cons_self t hstart ht)
      fun s y hy => hstep s y (List.mem_cons_of_mem x hy)

/-- What a test that may fail leaves over are the elements that pass it, in their order. -/
theorem eq_filter_of_filterM {p : α → Except ε Bool} {xs ys : List α} (h : xs.filterM p = .ok ys) :
    ys = xs.filter fun x => (p x).toOption.getD false := by
  have haux : ∀ (xs acc out : List α), xs.filterAuxM p acc = .ok out →
      out = (xs.filter fun x => (p x).toOption.getD false).reverse ++ acc := by
    intro xs
    induction xs with
    | nil =>
      intro acc out hout
      exact (pure_ok_iff.1 hout).symm
    | cons x xs ih =>
      intro acc out hout
      obtain ⟨keep, hkeep, hrest⟩ := andThen_ok_iff.1 hout
      rw [ih _ _ hrest, List.filter_cons, hkeep]
      cases keep <;> simp [Except.toOption]
  obtain ⟨out, hout, hys⟩ := andThen_ok_iff.1 h
  obtain rfl := haux xs [] out hout
  obtain rfl := pure_ok_iff.1 hys
  simp

theorem exists_filterM {p : α → Except ε Bool} {xs : List α} (h : ∀ x ∈ xs, ∃ b, p x = .ok b) :
    ∃ ys, xs.filterM p = .ok ys := by
  have haux : ∀ (xs acc : List α), (∀ x ∈ xs, ∃ b, p x = .ok b) → ∃ out, xs.filterAuxM p acc = .ok out := by
    intro xs
    induction xs with
    | nil => exact fun acc _ => ⟨acc, rfl⟩
    | cons x xs ih =>
      intro acc hall
      obtain ⟨keep, hkeep⟩ := hall x List.mem_cons_self
      obtain ⟨out, hout⟩ := ih (cond keep (x :: acc) acc) fun y hy => hall y (List.mem_cons_of_mem x hy)
      exact ⟨out, andThen_ok_iff.2 ⟨keep, hkeep, hout⟩⟩
  obtain ⟨out, hout⟩ := haux xs [] h
  exact ⟨out.reverse, andThen_ok_iff.2 ⟨out, hout, rfl⟩⟩

theorem sublist_of_filterM {p : α → Except ε Bool} {xs ys : List α} (h : xs.filterM p = .ok ys) :
    ys.Sublist xs := by
  rw [eq_filter_of_filterM h]
  exact List.filter_sublist

/-- Whatever failure an operation ends in has the property. -/
def FailsOnly (P : ε → Prop) (x : Except ε α) : Prop := ∀ e, x = .error e → P e

namespace FailsOnly

variable {P : ε → Prop}

theorem ok (a : α) : FailsOnly P (.ok a) := nofun

theorem of_exists {x : Except ε α} (h : ∃ a, x = .ok a) : FailsOnly P x := by
  obtain ⟨a, rfl⟩ := h
  exact ok a

theorem error {e : ε} (h : P e) : FailsOnly P (.error e : Except ε α) := fun _ heq => Except.error.inj heq ▸ h

theorem mono {Q : ε → Prop} {x : Except ε α} (hx : FailsOnly P x) (h : ∀ e, P e → Q e) : FailsOnly Q x :=
  fun e he => h e (hx e he)

theorem bind {x : Except ε α} {f : α → Except ε β} (hx : FailsOnly P x)
    (hf : ∀ a, x = .ok a → FailsOnly P (f a)) : FailsOnly P (x.bind f) := by
  cases x with
  | error e =>
    intro failure h
    obtain rfl := Except.error.inj h
    exact hx e rfl
  | ok a => exact hf a rfl

theorem map {x : Except ε α} (hx : FailsOnly P x) (f : α → β) : FailsOnly P (x.map f) := by
  cases x with
  | error e =>
    intro failure h
    obtain rfl := Except.error.inj h
    exact hx e rfl
  | ok a => exact ok (f a)

theorem mapM {f : α → Except ε β} {xs : List α} (h : ∀ x ∈ xs, FailsOnly P (f x)) :
    FailsOnly P (xs.mapM f) := by
  induction xs with
  | nil => exact ok []
  | cons x xs ih =>
    rw [List.mapM_cons]
    refine (h x List.mem_cons_self).bind fun y _ => ?_
    exact (ih fun z hz => h z (List.mem_cons_of_mem x hz)).bind fun ys _ => ok (y :: ys)

theorem foldlM {f : σ → α → Except ε σ} {xs : List α} (h : ∀ s, ∀ x ∈ xs, FailsOnly P (f s x)) (s : σ) :
    FailsOnly P (xs.foldlM f s) := by
  induction xs generalizing s with
  | nil => exact ok s
  | cons x xs ih =>
    rw [List.foldlM_cons]
    exact (h s x List.mem_cons_self).bind fun t _ => ih (fun s z hz => h s z (List.mem_cons_of_mem x hz)) t

theorem filterM {p : α → Except ε Bool} {xs : List α} (h : ∀ x ∈ xs, FailsOnly P (p x)) :
    FailsOnly P (xs.filterM p) := by
  have haux : ∀ acc : List α, FailsOnly P (xs.filterAuxM p acc) := by
    induction xs with
    | nil => exact ok
    | cons x xs ih =>
      intro acc
      refine (h x List.mem_cons_self).bind fun keep _ => ?_
      exact ih (fun y hy => h y (List.mem_cons_of_mem x hy)) (cond keep (x :: acc) acc)
  exact (haux []).bind fun out _ => ok out.reverse

end FailsOnly

/-- A failure is due to the first complaint that applies at all. -/
def FirstOf : List (ε → Prop) → ε → Prop
  | [], _ => False
  | complaint :: rest, e => complaint e ∨ (∀ e', ¬ complaint e') ∧ FirstOf rest e

theorem firstOf_append {complaints others : List (ε → Prop)} {e : ε} : FirstOf (complaints ++ others) e ↔
    FirstOf complaints e ∨ (∀ e', ¬ FirstOf complaints e') ∧ FirstOf others e := by
  induction complaints with
  | nil => simp [FirstOf]
  | cons complaint rest ih =>
    simp only [List.cons_append, FirstOf, ih]
    by_cases happlies : ∃ e', complaint e'
    · obtain ⟨e', he'⟩ := happlies
      have hsome : ¬ ∀ e', ¬ complaint e' := fun hnone => hnone e' he'
      simp only [hsome, false_and, or_false]
    · have hnone : ∀ e', ¬ complaint e' := fun e' he' => happlies ⟨e', he'⟩
      simp only [hnone, not_false_eq_true, implies_true, true_and, false_or]

/-- An operation fails exactly if one of the complaints applies, and then with the first one. -/
def FailsFirst (complaints : List (ε → Prop)) (x : Except ε α) : Prop := ∀ e, x = .error e ↔ FirstOf complaints e

namespace FailsFirst

variable {complaints others : List (ε → Prop)} {x : Except ε α}

theorem ok (a : α) : FailsFirst (ε := ε) [] (.ok a) := fun e => by simp [FirstOf]

theorem single {complaint : ε → Prop} (h : ∀ e, x = .error e ↔ complaint e) : FailsFirst [complaint] x :=
  fun e => by simp [FirstOf, h e]

theorem guard {p : Prop} [Decidable p] {failure : ε} (h : ¬ p → FailsFirst complaints x) :
    FailsFirst ((fun e => p ∧ e = failure) :: complaints) (if p then .error failure else x) := by
  intro e
  by_cases hp : p
  · simp [FirstOf, hp, eq_comm]
  · simp [FirstOf, hp, h hp e]

theorem bind {f : α → Except ε β} (hx : FailsFirst complaints x)
    (hf : ∀ a, x = .ok a → FailsFirst others (f a)) : FailsFirst (complaints ++ others) (x.bind f) := by
  intro e
  rw [firstOf_append]
  cases x with
  | error first =>
    have hfirst : FirstOf complaints first := (hx first).1 rfl
    refine ⟨fun h => .inl (Except.error.inj h ▸ hfirst), fun h => ?_⟩
    rcases h with happlies | ⟨hnone, -⟩
    · exact congrArg Except.error (Except.error.inj ((hx e).2 happlies))
    · exact absurd hfirst (hnone first)
  | ok a =>
    have hnone : ∀ e', ¬ FirstOf complaints e' := fun e' h => nomatch (hx e').2 h
    simp only [Except.bind, hf a rfl e, hnone, not_false_eq_true, implies_true, true_and, false_or]

theorem exists_ok (hx : FailsFirst complaints x) (h : ∀ e, ¬ FirstOf complaints e) : ∃ a, x = .ok a := by
  cases x with
  | error e => exact absurd ((hx e).1 rfl) (h e)
  | ok a => exact ⟨a, rfl⟩

end FailsFirst

/-- Two operations end in one failure, or well with related results. -/
inductive Alike (R : α → β → Prop) : Except ε α → Except ε β → Prop
  | ok {a : α} {b : β} (h : R a b) : Alike R (.ok a) (.ok b)
  | error (e : ε) : Alike R (.error e) (.error e)

variable {γ δ : Type} {R : α → β → Prop} {S : γ → δ → Prop}

theorem Alike.bind {x : Except ε α} {y : Except ε β} {f : α → Except ε γ} {g : β → Except ε δ}
    (h : Alike R x y) (hstep : ∀ a b, R a b → Alike S (f a) (g b)) : Alike S (x.bind f) (y.bind g) := by
  cases h with
  | ok hab => exact hstep _ _ hab
  | error e => exact .error e

theorem Alike.bind_congr {x : Except ε α} {y : Except ε β} {f : α → Except ε γ} {g : β → Except ε γ}
    (h : Alike R x y) (hstep : ∀ a b, R a b → f a = g b) : x.bind f = y.bind g := by
  cases h with
  | ok hab => exact hstep _ _ hab
  | error e => rfl

theorem alike_of_eq {x : Except ε α} {y : Except ε α} (h : x = y) : Alike Eq x y := by
  subst h
  cases x with
  | ok a => exact .ok rfl
  | error e => exact .error e

/-- Results that are related to what a function makes of the others are what it makes of them. -/
theorem Alike.eq_map {x : Except ε α} {y : Except ε β} {f : α → β} (h : Alike (fun a b => b = f a) x y) :
    y = x.map f := by
  cases h with
  | ok hab => exact congrArg Except.ok hab
  | error e => rfl

/-- Related elements are taken to related results. -/
theorem Alike.mapM {f : α → Except ε γ} {g : β → Except ε δ} {xs : List α} {ys : List β}
    (h : List.Forall₂ R xs ys) (hstep : ∀ x y, R x y → Alike S (f x) (g y)) :
    Alike (List.Forall₂ S) (xs.mapM f) (ys.mapM g) := by
  induction h with
  | nil => exact .ok .nil
  | cons hxy _ ih =>
    rw [List.mapM_cons, List.mapM_cons]
    exact (hstep _ _ hxy).bind fun _ _ hz => ih.bind fun _ _ hzs => .ok (.cons hz hzs)

/-- Walks over related elements agree where they agree on each of them. -/
theorem mapM_congr₂ {f : α → Except ε γ} {g : β → Except ε γ} {xs : List α} {ys : List β}
    (h : List.Forall₂ R xs ys) (hstep : ∀ x y, R x y → f x = g y) : xs.mapM f = ys.mapM g := by
  induction h with
  | nil => rfl
  | cons hxy _ ih => rw [List.mapM_cons, List.mapM_cons, hstep _ _ hxy, ih]

theorem foldlM_congr₂ {f : σ → α → Except ε σ} {g : σ → β → Except ε σ} {xs : List α} {ys : List β}
    (h : List.Forall₂ R xs ys) (hstep : ∀ s x y, R x y → f s x = g s y) (s : σ) :
    xs.foldlM f s = ys.foldlM g s := by
  induction h generalizing s with
  | nil => rfl
  | cons hxy _ ih =>
    rw [List.foldlM_cons, List.foldlM_cons, hstep s _ _ hxy]
    exact bind_congr rfl fun t _ => ih t

end Outcome

namespace Journaled

variable {α β : Type}

@[simp] theorem outcome_map (f : α → β) (x : Journaled α) : (f <$> x).outcome = x.outcome.map f := by
  rw [map_eq_pure_bind, outcome_bind]
  cases x.outcome <;> rfl

/-- The outcome of a journaled walk over a list is the walk over the outcomes. -/
theorem outcome_mapM (f : α → Journaled β) (xs : List α) :
    (xs.mapM f).outcome = xs.mapM fun x => (f x).outcome := by
  induction xs with
  | nil => rfl
  | cons x xs ih =>
    simp only [List.mapM_cons, outcome_bind, ih]
    rfl

end Journaled

end NetWorth
