import NetWorth.Proofs.Decimal.CanonicalText
import NetWorth.Proofs.Decimal.Exact
import NetWorth.Proofs.Market.Resolution
import NetWorth.Valuation

/-! # Sums of values that lose nothing

What a value counts towards a sum is its rational number, or nothing if it is not known. Where the
decimals lose nothing, sums of values are sums of rational numbers, and so are sums of their texts. -/
namespace NetWorth

namespace Number

def finite? : Number → Option Decimal
  | .finite d => some d
  | _ => none

/-- A number of the context with the given value. -/
def Holds (n : Number) (x : ℚ) : Prop := ∃ d, n = .finite d ∧ d.InContext ∧ d.toRat = x

theorem holds_zero : (Number.finite .zero).Holds 0 :=
  ⟨.zero, rfl, Decimal.zero_inContext, Decimal.toRat_zero⟩

theorem Holds.valueOf? {n : Number} {x : ℚ} (h : n.Holds x) :
    Decimal.valueOf? n.canonical = some x := by
  obtain ⟨d, rfl, hd, rfl⟩ := h
  exact Decimal.valueOf?_canonical hd

end Number

namespace Valuation

open Decimal (HasPlaces precision)

theorem sum_abs_nonneg {α : Type} (f : α → ℚ) (xs : List α) : 0 ≤ (xs.map fun x => |f x|).sum := by
  refine List.sum_nonneg fun y hy => ?_
  obtain ⟨x, -, rfl⟩ := List.mem_map.1 hy
  exact abs_nonneg _

theorem abs_sum_le {α : Type} (f : α → ℚ) (xs : List α) :
    |(xs.map f).sum| ≤ (xs.map fun x => |f x|).sum := by
  induction xs with
  | nil => simp
  | cons x xs ih =>
    simp only [List.map_cons, List.sum_cons]
    exact (abs_add_le _ _).trans (by linarith)

theorem sum_filter_le {α : Type} (f : α → ℚ) (p : α → Bool) (xs : List α) :
    ((xs.filter p).map fun x => |f x|).sum ≤ (xs.map fun x => |f x|).sum := by
  induction xs with
  | nil => simp
  | cons x xs ih =>
    have hx := abs_nonneg (f x)
    rw [List.filter_cons]
    split
    · simpa using ih
    · simp only [List.map_cons, List.sum_cons]
      linarith

/-- What a value that may not be known counts towards a sum. -/
def Counts (value : Option Number) (x : ℚ) : Prop :=
  match value with
  | none => x = 0
  | some n => n.Holds x

/-- The sum of the numbers that texts write. -/
def sumOf? : List String → Option ℚ
  | [] => some 0
  | text :: texts => do return (← Decimal.valueOf? text) + (← sumOf? texts)

theorem sumOf?_perm {texts others : List String} (h : texts.Perm others) :
    sumOf? texts = sumOf? others := by
  induction h with
  | nil => rfl
  | cons text _ ih => simp only [sumOf?, ih]
  | swap text other texts =>
    simp only [sumOf?]
    cases Decimal.valueOf? text <;> cases Decimal.valueOf? other <;> cases sumOf? texts <;>
      simp [add_left_comm]
  | trans _ _ ih ih' => exact ih.trans ih'

/-- The texts of known values add up to what the values count. -/
theorem sumOf?_of_counts {values : List (Option Number)} {xs : List ℚ}
    (h : List.Forall₂ Counts values xs) :
    sumOf? (values.filterMap fun v => v.map Number.canonical) = some xs.sum := by
  induction h with
  | nil => rfl
  | @cons value x values xs hvalue _ ih =>
    cases value with
    | none =>
      obtain rfl : x = 0 := hvalue
      simpa using ih
    | some n =>
      have hn : n.Holds x := hvalue
      simp [sumOf?, hn.valueOf?, ih]

variable {k : Nat}

theorem addValue_exact (hk : k ≤ precision) {total next : Number} {value : Option Number} {s x : ℚ}
    (htotal : total.Holds s) (hvalue : Counts value x) (hs : HasPlaces k s) (hx : HasPlaces k x)
    (hsize : |s| + |x| < 10 ^ (precision - k)) (h : AssetRow.addValue total value = .ok next) :
    next.Holds (s + x) := by
  cases value with
  | none =>
    obtain rfl : x = 0 := hvalue
    obtain rfl := Except.ok.inj h
    simpa using htotal
  | some n =>
    obtain ⟨d, rfl, hd, rfl⟩ := htotal
    obtain ⟨e, rfl, he, rfl⟩ := hvalue
    have htriangle := abs_add_le d.toRat e.toRat
    obtain ⟨r, hr, hcontext, hvalue⟩ := Decimal.add_exact hk hs hx (by linarith)
    simp only [AssetRow.addValue, Amount.add, Number.add_finite, hr] at h
    obtain rfl := Except.ok.inj h
    exact ⟨r, rfl, hcontext, hvalue⟩

theorem addValues_exact (hk : k ≤ precision) {values : List (Option Number)} {xs : List ℚ}
    (hvalues : List.Forall₂ Counts values xs) (hxs : ∀ x ∈ xs, HasPlaces k x) {start total : Number}
    {s : ℚ} (hstart : start.Holds s) (hs : HasPlaces k s)
    (hsize : |s| + (xs.map abs).sum < 10 ^ (precision - k))
    (h : values.foldlM AssetRow.addValue start = .ok total) : total.Holds (s + xs.sum) := by
  induction hvalues generalizing start s with
  | nil =>
    obtain rfl := Outcome.foldlM_nil_ok_iff.1 h
    simpa using hstart
  | @cons value x values xs hvalue _ ih =>
    obtain ⟨next, hnext, hrest⟩ := Outcome.foldlM_cons_ok_iff.1 h
    simp only [List.map_cons, List.sum_cons] at hsize
    have hsum : 0 ≤ (xs.map abs).sum := by
      refine List.sum_nonneg fun y hy => ?_
      obtain ⟨z, -, rfl⟩ := List.mem_map.1 hy
      exact abs_nonneg z
    have htriangle := abs_add_le s x
    have hx := hxs x (by simp)
    have hnext := addValue_exact hk hstart hvalue hs hx (by linarith) hnext
    have htotal := ih (fun y hy => hxs y (by simp [hy])) hnext (hs.add hx) (by linarith) hrest
    rwa [List.sum_cons, ← add_assoc]

/-- A value is exact where the product of amount and unit value is. -/
theorem valueOf_exact (hk : k ≤ precision) {resolution : Resolution} {amount : Decimal}
    {value : Option Number} (hfinite : ∀ u, resolution.unitValue = some u → ∃ d, u = .finite d)
    (hproduct : ∀ u, resolution.unitValue = some (.finite u) → HasPlaces k (amount.toRat * u.toRat) ∧
      |amount.toRat * u.toRat| < 10 ^ (precision - k))
    (h : resolution.valueOf amount = .ok value) :
    Counts value (((resolution.unitValue.bind Number.finite?).map
      fun u => amount.toRat * u.toRat).getD 0) ∧
    value.isSome = (resolution.unitValue.bind Number.finite?).isSome := by
  unfold Resolution.valueOf at h
  cases hunit : resolution.unitValue with
  | none =>
    rw [hunit] at h
    obtain rfl := Except.ok.inj h
    exact ⟨rfl, rfl⟩
  | some u =>
    obtain ⟨d, rfl⟩ := hfinite u hunit
    obtain ⟨hplaces, hsize⟩ := hproduct d hunit
    obtain ⟨r, hr, hcontext, hvalue⟩ := Decimal.mul_exact hk hplaces hsize
    simp only [hunit, Amount.mul, Number.mul_finite, hr] at h
    obtain rfl := Except.ok.inj h
    exact ⟨⟨r, rfl, hcontext, hvalue⟩, rfl⟩

end Valuation

end NetWorth
