import NetWorth.Proofs.Decimal.RoundedArithmetic
import NetWorth.Proofs.Outcome

/-! # Equal numbers have equal sums

Sums and products are the exact ones, rounded, so they depend on the numbers only, not on the zeros that
their forms end in. So a zero may stand anywhere in a sum, and whatever its exponent is, nothing is rounded
anew. -/
namespace NetWorth

namespace Decimal

variable {a a' b b' r s : Decimal}

theorem add_congr (haa : a.toRat = a'.toRat) (hbb : b.toRat = b'.toRat) (h : a.add b = .ok r)
    (h' : a'.add b' = .ok s) : r.toRat = s.toRat := by
  have hrounds := rounds_of_add h
  rw [haa, hbb] at hrounds
  exact hrounds.unique (rounds_of_add h')

/-- Adding zero changes nothing, in whatever form it is written. -/
theorem add_zero_toRat (ha : a.Held) (hzero : b.toRat = 0) (h : a.add b = .ok r) : r.toRat = a.toRat := by
  have hrounds := rounds_of_add h
  rw [hzero, add_zero] at hrounds
  exact hrounds.eq_of_held ha.digits ha.least

theorem zero_add_toRat (hb : b.Held) (hzero : a.toRat = 0) (h : a.add b = .ok r) : r.toRat = b.toRat := by
  have hrounds := rounds_of_add h
  rw [hzero, zero_add] at hrounds
  exact hrounds.eq_of_held hb.digits hb.least

theorem mul_congr (haa : a.toRat = a'.toRat) (hbb : b.toRat = b'.toRat) (h : a.mul b = .ok r)
    (h' : a'.mul b' = .ok s) : r.toRat = s.toRat := by
  have hrounds := rounds_of_mul h
  rw [haa, hbb] at hrounds
  exact hrounds.unique (rounds_of_mul h')

theorem mul_zero_toRat (ha : a.toRat = 0) (h : a.mul b = .ok r) : r.toRat = 0 := by
  have hrounds := rounds_of_mul h
  rw [ha, zero_mul, ← toRat_zero] at hrounds
  rw [hrounds.eq_of_held zero_held.digits zero_held.least, toRat_zero]

/-- The same numbers one by one, with zeros put in between. -/
inductive Padded : List Decimal → List Decimal → Prop
  | nil : Padded [] []
  | cons {x y : Decimal} {xs ys : List Decimal} (hx : x.Held) (hy : y.Held) (h : x.toRat = y.toRat)
    (hrest : Padded xs ys) : Padded (x :: xs) (y :: ys)
  | zero {y : Decimal} {xs ys : List Decimal} (hy : y.Held) (h : y.toRat = 0) (hrest : Padded xs ys) :
    Padded xs (y :: ys)

theorem Padded.refl {ds : List Decimal} (h : ∀ d ∈ ds, d.Held) : Padded ds ds := by
  induction ds with
  | nil => exact .nil
  | cons d ds ih =>
    have hd := h d List.mem_cons_self
    exact .cons hd hd rfl (ih fun e he => h e (List.mem_cons_of_mem d he))

theorem Padded.append {ds es ds' es' : List Decimal} (h : Padded ds es) (h' : Padded ds' es') :
    Padded (ds ++ ds') (es ++ es') := by
  induction h with
  | nil => exact h'
  | cons hd he hde _ ih => exact .cons hd he hde ih
  | zero he hzero _ ih => exact .zero he hzero ih

/-- Zeros put into a sum do not change it, and equal numbers stand for each other. -/
theorem Padded.sum_eq {ds es : List Decimal} (h : Padded ds es) {start start' total total' : Decimal}
    (hstart : start.Held) (hstart' : start'.Held) (hsame : start.toRat = start'.toRat)
    (htotal : ds.foldlM add start = .ok total) (htotal' : es.foldlM add start' = .ok total') :
    total.toRat = total'.toRat := by
  induction h generalizing start start' with
  | nil =>
    obtain rfl := Outcome.foldlM_nil_ok_iff.1 htotal
    obtain rfl := Outcome.foldlM_nil_ok_iff.1 htotal'
    exact hsame
  | cons hd he hde _ ih =>
    obtain ⟨next, hnext, hrest⟩ := Outcome.foldlM_cons_ok_iff.1 htotal
    obtain ⟨next', hnext', hrest'⟩ := Outcome.foldlM_cons_ok_iff.1 htotal'
    have hsum := add_congr hsame hde hnext hnext'
    exact ih (finish_held hnext) (finish_held hnext') hsum hrest hrest'
  | zero he hzero _ ih =>
    obtain ⟨next', hnext', hrest'⟩ := Outcome.foldlM_cons_ok_iff.1 htotal'
    have hsum := add_zero_toRat hstart' hzero hnext'
    exact ih hstart (finish_held hnext') (hsame.trans hsum.symm) htotal hrest'

end Decimal

end NetWorth
