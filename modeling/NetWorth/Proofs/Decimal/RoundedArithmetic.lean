import Mathlib.Data.Nat.Cast.Field
import Mathlib.Tactic.LinearCombination
import NetWorth.Proofs.Decimal.NearestEven

/-! # Sums, products and quotients are rounded once

Every operation gives the exact result, rounded to 28 digits, unless that is too large. Where a sum leaves out
digits of the smaller number, or a quotient stops with a remainder left, what it keeps is rounded like the
exact result. -/
namespace NetWorth

namespace Decimal

variable {a b : Decimal} {x : ℚ}

theorem finish_of_like {d : Decimal} (hlike : RoundsLike d.toRat x) (hsize : |x| < 10 ^ greatestExponent) :
    ∃ r, d.finish = .ok r ∧ Rounds x r := by
  obtain ⟨r, hr⟩ := finish_isOk (hlike.abs_lt hsize)
  exact ⟨r, hr, (finish_rounds hr).of_like hlike⟩

theorem neg_toRat (d : Decimal) : d.neg.toRat = -d.toRat := by
  rw [toRat, toRat, signed, signed, neg]
  cases d.negative <;> simp

/-- A multiple of ten units, and whatever lies within one unit of it on one side, is rounded alike once 28
digits end above the unit. -/
theorem roundsLike_beside {m f : Int} {δ ε : ℚ} (hm : 10 ^ (f + precision + 1) ≤ |10 * m * (10 : ℚ) ^ f|)
    (hδ : 0 < δ) (hδunit : δ ≤ 10 ^ f) (hε : 0 < ε) (hεunit : ε ≤ 10 ^ f) :
    RoundsLike (10 * m * 10 ^ f + δ) (10 * m * 10 ^ f + ε) := by
  have hunit : (0 : ℚ) < 10 ^ f := zpow_pos (by norm_num) _
  have hcell : ∀ z : ℚ, 0 < z → z ≤ 10 ^ f → InCell f (2 * m) (10 * m * 10 ^ f + z) := by
    intro z hz hzunit
    constructor <;> push_cast <;> linarith
  have hy := hcell δ hδ hδunit
  have hlog : 10 ^ (f + precision) ≤ |10 * m * (10 : ℚ) ^ f + δ| := by
    have hpow : (10 : ℚ) ^ (f + precision + 1) = 10 ^ (f + precision) * 10 := by
      rw [zpow_add₀ (by norm_num), zpow_one]
    have hunits : (10 : ℚ) ^ f ≤ 10 ^ (f + precision) := zpow_le_zpow_right₀ (by norm_num) (by omega)
    have hdistance := abs_sub_abs_le_abs_sub (10 * m * (10 : ℚ) ^ f) (10 * m * 10 ^ f + δ)
    rw [sub_add_cancel_left, abs_neg, abs_of_pos hδ] at hdistance
    linarith
  rw [pow_le_abs_iff hy.ne_zero] at hlog
  refine .inr ⟨f, 2 * m, hy, hcell ε hε hεunit, ?_⟩
  simp only [lastPlace]
  omega

theorem RoundsLike.neg {x y : ℚ} (h : RoundsLike y x) : RoundsLike (-y) (-x) := by
  obtain rfl | ⟨f, k, hy, hx, hf⟩ := h
  · exact .inl rfl
  · refine .inr ⟨f, -k - 1, hy.neg, hx.neg, ?_⟩
    rwa [lastPlace, abs_neg]

theorem toRat_eq_abs (d : Decimal) : d.toRat = if d.negative then -|d.toRat| else |d.toRat| := by
  rw [abs_toRat, toRat, signed]
  split <;> simp

/-- What lies two digits below the last of a number may be any size: a sum is rounded alike. -/
theorem nudge_like (large small : Decimal) :
    RoundsLike (large.toRat + (nudge large small).toRat) (large.toRat + small.toRat) := by
  unfold nudge
  simp only
  split
  · rename_i hnudged
    obtain ⟨hlarge, hbelow⟩ := hnudged
    generalize hfloor : large.exponent + min (-1) (Text.digitCount large.coefficient - precision - 2 : Int) =
      floor at hbelow
    have hfine : floor < large.exponent := by
      rw [← hfloor]
      omega
    have hlow : floor + precision + 1 ≤ large.leadingExponent := by
      simp only [leadingExponent, magnitude, precision] at *
      omega
    by_cases hsmall : small.coefficient = 0
    · rw [if_pos hsmall, toRat_of_coefficient_zero hsmall,
        toRat_of_coefficient_zero (d := ⟨small.negative, 0, floor⟩) rfl]
      exact .inl rfl
    · have hgrid : large.toRat =
          10 * (large.signed * 10 ^ (large.exponent - floor - 1).toNat : Int) * 10 ^ floor := by
        have hsplit : large.exponent = 1 + ((large.exponent - floor - 1).toNat : Int) + floor := by omega
        rw [toRat]
        conv_lhs => rw [hsplit, zpow_add₀ (by norm_num), zpow_add₀ (by norm_num), zpow_one, zpow_natCast]
        push_cast
        ring
      generalize (large.signed * 10 ^ (large.exponent - floor - 1).toNat : Int) = m at hgrid
      have hwide : 10 ^ (floor + precision + 1) ≤ |10 * (m : ℚ) * 10 ^ floor| := by
        rw [← hgrid]
        exact (zpow_le_zpow_right₀ (by norm_num) hlow).trans (le_abs_toRat hlarge)
      have hunit : (0 : ℚ) < 10 ^ floor := zpow_pos (by norm_num) _
      have hpos : 0 < |small.toRat| := abs_pos.2 fun h0 => hsmall (toRat_eq_zero.1 h0)
      have hless : |small.toRat| ≤ 10 ^ floor := by
        refine small.abs_toRat_lt.le.trans (zpow_le_zpow_right₀ (by norm_num) ?_)
        simp only [leadingExponent] at hbelow
        omega
      have hnudged : toRat ⟨small.negative, 1, floor⟩ = if small.negative then -10 ^ floor else 10 ^ floor := by
        rw [toRat, signed]
        split <;> simp
      rw [if_neg hsmall, hnudged, small.toRat_eq_abs, hgrid]
      split
      · have hlike := roundsLike_beside (m := -m) (f := floor) (by simpa using hwide) hunit le_rfl hpos hless
        convert hlike.neg using 1 <;> push_cast <;> ring
      · exact roundsLike_beside hwide hunit le_rfl hpos hless
  · exact .inl rfl

/-- The sum that is brought into the context. -/
def unrounded (a b : Decimal) : Decimal :=
  if a.exponent < b.exponent then exactAdd (nudge b a) b else exactAdd a (nudge a b)

theorem add_eq (a b : Decimal) : a.add b = (unrounded a b).finish := rfl

theorem unrounded_like (a b : Decimal) : RoundsLike (unrounded a b).toRat (a.toRat + b.toRat) := by
  unfold unrounded
  split
  · rw [exactAdd_toRat, add_comm a.toRat, add_comm (nudge b a).toRat]
    exact nudge_like b a
  · rw [exactAdd_toRat]
    exact nudge_like a b

theorem rounds_of_add {r : Decimal} (h : a.add b = .ok r) : Rounds (a.toRat + b.toRat) r :=
  (finish_rounds (add_eq a b ▸ h)).of_like (unrounded_like a b)

theorem add_rounds (hsize : |a.toRat + b.toRat| < 10 ^ greatestExponent) :
    ∃ r, a.add b = .ok r ∧ Rounds (a.toRat + b.toRat) r := by
  rw [add_eq]
  exact finish_of_like (unrounded_like a b) hsize

theorem sub_rounds (hsize : |a.toRat - b.toRat| < 10 ^ greatestExponent) :
    ∃ r, a.sub b = .ok r ∧ Rounds (a.toRat - b.toRat) r := by
  rw [sub_eq_add_neg, ← neg_toRat] at *
  exact add_rounds hsize

theorem rounds_of_mul {r : Decimal} (h : a.mul b = .ok r) : Rounds (a.toRat * b.toRat) r := by
  rw [← exactMul_toRat]
  exact finish_rounds h

theorem mul_rounds (hsize : |a.toRat * b.toRat| < 10 ^ greatestExponent) :
    ∃ r, a.mul b = .ok r ∧ Rounds (a.toRat * b.toRat) r := by
  refine finish_of_like ?_ hsize
  exact .inl (exactMul_toRat a b)

theorem toRat_dropZeros (negative : Bool) (limit coefficient : Nat) (exponent : Int) :
    toRat ⟨negative, (dropZeros limit coefficient exponent).1, (dropZeros limit coefficient exponent).2⟩ =
      toRat ⟨negative, coefficient, exponent⟩ := by
  induction limit generalizing coefficient exponent with
  | zero => rfl
  | succ limit ih =>
    rw [dropZeros]
    split
    · rename_i hzero
      rw [ih]
      refine toRat_coarser (d := ⟨negative, coefficient, exponent⟩) (by simp) ?_
      have hone : (exponent + 1 - exponent).toNat = 1 := by omega
      simp only [hone, pow_one]
      omega
    · rfl

/-- A whole part of 29 digits whose last digit is neither 0 nor 5 stands for a quotient that leaves a
remainder. -/
theorem roundsLike_sticky {n d : Nat} (f : Int) (hrest : n % d ≠ 0) (hwide : 10 ^ precision ≤ n / d) :
    RoundsLike ((if n / d % 5 = 0 then n / d + 1 else n / d : Nat) * (10 : ℚ) ^ f) (n / d * (10 : ℚ) ^ f) := by
  have hunit : (0 : ℚ) < 10 ^ f := zpow_pos (by norm_num) _
  have hd : 0 < d := by
    rcases Nat.eq_zero_or_pos d with rfl | hd
    · simp at hwide
    · exact hd
  have hdq : (0 : ℚ) < d := by exact_mod_cast hd
  have hlower : ((n / d : Nat) : ℚ) < (n : ℚ) / d := by
    have hlt : n / d * d < n := by
      have := Nat.div_add_mod n d
      rw [Nat.mul_comm] at this
      omega
    rw [lt_div_iff₀ hdq]
    exact_mod_cast hlt
  have hupper : (n : ℚ) / d < (n / d : Nat) + 1 := by
    have hlt : n < (n / d + 1) * d := by
      rw [Nat.mul_comm]
      exact Nat.lt_mul_div_succ n hd
    rw [div_lt_iff₀ hdq]
    exact_mod_cast hlt
  generalize n / d = q at *
  generalize hsticky : (if q % 5 = 0 then q + 1 else q) = c
  have hcell : 5 * (q / 5) < c ∧ c < 5 * (q / 5 + 1) ∧ q + 1 ≤ 5 * (q / 5 + 1) ∧ q ≤ c := by
    split at hsticky <;> omega
  obtain ⟨hc, hc', hnext, hqc⟩ := hcell
  have hbelow : (5 * (q / 5 : Nat) : ℚ) ≤ q := by exact_mod_cast Nat.mul_div_le q 5
  have hc : (5 * (q / 5 : Nat) : ℚ) < c := by exact_mod_cast hc
  have hc' : (c : ℚ) < 5 * ((q / 5 : Nat) + 1) := by exact_mod_cast hc'
  have hnext : (q + 1 : ℚ) ≤ 5 * ((q / 5 : Nat) + 1) := by exact_mod_cast hnext
  have hcell : ∀ z : ℚ, 5 * (q / 5 : Nat) < z → z < 5 * ((q / 5 : Nat) + 1) →
      InCell f (q / 5 : Nat) (z * 10 ^ f) := by
    intro z hz hz'
    rw [InCell, Int.cast_natCast]
    exact ⟨by gcongr, by gcongr⟩
  have hy := hcell c hc hc'
  refine .inr ⟨f, (q / 5 : Nat), hy, hcell _ (by linarith) (by linarith), ?_⟩
  have hlog : 10 ^ ((precision : Int) + f) ≤ |(c : ℚ) * 10 ^ f| := by
    have hwide : (10 : ℚ) ^ precision ≤ c := by exact_mod_cast hwide.trans hqc
    rw [zpow_add₀ (by norm_num), zpow_natCast, abs_of_nonneg (by positivity)]
    gcongr
  rw [pow_le_abs_iff hy.ne_zero] at hlog
  simp only [lastPlace]
  omega

/-- The quotient before it is rounded. -/
def unroundedQuotient (a b : Decimal) : Decimal :=
  ⟨a.negative != b.negative, (quotient a b).1, (quotient a b).2⟩

/-- Shifted as they are, the coefficients have a quotient of 29 digits at least. -/
theorem pow_precision_le_quotient {m n : Nat} {shift : Int} (hm : m ≠ 0) (hn : n ≠ 0)
    (hshift : shift = Text.digitCount n - Text.digitCount m + precision + 1) :
    10 ^ precision ≤ m * 10 ^ shift.toNat / (n * 10 ^ (-shift).toNat) := by
  have hcount := Text.digitCount_pos m
  rw [Nat.le_div_iff_mul_le (by positivity)]
  calc 10 ^ precision * (n * 10 ^ (-shift).toNat)
      ≤ 10 ^ precision * (10 ^ Text.digitCount n * 10 ^ (-shift).toNat) := by
        gcongr
        exact (Text.lt_pow_digitCount n).le
    _ = 10 ^ (Text.digitCount m - 1) * 10 ^ shift.toNat := by
        simp only [← Nat.pow_add]
        congr 1
        omega
    _ ≤ m * 10 ^ shift.toNat := by
        gcongr
        exact Text.pow_digitCount_le hm

theorem abs_div_eq (hb : b.coefficient ≠ 0) (shift : Int) : |a.toRat / b.toRat| =
    (a.coefficient * 10 ^ shift.toNat : Nat) / (b.coefficient * 10 ^ (-shift).toNat : Nat) *
      (10 : ℚ) ^ (a.exponent - b.exponent - shift) := by
  have hb : (b.coefficient : ℚ) ≠ 0 := by exact_mod_cast hb
  have hunit : (10 : ℚ) ^ b.exponent ≠ 0 := zpow_ne_zero _ (by norm_num)
  have hscale : (10 : ℚ) ^ a.exponent * 10 ^ (-shift).toNat =
      10 ^ shift.toNat * 10 ^ (a.exponent - b.exponent - shift) * 10 ^ b.exponent := by
    simp only [← zpow_natCast, ← zpow_add₀ (by norm_num : (10 : ℚ) ≠ 0)]
    congr 1
    omega
  rw [abs_div, abs_toRat, abs_toRat, div_mul_eq_mul_div]
  push_cast
  rw [div_eq_div_iff (mul_ne_zero hb hunit) (by positivity)]
  linear_combination (a.coefficient * b.coefficient : ℚ) * hscale

theorem quotient_like (hb : b.coefficient ≠ 0) :
    RoundsLike (unroundedQuotient a b).toRat (a.toRat / b.toRat) := by
  have hsign : a.toRat / b.toRat =
      if (unroundedQuotient a b).negative then -|a.toRat / b.toRat| else |a.toRat / b.toRat| := by
    rw [unroundedQuotient, abs_div, a.toRat_eq_abs, b.toRat_eq_abs]
    cases a.negative <;> cases b.negative <;> simp [neg_div, div_neg]
  have hlike : RoundsLike |(unroundedQuotient a b).toRat| |a.toRat / b.toRat| := by
    by_cases ha : a.coefficient = 0
    · have hzero : (unroundedQuotient a b).coefficient = 0 := by simp [unroundedQuotient, quotient, ha]
      rw [toRat_of_coefficient_zero hzero, toRat_of_coefficient_zero ha, zero_div]
      exact .inl rfl
    · generalize hshift : (Text.digitCount b.coefficient - Text.digitCount a.coefficient + precision + 1 : Int) =
        shift
      rw [abs_div_eq hb shift]
      simp only [unroundedQuotient, quotient, if_neg ha, hshift]
      split
      · rename_i hexact
        rw [toRat_dropZeros, abs_toRat, ← Nat.cast_div (Nat.dvd_of_mod_eq_zero hexact) (by positivity)]
        exact .inl rfl
      · rename_i hrest
        rw [abs_toRat]
        exact roundsLike_sticky _ hrest (pow_precision_le_quotient ha hb hshift.symm)
  rw [hsign, (unroundedQuotient a b).toRat_eq_abs]
  split
  · exact hlike.neg
  · exact hlike

theorem div_rounds (hb : b.toRat ≠ 0) (hsize : |a.toRat / b.toRat| < 10 ^ greatestExponent) :
    ∃ r, a.div b = .ok r ∧ Rounds (a.toRat / b.toRat) r := by
  have hb : b.coefficient ≠ 0 := fun h0 => hb (toRat_of_coefficient_zero h0)
  rw [div, if_neg hb]
  exact finish_of_like (quotient_like hb) hsize

end Decimal

end NetWorth
