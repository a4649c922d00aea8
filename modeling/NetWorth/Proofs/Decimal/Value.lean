import Mathlib.Algebra.Order.Field.Power
import Mathlib.Algebra.Order.Field.Rat
import Mathlib.Tactic.FieldSimp
import Mathlib.Tactic.Linarith
import Mathlib.Tactic.Positivity
import NetWorth.Decimal.Context
import NetWorth.Proofs.Text.Numeral

/-! # The rational number of a decimal

Forms of one number denote the same rational. The magnitude locates it between two powers of ten, and
the places of a number say on which grid of negative powers of ten it lies. -/
namespace NetWorth

namespace Decimal

def signed (d : Decimal) : Int := if d.negative then -(d.coefficient : Int) else d.coefficient

/-- The rational number that a decimal denotes. -/
def toRat (d : Decimal) : ℚ := d.signed * 10 ^ d.exponent

/-- A rational number that is written with at most `k` digits behind the point. -/
def HasPlaces (k : Nat) (x : ℚ) : Prop := ∃ n : Int, x * 10 ^ k = n

theorem signed_natAbs (d : Decimal) : d.signed.natAbs = d.coefficient := by
  unfold signed
  split <;> simp

theorem abs_toRat (d : Decimal) : |d.toRat| = d.coefficient * 10 ^ d.exponent := by
  rw [toRat, abs_mul, abs_of_pos (zpow_pos (by norm_num : (0 : ℚ) < 10) d.exponent), ← Int.cast_abs,
    Int.abs_eq_natAbs, signed_natAbs, Int.cast_natCast]

theorem toRat_of_coefficient_zero {d : Decimal} (h : d.coefficient = 0) : d.toRat = 0 := by
  simp [toRat, signed, h]

theorem toRat_eq_zero {d : Decimal} : d.toRat = 0 ↔ d.coefficient = 0 := by
  refine ⟨fun h => ?_, toRat_of_coefficient_zero⟩
  have habs := d.abs_toRat
  rw [h, abs_zero, eq_comm, mul_eq_zero] at habs
  simpa [zpow_ne_zero] using habs

theorem negative_iff {d : Decimal} (h : d.coefficient ≠ 0) : d.negative = true ↔ d.toRat < 0 := by
  have hunit : (0 : ℚ) < 10 ^ d.exponent := zpow_pos (by norm_num) _
  have hcoefficient : (0 : ℚ) < d.coefficient := by exact_mod_cast Nat.pos_of_ne_zero h
  rw [toRat, signed]
  cases d.negative with
  | false => simpa using (mul_pos hcoefficient hunit).le
  | true => simpa using mul_pos hcoefficient hunit

@[simp] theorem toRat_zero : zero.toRat = 0 := toRat_of_coefficient_zero rfl

theorem abs_toRat_lt (d : Decimal) : |d.toRat| < 10 ^ d.magnitude := by
  have hcoefficient : (d.coefficient : ℚ) < 10 ^ Text.digitCount d.coefficient := by
    exact_mod_cast Text.lt_pow_digitCount d.coefficient
  have hunit : (0 : ℚ) < 10 ^ d.exponent := zpow_pos (by norm_num) _
  calc |d.toRat| = d.coefficient * 10 ^ d.exponent := d.abs_toRat
    _ < 10 ^ Text.digitCount d.coefficient * 10 ^ d.exponent :=
      mul_lt_mul_of_pos_right hcoefficient hunit
    _ = 10 ^ d.magnitude := by rw [magnitude, zpow_add₀ (by norm_num), zpow_natCast]

theorem le_abs_toRat {d : Decimal} (h : d.coefficient ≠ 0) : 10 ^ d.leadingExponent ≤ |d.toRat| := by
  have hcoefficient : (10 : ℚ) ^ (Text.digitCount d.coefficient - 1) ≤ d.coefficient := by
    exact_mod_cast Text.pow_digitCount_le h
  have hcount := Text.digitCount_pos d.coefficient
  have hexponent : d.leadingExponent = ((Text.digitCount d.coefficient - 1 : Nat) : Int) + d.exponent := by
    simp only [leadingExponent, magnitude]
    omega
  calc (10 : ℚ) ^ d.leadingExponent = 10 ^ (Text.digitCount d.coefficient - 1) * 10 ^ d.exponent := by
        rw [hexponent, zpow_add₀ (by norm_num), zpow_natCast]
    _ ≤ d.coefficient * 10 ^ d.exponent := by gcongr
    _ = |d.toRat| := d.abs_toRat.symm

/-- A number below a power of ten has no digit at that power. -/
theorem magnitude_le_of_abs_lt {d : Decimal} {e : Int} (h : d.coefficient ≠ 0)
    (hlt : |d.toRat| < 10 ^ e) : d.magnitude ≤ e := by
  have hpow : (10 : ℚ) ^ d.leadingExponent < 10 ^ e := (le_abs_toRat h).trans_lt hlt
  have := (zpow_lt_zpow_iff_right₀ (by norm_num : (1 : ℚ) < 10)).1 hpow
  simp only [leadingExponent] at this
  omega

namespace HasPlaces

variable {k : Nat} {x y : ℚ}

theorem zero : HasPlaces k 0 := ⟨0, by simp⟩

theorem add (hx : HasPlaces k x) (hy : HasPlaces k y) : HasPlaces k (x + y) := by
  obtain ⟨m, hm⟩ := hx
  obtain ⟨n, hn⟩ := hy
  exact ⟨m + n, by rw [add_mul, hm, hn, Int.cast_add]⟩

theorem sub (hx : HasPlaces k x) (hy : HasPlaces k y) : HasPlaces k (x - y) := by
  obtain ⟨m, hm⟩ := hx
  obtain ⟨n, hn⟩ := hy
  exact ⟨m - n, by rw [sub_mul, hm, hn, Int.cast_sub]⟩

theorem sum {xs : List ℚ} (h : ∀ x ∈ xs, HasPlaces k x) : HasPlaces k xs.sum := by
  induction xs with
  | nil => exact zero
  | cons x xs ih =>
    rw [List.sum_cons]
    exact (h x (by simp)).add (ih fun y hy => h y (by simp [hy]))

end HasPlaces

end Decimal

end NetWorth
