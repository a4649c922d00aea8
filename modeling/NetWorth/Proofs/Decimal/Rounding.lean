import Mathlib.Algebra.Order.Floor.Semifield
import Mathlib.Data.Rat.Floor
import NetWorth.Proofs.Decimal.OneText

/-! # Rounding to places

A number is rounded to places by counting the units of the last place that are nearest to it, a half counting
as a whole one. The count is exact for every number, and the result is refused exactly if the count has more
than 28 digits. -/
namespace NetWorth

namespace Decimal

/-- How many units of `10 ^ -places` are nearest to a number without its sign, a half counting as one. -/
def nearestUnits (x : ℚ) (places : Nat) : Nat := ⌊|x| * 10 ^ places + 1 / 2⌋₊

theorem nearestOnGrid_away (d : Decimal) (e : Int) :
    nearestOnGrid .away d e = ⌊|d.toRat| / 10 ^ e + 1 / 2⌋₊ := by
  obtain ⟨n, m, hm, hvalue, hrounded⟩ := nearestOnGrid_eq_roundQuotient .away d e
  have hmq : (m : ℚ) ≠ 0 := by exact_mod_cast hm.ne'
  have hquotient : |d.toRat| / 10 ^ e = n / m := by
    rw [div_eq_div_iff (zpow_ne_zero _ (by norm_num)) hmq, hvalue]
  rw [hrounded, roundQuotient_away n hm, ← Nat.floor_div_eq_div (K := ℚ), hquotient]
  congr 1
  push_cast
  field_simp

variable {d : Decimal} {places : Nat}

theorem nearestOnGrid_eq_nearestUnits (d : Decimal) (places : Nat) :
    nearestOnGrid .away d (-(places : Int)) = nearestUnits d.toRat places := by
  rw [nearestOnGrid_away, nearestUnits, zpow_neg, zpow_natCast, div_inv_eq_mul]

theorem pow_precision_le_nearestUnits (hd : d.coefficient ≠ 0)
    (hlarge : -(places : Int) + precision < d.magnitude) :
    10 ^ precision ≤ nearestUnits d.toRat places := by
  have hlead : (10 : ℚ) ^ (-(places : Int) + precision) ≤ |d.toRat| := by
    refine le_trans (zpow_le_zpow_right₀ (by norm_num) ?_) (le_abs_toRat hd)
    simp only [leadingExponent]
    omega
  rw [zpow_add₀ (by norm_num), zpow_neg, zpow_natCast, zpow_natCast, inv_mul_le_iff₀ (by positivity),
    mul_comm] at hlead
  refine Nat.le_floor ?_
  push_cast
  linarith

/-- Rounding to places counts the nearest units, which may have 28 digits. -/
theorem round_eq (h : places ≤ 999999) : d.round places =
    if 10 ^ precision ≤ nearestUnits d.toRat places then .error .invalidOperation
    else .ok ⟨d.negative, nearestUnits d.toRat places, -(places : Int)⟩ := by
  have hplaces : ¬ greatestPlaces < places := by
    simp only [greatestPlaces]
    omega
  have hexponent : max (-(places : Int)) leastQuantum = -(places : Int) := by
    simp only [leastQuantum]
    omega
  rw [round, if_neg hplaces]
  simp only [hexponent, nearestOnGrid_eq_nearestUnits]
  split
  · rename_i hlarge
    rw [if_pos (pow_precision_le_nearestUnits hlarge.1 hlarge.2)]
  · rfl

end Decimal

namespace Amount

open Decimal (nearestUnits)

/-- A number is rounded half away from zero: it keeps its sign, its coefficient is the number of nearest
units, and it is refused exactly if these have more than 28 digits. So it has no text exactly then. -/
theorem rounds_half_away (d : Decimal) {places : Nat} (h : places ≤ 999999) :
    (round (.finite d) places = if nearestUnits d.toRat places < 10 ^ 28 then
        .ok (.finite ⟨d.negative, nearestUnits d.toRat places, -(places : Int)⟩)
      else .error (.arithmetic .invalidOperation)) ∧
    ((∃ failure, format (.finite d) (some places) = .error failure) ↔
      10 ^ 28 ≤ nearestUnits d.toRat places) := by
  have hplaces : round (.finite d) places = ofSignal ((d.round places).map .finite) := by
    rw [round, if_neg (by omega), Int.toNat_natCast, Number.round_finite]
  rw [format, hplaces, Decimal.round_eq h]
  have hprecision : 10 ^ Decimal.precision = 10 ^ 28 := rfl
  by_cases hlong : 10 ^ 28 ≤ nearestUnits d.toRat places
  · rw [if_pos (hprecision ▸ hlong), if_neg (not_lt.2 hlong)]
    exact ⟨rfl, fun _ => hlong, fun _ => ⟨_, rfl⟩⟩
  · rw [if_neg (hprecision ▸ hlong), if_pos (not_le.1 hlong)]
    refine ⟨rfl, ?_, fun hle => absurd hle hlong⟩
    rintro ⟨_, herror⟩
    contradiction

/-- Of 28 nines and a half, the half carries into one digit too many. -/
theorem nines_and_half_refused : 2 ≤ 999999 ∧
    nearestUnits (Decimal.toRat ⟨true, 99999999999999999999999999995, -3⟩) 2 = 10 ^ 28 ∧
    ∃ failure, format (.finite ⟨true, 99999999999999999999999999995, -3⟩) (some (2 : Nat)) = .error failure := by
  have hunits : nearestUnits (Decimal.toRat ⟨true, 99999999999999999999999999995, -3⟩) 2 = 10 ^ 28 := by
    norm_num [nearestUnits, Decimal.toRat, Decimal.signed]
  exact ⟨by decide, hunits, (rounds_half_away _ (by decide)).2.2 hunits.ge⟩

end Amount

end NetWorth
