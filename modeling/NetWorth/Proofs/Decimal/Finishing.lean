import NetWorth.Decimal.Arithmetic
import NetWorth.Proofs.Decimal.Value

/-! # Bringing results into the context

An operation forms a number that is exact, or nearly so, and rounds it to 28 digits. What comes out is a
number that the context can hold. -/
namespace NetWorth

namespace Decimal

/-- A number that the context can hold. -/
structure InContext (d : Decimal) : Prop where
  least : leastQuantum ≤ d.exponent
  magnitude : d.magnitude ≤ greatestExponent + 1

/-- A number that the context can hold with all its digits. -/
structure Held (d : Decimal) : Prop extends d.InContext where
  digits : Text.digitCount d.coefficient ≤ precision

theorem zero_inContext : zero.InContext := ⟨by decide, by decide⟩

theorem zero_held : zero.Held := ⟨zero_inContext, by decide⟩

theorem nearestOnGrid_eq_roundQuotient (tie : Tie) (d : Decimal) (e : Int) :
    ∃ n m : Nat, 0 < m ∧ |d.toRat| * m = n * 10 ^ e ∧ nearestOnGrid tie d e = roundQuotient tie n m := by
  by_cases hfine : e ≤ d.exponent
  · refine ⟨d.coefficient * 10 ^ (d.exponent - e).toNat, 1, by decide, ?_, ?_⟩
    · rw [abs_toRat]
      push_cast
      rw [mul_one, mul_assoc, ← zpow_natCast, ← zpow_add₀ (by norm_num)]
      congr 2
      omega
    · have hwhole := roundQuotient_mul tie (d.coefficient * 10 ^ (d.exponent - e).toNat) Nat.one_pos
      rw [Nat.mul_one] at hwhole
      rw [hwhole, nearestOnGrid, if_pos hfine]
      split
      · rename_i hzero
        rw [hzero, Nat.zero_mul]
      · rfl
  · refine ⟨d.coefficient, 10 ^ (e - d.exponent).toNat, by positivity, ?_, ?_⟩
    · rw [abs_toRat]
      push_cast
      rw [mul_assoc, ← zpow_natCast, ← zpow_add₀ (by norm_num)]
      congr 2
      omega
    · rw [nearestOnGrid, if_neg hfine]
      split
      · rename_i hzero
        rw [hzero, roundQuotient_of_lt tie (by positivity)]
      · split
        · rename_i hsmall
          refine (roundQuotient_of_lt tie ?_).symm
          calc 2 * d.coefficient < 10 * 10 ^ Text.digitCount d.coefficient := by
                have := Text.lt_pow_digitCount d.coefficient
                omega
            _ = 10 ^ (Text.digitCount d.coefficient + 1) := (Nat.pow_succ').symm
            _ ≤ 10 ^ (e - d.exponent).toNat := by
                refine Nat.pow_le_pow_right (by decide) ?_
                simp only [magnitude] at hsmall
                omega
        · rfl

theorem toRat_coarser {d : Decimal} {e : Int} {m : Nat} (hle : d.exponent ≤ e)
    (hm : d.coefficient = m * 10 ^ (e - d.exponent).toNat) :
    toRat ⟨d.negative, m, e⟩ = d.toRat := by
  have hpow : (10 : ℚ) ^ (e - d.exponent).toNat * 10 ^ d.exponent = 10 ^ e := by
    rw [← zpow_natCast, ← zpow_add₀ (by norm_num)]
    congr 1
    omega
  have hsigned : (d.signed : ℚ) = signed ⟨d.negative, m, e⟩ * 10 ^ (e - d.exponent).toNat := by
    unfold signed
    rw [hm]
    cases d.negative <;> push_cast <;> simp
  rw [toRat, toRat, hsigned, mul_assoc, hpow]

theorem finish_of_coefficient_zero {d : Decimal} (h : d.coefficient = 0) :
    ∃ r, d.finish = .ok r ∧ r.toRat = d.toRat := by
  refine ⟨_, by rw [finish, if_pos h], ?_⟩
  rw [toRat_of_coefficient_zero h]
  exact toRat_of_coefficient_zero h

/-- Rounding to the quantum leaves at most one digit too many. -/
theorem nearestOnGrid_quantum_le (d : Decimal) (h : d.exponent < d.quantum) :
    nearestOnGrid .toEven d d.quantum ≤ 10 ^ precision := by
  unfold nearestOnGrid
  split
  · exact Nat.zero_le _
  · rw [if_neg (by omega)]
    split
    · exact Nat.zero_le _
    · have hunit : 0 < 10 ^ (d.quantum - d.exponent).toNat := by positivity
      have hnear := (roundQuotient_near .toEven d.coefficient hunit).2
      have hcoefficient : d.coefficient < 10 ^ precision * 10 ^ (d.quantum - d.exponent).toNat := by
        rw [← Nat.pow_add]
        refine (Text.lt_pow_digitCount _).trans_le (Nat.pow_le_pow_right (by decide) ?_)
        simp only [quantum, magnitude, precision]
        omega
      by_contra hlt
      have hstep := Nat.mul_le_mul_right (10 ^ (d.quantum - d.exponent).toNat)
        (Nat.succ_le_of_lt (not_le.1 hlt))
      rw [Nat.succ_mul] at hstep
      omega

/-- How a number is brought into the context: a zero takes a near exponent, what fits is kept, and all
else is rounded, once more with a carry if that leaves a digit too many. -/
inductive Finished (d : Decimal) : Decimal → Prop
  | zero (h : d.coefficient = 0) :
    Finished d { d with exponent := max leastQuantum (min d.exponent greatestExponent) }
  | kept (h : d.coefficient ≠ 0) (hroom : d.magnitude - precision ≤ greatestQuantum)
    (hfits : d.quantum ≤ d.exponent) : Finished d d
  | rounded (h : d.coefficient ≠ 0) (hroom : d.magnitude - precision ≤ greatestQuantum)
    (hlong : d.exponent < d.quantum) (hshort : nearestOnGrid .toEven d d.quantum < 10 ^ precision) :
    Finished d ⟨d.negative, nearestOnGrid .toEven d d.quantum, d.quantum⟩
  | carried (h : d.coefficient ≠ 0) (hroom : d.quantum + 1 ≤ greatestQuantum)
    (hlong : d.exponent < d.quantum) (hfull : nearestOnGrid .toEven d d.quantum = 10 ^ precision) :
    Finished d ⟨d.negative, 10 ^ (precision - 1), d.quantum + 1⟩

theorem finished_of_finish {d r : Decimal} (h : d.finish = .ok r) : d.Finished r := by
  rw [finish] at h
  split at h
  · rename_i hd
    obtain rfl := Except.ok.inj h
    exact .zero hd
  · rename_i hd
    split at h
    · contradiction
    · rename_i hroom
      split at h
      · rename_i hfits
        obtain rfl := Except.ok.inj h
        exact .kept hd (not_lt.1 hroom) hfits
      · rename_i hlong
        have hbound := nearestOnGrid_quantum_le d (not_le.1 hlong)
        simp only at h
        split at h
        · rename_i hfull
          split at h
          · contradiction
          · rename_i hnext
            obtain rfl := Except.ok.inj h
            exact .carried hd (not_lt.1 hnext) (not_le.1 hlong) hfull
        · rename_i hshort
          obtain rfl := Except.ok.inj h
          exact .rounded hd (not_lt.1 hroom) (not_le.1 hlong) (lt_of_le_of_ne hbound hshort)

/-- Every result of an operation lies in the context and has at most 28 digits. -/
theorem finish_held {d r : Decimal} (h : d.finish = .ok r) : r.Held := by
  have hleast : leastQuantum ≤ d.quantum := le_max_right _ _
  cases finished_of_finish h with
  | zero hd =>
    refine ⟨⟨?_, ?_⟩, ?_⟩ <;>
      simp only [magnitude, hd, Text.digitCount_of_lt (by decide : 0 < 10), leastQuantum,
        greatestExponent, precision] <;> omega
  | kept _ hroom hfits =>
    refine ⟨⟨?_, ?_⟩, ?_⟩ <;>
      simp only [quantum, magnitude, greatestQuantum, precision, greatestExponent] at * <;> omega
  | rounded _ hroom _ hshort =>
    have hcount : Text.digitCount (nearestOnGrid .toEven d d.quantum) ≤ precision :=
      Text.digitCount_le_of_lt (by decide) hshort
    refine ⟨⟨hleast, ?_⟩, hcount⟩
    simp only [magnitude, quantum, greatestQuantum, leastQuantum, precision, greatestExponent] at *
    omega
  | carried _ hroom =>
    have hcount : Text.digitCount (10 ^ (precision - 1)) ≤ precision :=
      Text.digitCount_le_of_lt (by decide) (by decide)
    refine ⟨⟨?_, ?_⟩, hcount⟩
    · simp only
      omega
    · simp only [magnitude, greatestQuantum, precision, greatestExponent] at *
      omega

theorem finish_inContext {d r : Decimal} (h : d.finish = .ok r) : r.InContext := (finish_held h).toInContext

/-- The number on the grid of 28 digits that is nearest to a number. -/
def nearest (d : Decimal) : Decimal := ⟨d.negative, nearestOnGrid .toEven d d.quantum, d.quantum⟩

theorem finish_toRat {d r : Decimal} (h : d.finish = .ok r) (hd : d.coefficient ≠ 0) :
    r.toRat = d.nearest.toRat := by
  cases finished_of_finish h with
  | zero h0 => exact absurd h0 hd
  | kept _ _ hfits =>
    refine toRat_coarser (d := d.nearest) hfits ?_
    simp only [nearest, nearestOnGrid, if_neg hd, if_pos hfits]
  | rounded => rfl
  | carried _ _ _ hfull =>
    refine toRat_coarser (d := d.nearest) (by simp [nearest]) ?_
    simp [nearest, hfull, precision]

theorem onGrid_mul {d : Decimal} {e : Int} (h : e ≤ d.exponent) : d.onGrid e * (10 : ℚ) ^ e = d.toRat := by
  have hpow : (10 : ℚ) ^ (d.exponent - e).toNat * 10 ^ e = 10 ^ d.exponent := by
    rw [← zpow_natCast, ← zpow_add₀ (by norm_num)]
    congr 1
    omega
  have hgrid : d.onGrid e = d.signed * 10 ^ (d.exponent - e).toNat := by
    unfold onGrid signed
    split
    · rename_i hzero
      simp [hzero]
    · cases d.negative <;> simp
  rw [hgrid, toRat, ← hpow]
  push_cast
  ring

theorem exactAdd_toRat (a b : Decimal) : (exactAdd a b).toRat = a.toRat + b.toRat := by
  rw [← onGrid_mul (min_le_left a.exponent b.exponent), ← onGrid_mul (min_le_right a.exponent b.exponent),
    ← add_mul, ← Int.cast_add]
  simp only [exactAdd]
  generalize a.onGrid (min a.exponent b.exponent) + b.onGrid (min a.exponent b.exponent) = sum
  by_cases hsum : sum = 0
  · subst hsum
    rw [toRat_of_coefficient_zero rfl]
    simp
  · simp only [toRat, signed, if_neg hsum]
    congr 2
    by_cases hneg : sum < 0
    · rw [if_pos (by simpa using hneg)]
      omega
    · rw [if_neg (by simpa using hneg)]
      omega

theorem exactMul_toRat (a b : Decimal) :
    toRat ⟨a.negative != b.negative, a.coefficient * b.coefficient, a.exponent + b.exponent⟩ =
      a.toRat * b.toRat := by
  simp only [toRat, signed, zpow_add₀ (by norm_num : (10 : ℚ) ≠ 0)]
  cases a.negative <;> cases b.negative <;> push_cast <;> simp <;> ring

end Decimal

end NetWorth
