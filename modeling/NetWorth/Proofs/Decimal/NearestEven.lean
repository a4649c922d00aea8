import Mathlib.Data.Int.Log
import Mathlib.Data.Rat.Floor
import NetWorth.Proofs.Decimal.Finishing

/-! # Rounding to 28 digits

A result is the multiple of the 28th digit that is nearest to the exact number, midway between two the even
one. Since midpoints and powers of ten are multiples of five of the digit below, all that lies between two
neighbouring multiples of five is rounded alike: this is what lets a quotient or a sum be cut off early. -/
namespace NetWorth

theorem roundQuotient_toEven_of_mid {n d : Nat} (hd : 0 < d)
    (h : 2 * n = 2 * (roundQuotient .toEven n d * d) + d ∨ 2 * (roundQuotient .toEven n d * d) = 2 * n + d) :
    Even (roundQuotient .toEven n d) := by
  have hmod := Nat.div_add_mod n d
  have hlt := Nat.mod_lt n hd
  rw [Nat.mul_comm] at hmod
  rw [Nat.even_iff]
  unfold roundQuotient at h ⊢
  simp only at h ⊢
  split_ifs at h ⊢ with hup
  · simp only [Tie.goesUp, Bool.or_eq_true, decide_eq_true_eq, Bool.and_eq_true] at hup
    rw [Nat.add_mul] at h
    omega
  · simp only [Tie.goesUp, Bool.or_eq_true, decide_eq_true_eq, Bool.and_eq_true, not_or, not_and] at hup
    omega

namespace Decimal

/-- The exponent of the last of 28 digits, or that of the finest grid if it is coarser. -/
def lastPlace (x : ℚ) : Int := max (Int.log 10 |x| + 1 - precision) leastQuantum

theorem pow_le_abs_iff {x : ℚ} (hx : x ≠ 0) (j : Int) : 10 ^ j ≤ |x| ↔ j ≤ Int.log 10 |x| := by
  have hlog := Int.zpow_le_iff_le_log (b := 10) (by decide) (x := j) (abs_pos.2 hx)
  rwa [Nat.cast_ofNat] at hlog

theorem log_toRat {d : Decimal} (hd : d.coefficient ≠ 0) : Int.log 10 |d.toRat| = d.leadingExponent := by
  have hx : d.toRat ≠ 0 := fun h => hd (toRat_eq_zero.1 h)
  have hlower := (pow_le_abs_iff hx d.leadingExponent).1 (le_abs_toRat hd)
  have hupper : ¬ d.magnitude ≤ Int.log 10 |d.toRat| := by
    rw [← pow_le_abs_iff hx]
    exact not_le.2 d.abs_toRat_lt
  simp only [leadingExponent] at hlower ⊢
  omega

theorem lastPlace_toRat {d : Decimal} (hd : d.coefficient ≠ 0) : lastPlace d.toRat = d.quantum := by
  rw [lastPlace, log_toRat hd, quantum, leadingExponent]
  congr 1
  omega

/-- A number below a power of ten has its last place 28 digits below it. -/
theorem lastPlace_le {x : ℚ} {e : Int} (hx : x ≠ 0) (hlt : |x| < 10 ^ (e + precision))
    (he : leastQuantum ≤ e) : lastPlace x ≤ e := by
  have hlog : ¬ e + precision ≤ Int.log 10 |x| := by
    rw [← pow_le_abs_iff hx]
    exact not_le.2 hlt
  refine max_le ?_ he
  omega

/-- A decimal is a rational number rounded to 28 digits, half to even. -/
def Rounds (x : ℚ) (r : Decimal) : Prop :=
  ∃ n : Int, r.toRat = n * 10 ^ lastPlace x ∧ |x - r.toRat| ≤ 10 ^ lastPlace x / 2 ∧
    (|x - r.toRat| = 10 ^ lastPlace x / 2 → Even n)

theorem abs_sub_toRat {d e : Decimal} (h : d.negative = e.negative) :
    |d.toRat - e.toRat| = |(|d.toRat| - |e.toRat|)| := by
  rw [abs_toRat, abs_toRat, toRat, toRat, signed, signed, h]
  cases e.negative with
  | false => simp
  | true =>
    simp only [if_true, Int.cast_neg, Int.cast_natCast, neg_mul, neg_sub_neg]
    exact abs_sub_comm _ _

theorem nearestOnGrid_near (d : Decimal) (e : Int) :
    |(|d.toRat| - nearestOnGrid .toEven d e * 10 ^ e)| ≤ 10 ^ e / 2 ∧
      (|(|d.toRat| - nearestOnGrid .toEven d e * 10 ^ e)| = 10 ^ e / 2 → Even (nearestOnGrid .toEven d e)) := by
  obtain ⟨n, m, hm, hvalue, hrounded⟩ := nearestOnGrid_eq_roundQuotient .toEven d e
  obtain ⟨hlower, hupper⟩ := roundQuotient_near .toEven n hm
  have heven := roundQuotient_toEven_of_mid (n := n) hm
  rw [hrounded]
  generalize roundQuotient .toEven n m = q at *
  have hgrid : (0 : ℚ) < 10 ^ e := zpow_pos (by norm_num) _
  have hmq : (0 : ℚ) < m := by exact_mod_cast hm
  have hlower : (2 * n : ℚ) ≤ 2 * (q * m) + m := by exact_mod_cast hlower
  have hupper : (2 * (q * m) : ℚ) ≤ 2 * n + m := by exact_mod_cast hupper
  -- everything counted in units of the grid, `m` parts to the unit
  have hdistance : |d.toRat| - q * 10 ^ e = (n - q * m : ℚ) * (10 ^ e / m) := by
    rw [sub_mul, mul_div_assoc', ← hvalue]
    field_simp
  have hhalf : (10 : ℚ) ^ e / 2 = m / 2 * (10 ^ e / m) := by
    field_simp
  have hpart : (0 : ℚ) < 10 ^ e / m := by positivity
  rw [hdistance, hhalf, abs_mul, abs_of_pos hpart, mul_le_mul_iff_left₀ hpart, mul_left_inj' hpart.ne']
  refine ⟨abs_le.2 ⟨by linarith, by linarith⟩, fun hmid => heven ?_⟩
  rcases (abs_eq (by positivity)).1 hmid with hmid | hmid
  · left
    have hq : (2 * n : ℚ) = 2 * (q * m) + m := by linarith
    exact_mod_cast hq
  · right
    have hq : (2 * (q * m) : ℚ) = 2 * n + m := by linarith
    exact_mod_cast hq

theorem finish_rounds {d r : Decimal} (h : d.finish = .ok r) : Rounds d.toRat r := by
  by_cases hd : d.coefficient = 0
  · obtain ⟨r', hr', hvalue⟩ := finish_of_coefficient_zero hd
    obtain rfl := Except.ok.inj (h.symm.trans hr')
    have hgrid : (0 : ℚ) < 10 ^ lastPlace d.toRat := zpow_pos (by norm_num) _
    rw [toRat_of_coefficient_zero hd] at hvalue hgrid ⊢
    refine ⟨0, by simp [hvalue], ?_, fun _ => Even.zero⟩
    rw [hvalue, sub_self, abs_zero]
    positivity
  · obtain ⟨hnear, heven⟩ := nearestOnGrid_near d d.quantum
    have habs : |r.toRat| = nearestOnGrid .toEven d d.quantum * 10 ^ d.quantum := by
      rw [finish_toRat h hd, abs_toRat, nearest]
    have hdistance : |d.toRat - r.toRat| = |(|d.toRat| - nearestOnGrid .toEven d d.quantum * 10 ^ d.quantum)| := by
      rw [← habs, finish_toRat h hd]
      exact abs_sub_toRat rfl
    refine ⟨d.nearest.signed, ?_, ?_, ?_⟩
    · rw [finish_toRat h hd, lastPlace_toRat hd, toRat, nearest]
    · rw [lastPlace_toRat hd, hdistance]
      exact hnear
    · rw [lastPlace_toRat hd, hdistance]
      intro hmid
      rw [← Int.natAbs_even, signed_natAbs]
      exact heven hmid

theorem finish_isOk {d : Decimal} (h : |d.toRat| < 10 ^ greatestExponent) : ∃ r, d.finish = .ok r := by
  by_cases hd : d.coefficient = 0
  · exact ⟨_, by rw [finish, if_pos hd]⟩
  · have hmagnitude := magnitude_le_of_abs_lt hd h
    have hroom : ¬ greatestQuantum < d.magnitude - precision := by
      simp only [greatestQuantum, greatestExponent, precision] at *
      omega
    have hcarry : ¬ greatestQuantum < d.quantum + 1 := by
      simp only [quantum, greatestQuantum, greatestExponent, leastQuantum, precision] at *
      omega
    rw [finish, if_neg hd, if_neg hroom]
    simp only [if_neg hcarry]
    split
    · exact ⟨_, rfl⟩
    · split <;> exact ⟨_, rfl⟩

namespace Rounds

variable {x y : ℚ} {r s : Decimal}

theorem near (h : Rounds x r) : |x - r.toRat| ≤ 10 ^ lastPlace x / 2 := by
  obtain ⟨_, -, hnear, -⟩ := h
  exact hnear

theorem eq_of_multiple (h : Rounds x r) {m : Int} (hm : x = m * 10 ^ lastPlace x) : r.toRat = x := by
  have hgrid : (0 : ℚ) < 10 ^ lastPlace x := zpow_pos (by norm_num) _
  obtain ⟨n, hn, hnear, -⟩ := h
  have hdistance : x - r.toRat = (m - n : ℚ) * 10 ^ lastPlace x := by
    rw [hn, sub_mul, ← hm]
  rw [hdistance, abs_mul, abs_of_pos hgrid] at hnear
  have hhalf : |(m - n : ℚ)| ≤ 1 / 2 := by
    by_contra hlarge
    have := mul_lt_mul_of_pos_right (not_le.1 hlarge) hgrid
    linarith
  have hunit : |m - n| < 1 := by
    have hcast : ((|m - n| : Int) : ℚ) < 1 := by
      push_cast
      linarith
    exact_mod_cast hcast
  have heq : m = n := by
    rw [abs_lt] at hunit
    omega
  rw [hn, ← heq, ← hm]

theorem eq_of_hasPlaces (h : Rounds x r) {k : Nat} (hplaces : HasPlaces k x)
    (hsize : |x| < 10 ^ (-(k : Int) + precision)) (hk : leastQuantum ≤ -(k : Int)) : r.toRat = x := by
  obtain ⟨n, hn⟩ := hplaces
  by_cases hx : x = 0
  · exact h.eq_of_multiple (m := 0) (by simp [hx])
  · have hlast := lastPlace_le hx hsize hk
    refine h.eq_of_multiple (m := n * 10 ^ (-(k : Int) - lastPlace x).toNat) ?_
    have hx : x = n * 10 ^ (-(k : Int)) := by
      rw [← hn, zpow_neg, zpow_natCast, mul_assoc, mul_inv_cancel₀ (by positivity), mul_one]
    push_cast
    rw [mul_assoc, ← zpow_natCast, ← zpow_add₀ (by norm_num)]
    conv_lhs => rw [hx]
    congr 2
    omega

theorem eq_of_held {d : Decimal} (h : Rounds d.toRat r) (hdigits : Text.digitCount d.coefficient ≤ precision)
    (hleast : leastQuantum ≤ d.exponent) : r.toRat = d.toRat := by
  by_cases hd : d.coefficient = 0
  · exact h.eq_of_multiple (m := 0) (by simp [toRat_of_coefficient_zero hd])
  · have hlast : lastPlace d.toRat ≤ d.exponent := by
      rw [lastPlace_toRat hd]
      simp only [quantum, magnitude] at *
      omega
    refine h.eq_of_multiple (m := d.signed * 10 ^ (d.exponent - lastPlace d.toRat).toNat) ?_
    generalize lastPlace d.toRat = last at hlast ⊢
    push_cast
    rw [toRat, mul_assoc, ← zpow_natCast, ← zpow_add₀ (by norm_num)]
    congr 2
    omega

theorem abs_le_of_multiple (h : Rounds x r) {m : Nat} (hm : |x| ≤ m * 10 ^ lastPlace x) :
    |r.toRat| ≤ m * 10 ^ lastPlace x := by
  have hgrid : (0 : ℚ) < 10 ^ lastPlace x := zpow_pos (by norm_num) _
  have hdistance := abs_sub_abs_le_abs_sub r.toRat x
  obtain ⟨n, hn, hnear, -⟩ := h
  rw [abs_sub_comm] at hdistance
  rw [hn, abs_mul, abs_of_pos hgrid] at hdistance ⊢
  rw [hn] at hnear
  have hless : |(n : ℚ)| < m + 1 := by
    refine lt_of_mul_lt_mul_right ?_ hgrid.le
    linarith
  have hless : |n| < m + 1 := by exact_mod_cast hless
  have hle : |(n : ℚ)| ≤ m := by exact_mod_cast Int.lt_add_one_iff.1 hless
  gcongr

theorem le_abs_of_multiple (h : Rounds x r) {m : Nat} (hm : m * 10 ^ lastPlace x ≤ |x|) :
    m * 10 ^ lastPlace x ≤ |r.toRat| := by
  have hgrid : (0 : ℚ) < 10 ^ lastPlace x := zpow_pos (by norm_num) _
  have hdistance := abs_sub_abs_le_abs_sub x r.toRat
  obtain ⟨n, hn, hnear, -⟩ := h
  rw [hn] at hnear
  rw [hn, abs_mul, abs_of_pos hgrid] at hdistance ⊢
  have hless : (m : ℚ) < |(n : ℚ)| + 1 := by
    refine lt_of_mul_lt_mul_right ?_ hgrid.le
    linarith
  have hless : (m : Int) < |n| + 1 := by exact_mod_cast hless
  have hle : (m : ℚ) ≤ |(n : ℚ)| := by exact_mod_cast Int.lt_add_one_iff.1 hless
  gcongr

theorem pow_le_abs (h : Rounds x r) {j : Int} (hj : leastQuantum ≤ j) (hx : 10 ^ j ≤ |x|) :
    10 ^ j ≤ |r.toRat| := by
  have hne : x ≠ 0 := by
    rintro rfl
    rw [abs_zero] at hx
    exact absurd hx (not_le.2 (zpow_pos (by norm_num) _))
  have hlog := (pow_le_abs_iff hne _).1 hx
  have hlead := (pow_le_abs_iff hne _).2 le_rfl
  -- the leading power of ten is a multiple of the last place
  have hlast : Int.log 10 |x| = ((Int.log 10 |x| - lastPlace x).toNat : Int) + lastPlace x := by
    simp only [lastPlace, precision] at *
    omega
  refine (zpow_le_zpow_right₀ (by norm_num) hlog).trans ?_
  rw [hlast, zpow_add₀ (by norm_num), zpow_natCast] at hlead ⊢
  have hmultiple := h.le_abs_of_multiple (m := 10 ^ (Int.log 10 |x| - lastPlace x).toNat) (by exact_mod_cast hlead)
  exact_mod_cast hmultiple

theorem abs_le_pow (h : Rounds x r) {j : Int} (hj : leastQuantum ≤ j) (hx : |x| < 10 ^ j) :
    |r.toRat| ≤ 10 ^ j := by
  by_cases hne : x = 0
  · rw [h.eq_of_multiple (m := 0) (by simp [hne])]
    exact hx.le
  · have hlog : ¬ j ≤ Int.log 10 |x| := by
      rw [← pow_le_abs_iff hne]
      exact not_le.2 hx
    have hlast : j = ((j - lastPlace x).toNat : Int) + lastPlace x := by
      simp only [lastPlace, precision] at *
      omega
    rw [hlast, zpow_add₀ (by norm_num), zpow_natCast] at hx ⊢
    have hmultiple := h.abs_le_of_multiple (m := 10 ^ (j - lastPlace x).toNat) (by exact_mod_cast hx.le)
    exact_mod_cast hmultiple

/-- Two roundings of one number are equal: either is half a unit away at most, and of two neighbours half a
unit away only one is even. -/
theorem unique (h : Rounds x r) (h' : Rounds x s) : r.toRat = s.toRat := by
  have hgrid : (0 : ℚ) < 10 ^ lastPlace x := zpow_pos (by norm_num) _
  obtain ⟨n, hn, hnear, heven⟩ := h
  obtain ⟨m, hm, hnear', heven'⟩ := h'
  rw [hn] at hnear heven ⊢
  rw [hm] at hnear' heven' ⊢
  generalize (10 : ℚ) ^ lastPlace x = unit at *
  have hlt : ∀ p q : Int, |x - p * unit| ≤ unit / 2 → (|x - p * unit| = unit / 2 → Even p) →
      |x - q * unit| ≤ unit / 2 → (|x - q * unit| = unit / 2 → Even q) → ¬ p < q := by
    intro p q hp hpeven hq hqeven hpq
    have hstep : (p + 1 : ℚ) ≤ q := by exact_mod_cast hpq
    have hscaled := mul_le_mul_of_nonneg_right hstep hgrid.le
    have hleft := (abs_le.1 hp).2
    have hright := (abs_le.1 hq).1
    have hp' := hpeven (by rw [abs_of_nonneg] <;> linarith)
    have hq' := hqeven (by rw [abs_of_nonpos] <;> linarith)
    have hneighbour : (q : ℚ) ≤ p + 1 := by
      by_contra hfar
      have := mul_lt_mul_of_pos_right (not_le.1 hfar) hgrid
      linarith
    have hneighbour : q ≤ p + 1 := by exact_mod_cast hneighbour
    rw [Int.even_iff] at hp' hq'
    omega
  have hle := not_lt.1 (hlt n m hnear heven hnear' heven')
  have hge := not_lt.1 (hlt m n hnear' heven' hnear heven)
  rw [le_antisymm hge hle]

/-- The error is at most half a unit in the 28th digit. -/
theorem error_le (h : Rounds x r) (hx : 10 ^ (leastQuantum + precision - 1) ≤ |x|) :
    |x - r.toRat| ≤ |x| / (2 * 10 ^ 27) := by
  have hne : x ≠ 0 := by
    rintro rfl
    rw [abs_zero] at hx
    exact absurd hx (not_le.2 (zpow_pos (by norm_num) _))
  have hlog := (pow_le_abs_iff hne _).1 hx
  have hlast : lastPlace x = Int.log 10 |x| - 27 := by
    simp only [lastPlace, precision] at *
    omega
  have hlead := (pow_le_abs_iff hne _).2 le_rfl
  refine h.near.trans ?_
  rw [hlast, zpow_sub₀ (by norm_num), div_div, mul_comm, zpow_ofNat]
  gcongr

end Rounds

/-- A number lies between two neighbouring multiples of five units of `10 ^ f`. -/
def InCell (f k : Int) (x : ℚ) : Prop := 5 * k * 10 ^ f < x ∧ x < 5 * (k + 1) * 10 ^ f

/-- Half of a higher power of ten is a multiple of five units. -/
theorem half_pow_eq {f j : Int} (h : f < j) :
    (10 : ℚ) ^ j / 2 = 5 * (10 ^ (j - f - 1).toNat : Int) * 10 ^ f := by
  have hsplit : j = 1 + ((j - f - 1).toNat : Int) + f := by omega
  conv_lhs => rw [hsplit, zpow_add₀ (by norm_num), zpow_add₀ (by norm_num), zpow_one, zpow_natCast]
  push_cast
  ring

namespace InCell

variable {f k : Int} {x y : ℚ}

theorem neg (h : InCell f k x) : InCell f (-k - 1) (-x) := by
  obtain ⟨hlower, hupper⟩ := h
  have hleft : (5 * ((-k - 1 : Int) : ℚ) * 10 ^ f) = -(5 * (k + 1) * 10 ^ f) := by
    push_cast
    ring
  have hright : (5 * ((-k - 1 : Int) + 1 : ℚ) * 10 ^ f) = -(5 * k * 10 ^ f) := by
    push_cast
    ring
  rw [InCell, hleft, hright]
  exact ⟨neg_lt_neg hupper, neg_lt_neg hlower⟩

/-- A multiple of five units lies on one side of the whole cell. -/
theorem lt_iff (h : InCell f k x) (m : Int) : 5 * m * 10 ^ f < x ↔ m ≤ k := by
  have hunit : (0 : ℚ) < 10 ^ f := zpow_pos (by norm_num) _
  constructor
  · intro hlt
    have hlt := hlt.trans h.2
    have hcast : (m : ℚ) < k + 1 := by
      have := lt_of_mul_lt_mul_right hlt hunit.le
      linarith
    have hcast : m < k + 1 := by exact_mod_cast hcast
    omega
  · intro hle
    refine lt_of_le_of_lt ?_ h.1
    have hcast : (m : ℚ) ≤ k := by exact_mod_cast hle
    gcongr

theorem lt_iff' (h : InCell f k x) (m : Int) : x < 5 * m * 10 ^ f ↔ k < m := by
  have hunit : (0 : ℚ) < 10 ^ f := zpow_pos (by norm_num) _
  constructor
  · intro hlt
    by_contra hle
    exact absurd hlt (not_lt.2 ((h.lt_iff m).2 (not_lt.1 hle)).le)
  · intro hlt
    refine lt_of_lt_of_le h.2 ?_
    have hcast : (k + 1 : ℚ) ≤ m := by exact_mod_cast hlt
    gcongr

theorem ne_zero (h : InCell f k x) : x ≠ 0 := by
  rintro rfl
  have hlower : ¬ k < 0 := by
    rw [← h.lt_iff' 0]
    simp
  have hupper : ¬ 0 ≤ k := by
    rw [← h.lt_iff 0]
    simp
  omega

/-- A power of ten above the unit is a multiple of five units. -/
theorem pow_le_abs_congr (hx : InCell f k x) (hy : InCell f k y) {j : Int} (hj : f < j) :
    10 ^ j ≤ |x| ↔ 10 ^ j ≤ |y| := by
  have hpow : (10 : ℚ) ^ j = 5 * (2 * 10 ^ (j - f - 1).toNat : Int) * 10 ^ f := by
    rw [← mul_div_cancel₀ ((10 : ℚ) ^ j) (two_ne_zero), half_pow_eq hj]
    push_cast
    ring
  have hnegpow : -(10 : ℚ) ^ j = 5 * (-(2 * 10 ^ (j - f - 1).toNat) : Int) * 10 ^ f := by
    rw [hpow]
    push_cast
    ring
  have hside : ∀ z, InCell f k z → (10 ^ j ≤ |z| ↔
      2 * 10 ^ (j - f - 1).toNat ≤ k ∨ k < -(2 * 10 ^ (j - f - 1).toNat)) := by
    intro z hz
    rw [le_abs, le_neg]
    refine or_congr ?_ ?_
    · rw [← not_lt, hpow, hz.lt_iff', not_lt]
    · rw [← not_lt, hnegpow, hz.lt_iff, not_le]
  rw [hside x hx, hside y hy]

theorem lastPlace_congr (hx : InCell f k x) (hy : InCell f k y) (hf : f < lastPlace y) :
    lastPlace x = lastPlace y := by
  have hcongr : ∀ j, f < j → (j ≤ Int.log 10 |x| ↔ j ≤ Int.log 10 |y|) := by
    intro j hj
    rw [← pow_le_abs_iff hx.ne_zero, ← pow_le_abs_iff hy.ne_zero]
    exact hx.pow_le_abs_congr hy hj
  have hleft := hcongr (Int.log 10 |x|)
  have hright := hcongr (Int.log 10 |y|)
  simp only [lastPlace, precision] at *
  omega

end InCell

/-- Two numbers are equal, or lie in one cell below the last place of the first. -/
def RoundsLike (y x : ℚ) : Prop := y = x ∨ ∃ f k, InCell f k y ∧ InCell f k x ∧ f < lastPlace y

theorem Rounds.of_like {x y : ℚ} {r : Decimal} (h : Rounds y r) (hlike : RoundsLike y x) : Rounds x r := by
  obtain rfl | ⟨f, k, hy, hx, hf⟩ := hlike
  · exact h
  · have hlast := hx.lastPlace_congr hy hf
    obtain ⟨n, hn, hnear, -⟩ := h
    -- the midpoints around the result are multiples of five units, and the cell lies between them
    have hmid : ∀ m : Int, m * (10 ^ lastPlace y / 2 : ℚ) =
        5 * (m * 10 ^ (lastPlace y - f - 1).toNat : Int) * 10 ^ f := by
      intro m
      rw [half_pow_eq hf]
      push_cast
      ring
    obtain ⟨hlower, hupper⟩ := abs_le.1 hnear
    have hlower : ((2 * n - 1 : Int) : ℚ) * (10 ^ lastPlace y / 2) ≤ y := by
      push_cast
      linarith
    have hupper : y ≤ ((2 * n + 1 : Int) : ℚ) * (10 ^ lastPlace y / 2) := by
      push_cast
      linarith
    rw [hmid, ← not_lt, hy.lt_iff', not_lt, ← hx.lt_iff, ← hmid] at hlower
    rw [hmid, ← not_lt, hy.lt_iff, not_le, ← hx.lt_iff', ← hmid] at hupper
    push_cast at hlower hupper
    have hclose : |x - r.toRat| < 10 ^ lastPlace y / 2 := by
      rw [hn, abs_lt]
      constructor <;> linarith
    rw [Rounds, hlast]
    exact ⟨n, hn, hclose.le, fun hmid => absurd hmid hclose.ne⟩

theorem RoundsLike.abs_lt {x y : ℚ} (h : RoundsLike y x) (hx : |x| < 10 ^ greatestExponent) :
    |y| < 10 ^ greatestExponent := by
  obtain rfl | ⟨f, k, hy, hx', hf⟩ := h
  · exact hx
  · by_contra hlarge
    have hlarge := (pow_le_abs_iff hy.ne_zero _).1 (not_lt.1 hlarge)
    have hmax : max greatestExponent (f + 1) ≤ Int.log 10 |y| := by
      simp only [lastPlace, leastQuantum, greatestExponent, precision] at *
      omega
    rw [← pow_le_abs_iff hy.ne_zero, hy.pow_le_abs_congr hx' (by omega)] at hmax
    have hpow : (10 : ℚ) ^ greatestExponent ≤ 10 ^ max greatestExponent (f + 1) :=
      zpow_le_zpow_right₀ (by norm_num) (le_max_left _ _)
    linarith

end Decimal

end NetWorth
