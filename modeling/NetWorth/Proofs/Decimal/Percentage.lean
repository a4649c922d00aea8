import NetWorth.Proofs.Decimal.CanonicalForm
import NetWorth.Proofs.Decimal.RoundedArithmetic
import NetWorth.Proofs.Decimal.Rounding

/-! # Relative changes in percent

A relative change is rounded twice: its quotient to 28 digits, and a hundred times that to hundredths. Of
numbers with at most 22 digits the second rounding never notices the first: a quotient that is no midpoint
between hundredths of a percent is further from each of them than the first rounding moves it. -/
namespace NetWorth

namespace Decimal

/-- A number rounded half away from zero to two places, with both of them written. A zero has no sign. -/
def percentText (x : ℚ) : String :=
  let hundredths := nearestUnits x 2
  String.ofList (signChars (decide (x < 0 ∧ hundredths ≠ 0)) ++ (Text.numeral (hundredths / 100) ++
    ['.', (hundredths / 10 % 10).digitChar, (hundredths % 10).digitChar]))

theorem positionalDigits_hundredths (negative : Bool) (n : Nat) :
    positionalDigits ⟨negative, n, -2⟩ =
      Text.numeral (n / 100) ++ [(n / 10 % 10).digitChar, (n % 10).digitChar] := by
  have hplaces : places ⟨negative, n, -2⟩ = 2 := rfl
  have hexponent : (-2 : Int).toNat = 0 := rfl
  simp only [positionalDigits, hplaces, hexponent, List.replicate_zero, List.append_nil]
  split
  · rename_i hzero
    subst hzero
    rfl
  · rcases lt_or_ge n 10 with hone | hten
    · rw [Text.numeral_of_lt hone, Nat.div_eq_of_lt (by omega), Nat.div_eq_of_lt hone, Nat.mod_eq_of_lt hone]
      rfl
    · rcases lt_or_ge n 100 with htwo | hhundred
      · rw [Text.numeral_of_le hten, Text.numeral_of_lt (by omega : n / 10 < 10), Nat.div_eq_of_lt htwo,
          Nat.mod_eq_of_lt (by omega : n / 10 < 10)]
        rfl
      · have hwhole := List.length_pos_iff.2 (Text.numeral_ne_nil (n / 100))
        have hhundreds : n / 10 / 10 = n / 100 := Nat.div_div_eq_div_mul n 10 10
        rw [Text.numeral_of_le hten, Text.numeral_of_le (by omega : 10 ≤ n / 10), hhundreds, Text.filled,
          Nat.sub_eq_zero_of_le]
        · simp
        · simp only [List.length_append, List.length_singleton]
          omega

theorem fixedChars_hundredths (negative : Bool) (n : Nat) : fixedChars ⟨negative, n, -2⟩ =
    signChars negative ++ (Text.numeral (n / 100) ++ ['.', (n / 10 % 10).digitChar, (n % 10).digitChar]) := by
  have hplaces : places ⟨negative, n, -2⟩ = 2 := rfl
  have hlength : (Text.numeral (n / 100) ++ [(n / 10 % 10).digitChar, (n % 10).digitChar]).length - 2 =
      (Text.numeral (n / 100)).length := by simp
  rw [fixedChars, wholeDigits, fractionDigits, hplaces, positionalDigits_hundredths, hlength, List.take_left',
    List.drop_left']
  · rfl
  · rfl
  · rfl

theorem percentText_ne (x : ℚ) : percentText x ≠ "-0.00" := by
  intro h
  have hchars := congrArg String.toList h
  rw [percentText] at hchars
  simp only [String.toList_ofList] at hchars
  generalize nearestUnits x 2 = n at hchars
  by_cases hsign : x < 0 ∧ n ≠ 0
  · have hdigits : Text.numeral (n / 100) ++ ['.', (n / 10 % 10).digitChar, (n % 10).digitChar] =
        ['0'] ++ ['.', '0', '0'] := by
      simpa [signChars, hsign] using hchars
    obtain ⟨hwhole, hfraction⟩ := List.append_inj' hdigits rfl
    have hvalue := digitsValue_positionalDigits ⟨false, n, -2⟩
    rw [positionalDigits_hundredths, hwhole, List.tail_eq_of_cons_eq hfraction] at hvalue
    have hzero : n * 10 ^ 0 = 0 := hvalue.symm
    exact hsign.2 ((Nat.mul_one n).symm.trans hzero)
  · have hdigits : Text.numeral (n / 100) ++ ['.', (n / 10 % 10).digitChar, (n % 10).digitChar] =
        '-' :: ['0', '.', '0', '0'] := by
      simpa [signChars, hsign] using hchars
    have hhead : '-' ∈ (Text.numeral (n / 100)).head? := by
      rw [← List.head?_append_of_ne_nil _ (Text.numeral_ne_nil _), hdigits]
      rfl
    exact (Text.plainDigit_of_mem_numeral _ (List.mem_of_mem_head? hhead)).not_mark.2.2.1 rfl

theorem map_round_two (d : Decimal) :
    (d.round 2).map (fun r => (Number.finite r).unsignedZero.fixed) =
      if 10 ^ precision ≤ nearestUnits d.toRat 2 then .error .invalidOperation
      else .ok (percentText d.toRat) := by
  rw [round_eq (by decide), percentText]
  generalize hcount : nearestUnits d.toRat 2 = n
  split
  · rfl
  · have hunsigned : (Number.finite ⟨d.negative, n, -2⟩).unsignedZero =
        .finite ⟨d.negative && decide (n ≠ 0), n, -2⟩ := by
      by_cases hzero : n = 0 <;> simp [Number.unsignedZero, isZero, hzero]
    have hsign : (d.negative && decide (n ≠ 0)) = decide (d.toRat < 0 ∧ n ≠ 0) := by
      by_cases hd : d.coefficient = 0
      · have hzero : n = 0 := by
          rw [← hcount, toRat_of_coefficient_zero hd]
          norm_num [nearestUnits]
        simp [hzero]
      · rw [Bool.eq_iff_iff, Bool.and_eq_true, negative_iff hd, decide_eq_true_iff, decide_eq_true_iff]
    show Except.ok (Number.finite ⟨d.negative, n, -2⟩).unsignedZero.fixed = _
    rw [hunsigned, ← hsign]
    exact congrArg (fun chars => Except.ok (String.ofList chars)) (fixedChars_hundredths _ n)

/-- A number that is nearer to another than to any whole number has the same whole part. -/
theorem floor_eq_of_near {x y : ℚ} (h : ∀ n : Int, |x - y| < |x - n|) : ⌊x⌋ = ⌊y⌋ := by
  have hfloor := Int.floor_le x
  have hceil := Int.lt_floor_add_one x
  have hbelow := h ⌊x⌋
  have habove := h (⌊x⌋ + 1)
  rw [abs_of_nonneg (sub_nonneg.2 hfloor), abs_lt] at hbelow
  rw [Int.cast_add, Int.cast_one, abs_of_neg (sub_neg.2 hceil), abs_lt] at habove
  exact (Int.floor_eq_iff.2 ⟨by linarith, by linarith⟩).symm

theorem nearestUnits_percent (x : ℚ) : nearestUnits (100 * x) 2 = ⌊10 ^ 4 * |x| + 1 / 2⌋.toNat := by
  rw [nearestUnits, Int.floor_toNat, abs_mul, abs_of_pos (by norm_num : (0 : ℚ) < 100)]
  congr 1
  ring

theorem hasPlaces_of_mid {x : ℚ} {n : Int} (h : 10 ^ 4 * |x| + 1 / 2 = n) : HasPlaces 5 x := by
  rcases abs_choice x with hx | hx
  · refine ⟨10 * n - 5, ?_⟩
    rw [hx] at h
    push_cast
    linarith
  · refine ⟨5 - 10 * n, ?_⟩
    rw [hx] at h
    push_cast
    linarith

/-- A quotient that is no such midpoint is as far from each of them as its denominator allows. -/
theorem apart_from_mid {p q : Int} (hq : q ≠ 0) (hplaces : ¬ HasPlaces 5 (p / q : ℚ)) (n : Int) :
    1 ≤ |10 ^ 4 * |(p / q : ℚ)| + 1 / 2 - n| * (2 * |(q : ℚ)|) := by
  have hqabs : |(q : ℚ)| ≠ 0 := abs_ne_zero.2 (by exact_mod_cast hq)
  have hcount : (10 ^ 4 * |(p / q : ℚ)| + 1 / 2 - n) * (2 * |(q : ℚ)|) =
      (2 * 10 ^ 4 * |p| + |q| - 2 * n * |q| : Int) := by
    rw [abs_div]
    push_cast
    field_simp
    ring
  have hnonzero : 2 * 10 ^ 4 * |p| + |q| - 2 * n * |q| ≠ 0 := by
    intro h0
    rw [h0, Int.cast_zero, mul_eq_zero] at hcount
    exact hplaces (hasPlaces_of_mid (sub_eq_zero.1 (hcount.resolve_right (by simpa using hq))))
  rw [← abs_of_nonneg (by positivity : 0 ≤ 2 * |(q : ℚ)|), ← abs_mul, hcount]
  exact_mod_cast Int.one_le_abs hnonzero

theorem pow_le_abs_quotient {p q : Int} (hp : p ≠ 0) (hq : q ≠ 0) (hsmall : |q| < 10 ^ 22) :
    10 ^ (leastQuantum + precision - 1) ≤ |(p / q : ℚ)| := by
  have hp : (1 : ℚ) ≤ |(p : ℚ)| := by exact_mod_cast Int.one_le_abs hp
  have hq : (0 : ℚ) < |(q : ℚ)| := by exact_mod_cast Int.one_le_abs hq
  have hsmall : |(q : ℚ)| < 10 ^ 22 := by exact_mod_cast hsmall
  refine le_trans (zpow_le_zpow_right₀ (by norm_num) (by decide : _ ≤ (-22 : Int))) ?_
  rw [abs_div, le_div_iff₀ hq, zpow_neg, inv_mul_le_iff₀ (by positivity)]
  exact hsmall.le.trans (le_mul_of_one_le_right (by positivity) hp)

/-- The quotient of whole numbers below `10 ^ 22` is rounded to hundredths of a percent as if it had not been
rounded to 28 digits before. -/
theorem Rounds.percent_eq {p q : Int} {r : Decimal} (h : Rounds (p / q) r) (hq : q ≠ 0)
    (hp : |p| < 2 * 10 ^ 22) (hsmall : |q| < 10 ^ 22) :
    nearestUnits (100 * r.toRat) 2 = nearestUnits (100 * (p / q)) 2 := by
  have hqpos : (1 : ℚ) ≤ |(q : ℚ)| := by exact_mod_cast Int.one_le_abs hq
  have hp : |(p : ℚ)| < 2 * 10 ^ 22 := by exact_mod_cast hp
  have habs : |(p / q : ℚ)| * |(q : ℚ)| = |(p : ℚ)| := by
    rw [abs_div, div_mul_cancel₀ _ (by linarith)]
  by_cases hplaces : HasPlaces 5 (p / q : ℚ)
  · have hsize : |(p / q : ℚ)| ≤ |(p : ℚ)| := by
      rw [← habs]
      exact le_mul_of_one_le_right (abs_nonneg _) hqpos
    have hpow : (10 : ℚ) ^ (-((5 : Nat) : Int) + precision) = 10 ^ 23 := by norm_num [precision]
    rw [h.eq_of_hasPlaces hplaces (by rw [hpow]; linarith) (by decide)]
  · have hp0 : p ≠ 0 := by
      rintro rfl
      exact hplaces (by simpa using HasPlaces.zero)
    have hmoved : |10 ^ 4 * |(p / q : ℚ)| + 1 / 2 - (10 ^ 4 * |r.toRat| + 1 / 2)| ≤
        10 ^ 4 * (|(p / q : ℚ)| / (2 * 10 ^ 27)) := by
      rw [add_sub_add_right_eq_sub, ← mul_sub, abs_mul, abs_of_pos (by norm_num : (0 : ℚ) < 10 ^ 4)]
      gcongr
      exact (abs_abs_sub_abs_le _ _).trans (h.error_le (pow_le_abs_quotient hp0 hq hsmall))
    have hless : 10 ^ 4 * (|(p / q : ℚ)| / (2 * 10 ^ 27)) * (2 * |(q : ℚ)|) < 1 := by
      calc 10 ^ 4 * (|(p / q : ℚ)| / (2 * 10 ^ 27)) * (2 * |(q : ℚ)|) = |(p : ℚ)| / 10 ^ 23 := by
            rw [← habs]
            ring
        _ < 1 := by
            rw [div_lt_one (by norm_num)]
            linarith
    rw [nearestUnits_percent, nearestUnits_percent]
    congr 1
    refine (floor_eq_of_near fun n => hmoved.trans_lt ?_).symm
    have hapart := apart_from_mid hq hplaces n
    exact lt_of_mul_lt_mul_right (hless.trans_le hapart) (by positivity)

theorem long_percent_iff (x : ℚ) : 10 ^ precision ≤ nearestUnits (100 * x) 2 ↔
    10 ^ 28 - 1 / 2 ≤ 10 ^ 4 * |x| := by
  rw [nearestUnits, Nat.le_floor_iff (by positivity), abs_mul, abs_of_pos (by norm_num : (0 : ℚ) < 100), precision]
  push_cast
  constructor <;> intro h <;> linarith

/-- The whole number nearest to another, midway the even one, reaches an even number if the other is at least
midway to it. -/
theorem reaches_even_iff {x : ℚ} {n m : Int} (hnear : |x - n| ≤ 1 / 2) (heven : |x - n| = 1 / 2 → Even n)
    (hm : Even m) : (m - 1 / 2 : ℚ) ≤ n ↔ m - 1 / 2 ≤ x := by
  obtain ⟨hlower, hupper⟩ := abs_le.1 hnear
  constructor
  · intro hn
    have hreaches : m - 1 < n := by
      have hcast : ((m - 1 : Int) : ℚ) < n := by
        push_cast
        linarith
      exact_mod_cast hcast
    have hreaches : (m : ℚ) ≤ n := by exact_mod_cast Int.le_of_sub_one_lt hreaches
    linarith
  · intro hx
    by_contra hn
    -- then it is the odd number below
    have hbelow : n < m := by
      have hcast : (n : ℚ) < m := by linarith
      exact_mod_cast hcast
    have habove : m - 1 ≤ n := by
      have hcast : ((m - 1 : Int) : ℚ) ≤ n := by
        push_cast
        linarith
      exact_mod_cast hcast
    obtain rfl : n = m - 1 := by omega
    push_cast at hnear heven
    have hmid := heven (le_antisymm hnear (le_abs.2 (.inl (by linarith))))
    rw [Int.even_iff] at hmid hm
    omega

/-- Nor does the first rounding decide whether the result is too long. -/
theorem Rounds.long_percent_iff {x : ℚ} {r : Decimal} (h : Rounds x r) :
    10 ^ precision ≤ nearestUnits (100 * r.toRat) 2 ↔ 10 ^ precision ≤ nearestUnits (100 * x) 2 := by
  rw [Decimal.long_percent_iff, Decimal.long_percent_iff]
  by_cases hlarge : 10 ^ (24 : Int) ≤ |x|
  · have hr := h.pow_le_abs (by decide) hlarge
    norm_num at hr hlarge ⊢
    constructor <;> intro _ <;> linarith
  · by_cases hsmall : |x| < 10 ^ (23 : Int)
    · have hr := h.abs_le_pow (by decide) hsmall
      norm_num at hr hsmall ⊢
      constructor <;> intro _ <;> linarith
    · have hne : x ≠ 0 := by
        rintro rfl
        exact hsmall (by norm_num)
      have hlast : lastPlace x = -4 := by
        rw [pow_le_abs_iff hne] at hlarge
        rw [not_lt, pow_le_abs_iff hne] at hsmall
        simp only [lastPlace, precision, leastQuantum]
        omega
      obtain ⟨n, hn, hnear, heven⟩ := h
      have hunits : 10 ^ 4 * |r.toRat| = (|n| : Int) := by
        rw [hn, hlast, abs_mul, Int.cast_abs]
        norm_num
        ring
      have hsizes : |10 ^ 4 * |x| - (|n| : Int)| ≤ 10 ^ 4 * |x - r.toRat| := by
        rw [← hunits, ← mul_sub, abs_mul, abs_of_pos (by norm_num : (0 : ℚ) < 10 ^ 4)]
        exact mul_le_mul_of_nonneg_left (abs_abs_sub_abs_le x r.toRat) (by norm_num)
      have hhalf : (10 : ℚ) ^ (-4 : Int) / 2 = 1 / 20000 := by norm_num
      rw [hlast, hhalf] at hnear heven
      have hnearUnit : |10 ^ 4 * |x| - (|n| : Int)| ≤ 1 / 2 := hsizes.trans (by linarith)
      have hevenUnit : |10 ^ 4 * |x| - (|n| : Int)| = 1 / 2 → Even |n| := by
        intro hmid
        rw [hmid] at hsizes
        exact even_abs.2 (heven (le_antisymm hnear (by linarith)))
      have hreaches := reaches_even_iff (m := 10 ^ 28) hnearUnit hevenUnit (by decide)
      rw [hunits]
      exact_mod_cast hreaches

theorem mul_hundred {d : Decimal} (hd : d.Held) (hsize : |d.toRat * 100| < 10 ^ greatestExponent) :
    ∃ r, d.mul ⟨false, 100, 0⟩ = .ok r ∧ r.toRat = 100 * d.toRat := by
  have hundred : toRat ⟨false, 100, 0⟩ = 100 := by norm_num [toRat, signed]
  have hscaled : toRat ⟨d.negative, d.coefficient, d.exponent + 2⟩ = d.toRat * 100 := by
    simp only [toRat, signed, zpow_add₀ (by norm_num : (10 : ℚ) ≠ 0)]
    ring
  obtain ⟨r, hr, hrounds⟩ := mul_rounds (a := d) (b := ⟨false, 100, 0⟩) (hundred ▸ hsize)
  rw [hundred, ← hscaled] at hrounds
  have hleast := hd.least
  refine ⟨r, hr, ?_⟩
  rw [hrounds.eq_of_held hd.digits (by simp only; omega), hscaled, mul_comm]

theorem percentText_congr {x y : ℚ} (hunits : nearestUnits x 2 = nearestUnits y 2) (hsign : x < 0 ↔ y < 0) :
    percentText x = percentText y := by
  simp only [percentText, hunits, hsign]

theorem Rounds.neg_iff {x : ℚ} {r : Decimal} (h : Rounds x r) (hx : 10 ^ (leastQuantum + precision - 1) ≤ |x|) :
    r.toRat < 0 ↔ x < 0 := by
  have hpos : 0 < |x| := lt_of_lt_of_le (zpow_pos (by norm_num) _) hx
  have hless : |x| / (2 * 10 ^ 27) < |x| := div_lt_self hpos (by norm_num)
  obtain ⟨hlower, hupper⟩ := abs_lt.1 ((h.error_le hx).trans_lt hless)
  rcases lt_or_ge x 0 with hneg | hnonneg
  · rw [abs_of_neg hneg] at hlower hupper
    exact ⟨fun _ => hneg, fun _ => by linarith⟩
  · rw [abs_of_nonneg hnonneg] at hlower hupper
    exact ⟨fun hr => by linarith, fun hx => by linarith⟩

variable {initial final change ratio percent : Decimal}

theorem percentageChange_of_steps (hinitial : initial.coefficient ≠ 0) (hchange : final.sub initial = .ok change)
    (hratio : change.div initial = .ok ratio) (hpercent : ratio.mul ⟨false, 100, 0⟩ = .ok percent) :
    Number.percentageChange (.finite initial) (.finite final) =
      (percent.round 2).map fun rounded => (Number.finite rounded).unsignedZero.fixed := by
  have hsub : (Number.finite final).sub (.finite initial) = .ok (.finite change) := by
    rw [Number.sub_finite, hchange]
    rfl
  have hdiv : (Number.finite change).div (.finite initial) = .ok (.finite ratio) := by
    rw [Number.div_finite, hratio]
    rfl
  have hmul : (Number.finite ratio).mul (.finite ⟨false, 100, 0⟩) = .ok (.finite percent) := by
    rw [Number.mul_finite, hpercent]
    rfl
  have hsignalling : (Number.finite initial).isSignalling = false := rfl
  have hnonzero : (Number.finite initial).isZero = false := by simpa [Number.isZero, isZero] using hinitial
  simp only [Number.percentageChange, hsignalling, hnonzero, Bool.false_eq_true, if_false, bind, Except.bind,
    hsub, hdiv, hmul, Number.round_finite]
  cases percent.round 2 <;> rfl

theorem percentageChange_eq (hinitial : initial.toRat ≠ 0) (hchange : final.sub initial = .ok change)
    (hsize : |change.toRat / initial.toRat| < 10 ^ (greatestExponent - 3)) :
    ∃ ratio, Rounds (change.toRat / initial.toRat) ratio ∧
      Number.percentageChange (.finite initial) (.finite final) =
        if 10 ^ precision ≤ nearestUnits (100 * ratio.toRat) 2 then .error .invalidOperation
        else .ok (percentText (100 * ratio.toRat)) := by
  have hcoefficient : initial.coefficient ≠ 0 := fun h0 => hinitial (toRat_of_coefficient_zero h0)
  have hsizeRatio : |change.toRat / initial.toRat| < 10 ^ greatestExponent :=
    hsize.trans_le (zpow_le_zpow_right₀ (by norm_num) (by decide))
  obtain ⟨ratio, hratio, hrounds⟩ := div_rounds hinitial hsizeRatio
  have hheld : ratio.Held := by
    rw [div, if_neg hcoefficient] at hratio
    exact finish_held hratio
  have hhundred : |ratio.toRat * 100| < 10 ^ greatestExponent := by
    have hless := hrounds.abs_le_pow (by decide) hsize
    have hpow : (10 : ℚ) ^ greatestExponent = 10 ^ (greatestExponent - 3) * 1000 := by
      rw [← sub_add_cancel greatestExponent 3, zpow_add₀ (by norm_num), add_sub_cancel_right]
      norm_num
    have hpos : (0 : ℚ) < 10 ^ (greatestExponent - 3) := zpow_pos (by norm_num) _
    rw [abs_mul, abs_of_pos (by norm_num : (0 : ℚ) < 100), hpow]
    linarith
  obtain ⟨percent, hpercent, hvalue⟩ := mul_hundred hheld hhundred
  refine ⟨ratio, hrounds, ?_⟩
  rw [percentageChange_of_steps hcoefficient hchange hratio hpercent, map_round_two, hvalue]

/-- Of numbers that are few units of one kind the change in percent is the exact one, rounded once. -/
theorem percentageChange_exact {p q : Int} (hinitial : initial.toRat ≠ 0) (hchange : final.sub initial = .ok change)
    (hratio : change.toRat / initial.toRat = p / q) (hp : |p| < 2 * 10 ^ 22) (hq : |q| < 10 ^ 22) (hq0 : q ≠ 0) :
    Number.percentageChange (.finite initial) (.finite final) =
      .ok (percentText (100 * (change.toRat / initial.toRat))) := by
  have hone : (1 : ℚ) ≤ |(q : ℚ)| := by exact_mod_cast Int.one_le_abs hq0
  have hsize : |(p / q : ℚ)| < 2 * 10 ^ 22 := by
    have hp : |(p : ℚ)| < 2 * 10 ^ 22 := by exact_mod_cast hp
    rw [abs_div]
    exact (div_le_self (abs_nonneg _) hone).trans_lt hp
  have hpow : (2 * 10 ^ 22 : ℚ) ≤ 10 ^ (greatestExponent - 3) :=
    (by norm_num : (2 * 10 ^ 22 : ℚ) ≤ 10 ^ (23 : Int)).trans (zpow_le_zpow_right₀ (by norm_num) (by decide))
  obtain ⟨ratio, hrounds, hpercent⟩ := percentageChange_eq hinitial hchange (hratio ▸ hsize.trans_le hpow)
  rw [hratio] at hrounds ⊢
  have hshort : ¬ 10 ^ precision ≤ nearestUnits (100 * (p / q : ℚ)) 2 := by
    rw [long_percent_iff]
    linarith
  have hunits := hrounds.percent_eq hq0 hp hq
  have hsign : 100 * ratio.toRat < 0 ↔ 100 * (p / q : ℚ) < 0 := by
    rw [Rat.mul_neg_iff_of_pos_left (by norm_num), Rat.mul_neg_iff_of_pos_left (by norm_num)]
    by_cases hp0 : p = 0
    · rw [hrounds.eq_of_multiple (m := 0) (by simp [hp0])]
    · exact hrounds.neg_iff (pow_le_abs_quotient hp0 hq0 hq)
  rw [hpercent, hunits, if_neg hshort, percentText_congr hunits hsign]

end Decimal

end NetWorth
