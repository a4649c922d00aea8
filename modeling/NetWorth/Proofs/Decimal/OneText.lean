import NetWorth.Amount
import NetWorth.Proofs.Decimal.CanonicalText

/-! # One text for each number

Forms of one number differ by zeros at the end of the coefficient. Neither the canonical text nor rounding
to places takes notice of such zeros, so equal numbers are reported by one text. -/
namespace NetWorth

theorem roundQuotient_mul_right (tie : Tie) (n d : Nat) {factor : Nat} (h : 0 < factor) :
    roundQuotient tie (n * factor) (d * factor) = roundQuotient tie n d := by
  have htwice : 2 * (n % d * factor) = 2 * (n % d) * factor := (Nat.mul_assoc ..).symm
  unfold roundQuotient
  simp only [Nat.mul_div_mul_right n d h, Nat.mul_mod_mul_right, htwice, Nat.mul_lt_mul_right h,
    Nat.mul_left_inj h.ne']

theorem roundQuotient_congr (tie : Tie) {n d n' d' : Nat} (hd : 0 < d) (hd' : 0 < d') (h : n * d' = n' * d) :
    roundQuotient tie n d = roundQuotient tie n' d' := by
  rw [← roundQuotient_mul_right tie n d hd', h, Nat.mul_comm d d', roundQuotient_mul_right tie n' d' hd]

namespace Text

theorem digitCount_mul_pow {n : Nat} (h : n ≠ 0) (m : Nat) : digitCount (n * 10 ^ m) = digitCount n + m := by
  induction m with
  | zero => simp
  | succ m ih =>
    have hpos : n * 10 ^ m ≠ 0 := Nat.mul_ne_zero h (by positivity)
    rw [Nat.pow_succ, ← Nat.mul_assoc, digitCount, numeral_mul_ten hpos, List.length_append]
    exact congrArg (· + 1) ih

theorem dropTrailingZeros_concat_zero (digits : List Char) :
    dropTrailingZeros (digits ++ ['0']) = dropTrailingZeros digits := by
  simp [dropTrailingZeros]

end Text

namespace Decimal

/-- The form of a number with more zeros at the end of its coefficient. -/
def finer (d : Decimal) (zeros : Nat) : Decimal :=
  ⟨d.negative, d.coefficient * 10 ^ zeros, d.exponent - zeros⟩

theorem finer_zero (d : Decimal) : d.finer 0 = d := by simp [finer]

theorem finer_succ (d : Decimal) (zeros : Nat) : d.finer (zeros + 1) = (d.finer zeros).finer 1 := by
  simp only [finer, mk.injEq, true_and]
  refine ⟨by rw [Nat.pow_succ]; ring, by push_cast; ring⟩

theorem coefficient_eq_zero_congr {d e : Decimal} (h : d.toRat = e.toRat) :
    d.coefficient = 0 ↔ e.coefficient = 0 := by
  rw [← toRat_eq_zero, ← toRat_eq_zero, h]

/-- Forms of one number other than zero have a finer form in common. -/
theorem exists_finer_eq {d e : Decimal} (h : d.toRat = e.toRat) (hd : d.coefficient ≠ 0) :
    ∃ m n, d.finer m = e.finer n := by
  have he : e.coefficient ≠ 0 := fun h0 => hd ((coefficient_eq_zero_congr h).2 h0)
  refine ⟨(d.exponent - min d.exponent e.exponent).toNat, (e.exponent - min d.exponent e.exponent).toNat, ?_⟩
  have habs : (d.coefficient : ℚ) * 10 ^ d.exponent = e.coefficient * 10 ^ e.exponent := by
    rw [← abs_toRat, ← abs_toRat, h]
  have hnegative : d.negative = e.negative := by
    rw [Bool.eq_iff_iff, negative_iff hd, negative_iff he, h]
  have hleft := min_le_left d.exponent e.exponent
  have hright := min_le_right d.exponent e.exponent
  generalize min d.exponent e.exponent = least at hleft hright ⊢
  have hscaled : ∀ c : Decimal, least ≤ c.exponent →
      ((c.coefficient * 10 ^ (c.exponent - least).toNat : Nat) : ℚ) * 10 ^ least =
        c.coefficient * 10 ^ c.exponent := by
    intro c hc
    push_cast
    rw [mul_assoc, ← zpow_natCast, ← zpow_add₀ (by norm_num)]
    congr 2
    omega
  have hcoefficient : d.coefficient * 10 ^ (d.exponent - least).toNat =
      e.coefficient * 10 ^ (e.exponent - least).toNat := by
    have hq := (hscaled d hleft).trans (habs.trans (hscaled e hright).symm)
    have hunit : (10 : ℚ) ^ least ≠ 0 := zpow_ne_zero _ (by norm_num)
    exact_mod_cast mul_right_cancel₀ hunit hq
  simp only [finer, mk.injEq]
  exact ⟨hnegative, hcoefficient, by omega⟩

theorem magnitude_finer {d : Decimal} (h : d.coefficient ≠ 0) (zeros : Nat) :
    (d.finer zeros).magnitude = d.magnitude := by
  simp only [magnitude, finer, Text.digitCount_mul_pow h]
  push_cast
  ring

theorem canonicalChars_of_zero {d : Decimal} (h : d.coefficient = 0) : d.canonicalChars = ['0'] := by
  have hwhole : d.wholeDigits = ['0'] := by
    simp [wholeDigits, positionalDigits, h, List.take_replicate]
  have hfraction : d.fractionDigits = List.replicate d.places '0' := by
    simp [fractionDigits, positionalDigits, h, List.drop_replicate]
  have hdropped : Text.dropTrailingZeros (List.replicate d.places '0') = [] := by
    simp [Text.dropTrailingZeros]
  simp [canonicalChars, isZero, h, hwhole, hfraction, hdropped, signChars, joinPoint]

/-- One more zero at the end of the coefficient is a digit that the canonical text drops, or one that it
would have filled in. -/
theorem canonicalChars_finer_one {d : Decimal} (h : d.coefficient ≠ 0) :
    (d.finer 1).canonicalChars = d.canonicalChars := by
  have hzero : (d.finer 1).isZero = d.isZero := by simp [isZero, finer]
  have hnumeral : Text.numeral (d.finer 1).coefficient = Text.numeral d.coefficient ++ ['0'] := by
    simpa [finer] using Text.numeral_mul_ten h
  have hne : (d.finer 1).coefficient ≠ 0 := by simpa [finer] using h
  have hexponent : (d.finer 1).exponent = d.exponent - 1 := by simp [finer]
  rcases lt_or_ge 0 d.exponent with hwhole | hfraction
  · have hplaces : (d.finer 1).places = d.places := by
      simp only [places, hexponent]
      omega
    have hcount : d.exponent.toNat = (d.exponent - 1).toNat + 1 := by omega
    have hdigits : (d.finer 1).positionalDigits = d.positionalDigits := by
      rw [positionalDigits, positionalDigits, if_neg hne, if_neg h, hplaces, hnumeral, hexponent, hcount,
        List.replicate_succ, List.append_assoc]
      rfl
    simp only [canonicalChars, wholeDigits, fractionDigits, hdigits, hplaces, hzero]
    rfl
  · have hplaces : (d.finer 1).places = d.places + 1 := by
      simp only [places, hexponent]
      omega
    have hdigits : (d.finer 1).positionalDigits = d.positionalDigits ++ ['0'] := by
      have hnone : d.exponent.toNat = 0 := by omega
      have hnone' : (d.exponent - 1).toNat = 0 := by omega
      rw [positionalDigits, positionalDigits, if_neg hne, if_neg h, hplaces, hnumeral, hexponent, hnone, hnone',
        List.replicate_zero, List.append_nil, List.append_nil, Text.filled, Text.filled, List.length_append,
        List.length_singleton, Nat.add_sub_add_right, List.append_assoc]
    have hlength := d.length_positionalDigits.1
    have hlengths : (d.positionalDigits ++ ['0']).length - (d.places + 1) =
        d.positionalDigits.length - d.places := by
      rw [List.length_append, List.length_singleton, Nat.add_sub_add_right]
    simp only [canonicalChars, wholeDigits, fractionDigits, hdigits, hplaces, hzero, hlengths]
    rw [List.take_append_of_le_length (by omega), List.drop_append_of_le_length (by omega),
      Text.dropTrailingZeros_concat_zero]
    rfl

theorem canonical_finer {d : Decimal} (h : d.coefficient ≠ 0) (zeros : Nat) :
    (d.finer zeros).canonical = d.canonical := by
  induction zeros with
  | zero => rw [finer_zero]
  | succ zeros ih =>
    have hne : (d.finer zeros).coefficient ≠ 0 := Nat.mul_ne_zero h (by positivity)
    rw [finer_succ, ← ih, canonical, canonical, canonicalChars_finer_one hne]

/-- Equal numbers have one canonical text. -/
theorem canonical_eq_of_toRat_eq {d e : Decimal} (h : d.toRat = e.toRat) : d.canonical = e.canonical := by
  by_cases hd : d.coefficient = 0
  · have he := (coefficient_eq_zero_congr h).1 hd
    rw [canonical, canonical, canonicalChars_of_zero hd, canonicalChars_of_zero he]
  · have he : e.coefficient ≠ 0 := fun h0 => hd ((coefficient_eq_zero_congr h).2 h0)
    obtain ⟨m, n, hfiner⟩ := exists_finer_eq h hd
    rw [← canonical_finer hd m, hfiner, canonical_finer he n]

theorem nearestOnGrid_congr (tie : Tie) {d e : Decimal} (h : d.toRat = e.toRat) (grid : Int) :
    nearestOnGrid tie d grid = nearestOnGrid tie e grid := by
  obtain ⟨n, m, hm, hvalue, hrounded⟩ := nearestOnGrid_eq_roundQuotient tie d grid
  obtain ⟨n', m', hm', hvalue', hrounded'⟩ := nearestOnGrid_eq_roundQuotient tie e grid
  have hunit : (10 : ℚ) ^ grid ≠ 0 := zpow_ne_zero _ (by norm_num)
  have hcross : (n * m' : ℚ) = n' * m := by
    refine mul_right_cancel₀ hunit ?_
    calc (n * m' : ℚ) * 10 ^ grid = n * 10 ^ grid * m' := by ring
      _ = |e.toRat| * m' * m := by rw [← hvalue, h]; ring
      _ = n' * m * 10 ^ grid := by rw [hvalue']; ring
  rw [hrounded, hrounded']
  exact roundQuotient_congr tie hm hm' (by exact_mod_cast hcross)

theorem toRat_finer (d : Decimal) (zeros : Nat) : (d.finer zeros).toRat = d.toRat := by
  refine (toRat_coarser (d := d.finer zeros) (e := d.exponent) (m := d.coefficient) ?_ ?_).symm
  · simp [finer]
  · simp [finer]

theorem round_finer {d : Decimal} (h : d.coefficient ≠ 0) (zeros places : Nat) :
    (d.finer zeros).round places = d.round places := by
  have hne : (d.finer zeros).coefficient ≠ 0 := Nat.mul_ne_zero h (by positivity)
  simp only [round, magnitude_finer h, nearestOnGrid_congr _ (d.toRat_finer zeros), ne_eq, hne, h]
  rfl

theorem round_of_zero {d : Decimal} (h : d.coefficient = 0) (places : Nat) : (d.round places).map canonical =
    if greatestPlaces < places then .error .invalidOperation else .ok "0" := by
  have hnearest : ∀ exponent, nearestOnGrid .away d exponent = 0 :=
    fun exponent => by rw [nearestOnGrid, if_pos h]
  unfold round
  split
  · rfl
  · simp only [h, ne_eq, not_true_eq_false, false_and, if_false, hnearest]
    rw [if_neg (by decide)]
    exact congrArg (fun chars => Except.ok (String.ofList chars)) (canonicalChars_of_zero rfl)

/-- Equal numbers are rounded to one text, or refused alike. -/
theorem round_eq_of_toRat_eq {d e : Decimal} (h : d.toRat = e.toRat) (places : Nat) :
    (d.round places).map canonical = (e.round places).map canonical := by
  by_cases hd : d.coefficient = 0
  · rw [round_of_zero hd, round_of_zero ((coefficient_eq_zero_congr h).1 hd)]
  · have he : e.coefficient ≠ 0 := fun h0 => hd ((coefficient_eq_zero_congr h).2 h0)
    obtain ⟨m, n, hfiner⟩ := exists_finer_eq h hd
    rw [← round_finer hd m, hfiner, round_finer he n]

end Decimal

namespace Amount

/-- The text of a number, rounded to places or not, is that of the finite decimal. -/
theorem format_finite (d : Decimal) (n : Int) : format (.finite d) (some n) =
    if n < 0 then .error .negativePlaces else ofSignal ((d.round n.toNat).map Decimal.canonical) := by
  simp only [format, round, Number.round_finite]
  split
  · rfl
  · cases d.round n.toNat <;> rfl

/-- Equal numbers are reported alike, whatever places are asked for. -/
theorem format_eq_of_toRat_eq {d e : Decimal} (h : d.toRat = e.toRat) (places : Option Int) :
    format (.finite d) places = format (.finite e) places := by
  cases places with
  | none => exact congrArg Except.ok (Decimal.canonical_eq_of_toRat_eq h)
  | some n => rw [format_finite, format_finite, Decimal.round_eq_of_toRat_eq h]

theorem format_of_zero {d : Decimal} (h : d.toRat = 0) {places : Option Int} {text : String}
    (htext : format (.finite d) places = .ok text) : text = "0" := by
  have hd := Decimal.toRat_eq_zero.1 h
  cases places with
  | none =>
    obtain rfl := Except.ok.inj htext
    exact congrArg String.ofList (Decimal.canonicalChars_of_zero hd)
  | some n =>
    rw [format_finite, Decimal.round_of_zero hd] at htext
    split at htext
    · contradiction
    · split at htext
      · contradiction
      · exact (Except.ok.inj htext).symm

end Amount

end NetWorth
