import Mathlib.Data.List.Induction
import Mathlib.Data.List.TakeWhile
import Mathlib.Tactic.IntervalCases
import Mathlib.Tactic.Ring
import NetWorth.Text.Blank
import NetWorth.Text.Digit
import NetWorth.Text.Number

/-! # Values of digit runs

A numeral reads back as its number, its length bounds the number from both sides, and zeros at either
end of a run scale its value or leave it alone. -/
namespace NetWorth.Text

theorem takeWhile_append_eq {p : Char → Bool} {inside rest : List Char} (h : ∀ c ∈ inside, p c = true)
    (hrest : ∀ c ∈ rest.head?, p c = false) : (inside ++ rest).takeWhile p = inside := by
  rw [List.takeWhile_append_of_pos h]
  cases rest with
  | nil => simp
  | cons c rest => simp [hrest c rfl]

theorem dropWhile_append_eq {p : Char → Bool} {inside rest : List Char} (h : ∀ c ∈ inside, p c = true)
    (hrest : ∀ c ∈ rest.head?, p c = false) : (inside ++ rest).dropWhile p = rest := by
  rw [List.dropWhile_append_of_pos h]
  cases rest with
  | nil => rfl
  | cons c rest => simp [hrest c rfl]

theorem digitValue?_digitChar {n : Nat} (h : n < 10) : digitValue? n.digitChar = some n := by
  interval_cases n <;> rfl

theorem digitValueFrom_lt {n v : Nat} {zeros : List Nat} (h : digitValueFrom n zeros = some v) :
    v < 10 := by
  induction zeros with
  | nil => simp [digitValueFrom] at h
  | cons first rest ih =>
    rw [digitValueFrom] at h
    split at h
    · contradiction
    · split at h
      · simp only [Option.some.injEq] at h
        omega
      · exact ih h

theorem digitValue?_getD_lt (c : Char) : (digitValue? c).getD 0 < 10 := by
  cases h : digitValue? c with
  | none => decide
  | some v => exact digitValueFrom_lt h

/-- One of the ten digits that numerals are written with. -/
def PlainDigit (c : Char) : Prop := ∃ v, v < 10 ∧ c = Nat.digitChar v

theorem PlainDigit.isDigit {c : Char} (h : PlainDigit c) : isDigit c = true := by
  obtain ⟨v, hv, rfl⟩ := h
  simp [Text.isDigit, digitValue?_digitChar hv]

/-- A digit is none of the marks that may stand around it in a numeral. -/
theorem PlainDigit.not_mark {c : Char} (h : PlainDigit c) :
    isBlank c = false ∧ c ≠ '_' ∧ c ≠ '-' ∧ c ≠ '+' ∧ c ≠ '.' := by
  obtain ⟨v, hv, rfl⟩ := h
  interval_cases v <;> decide

theorem plainDigit_zero : PlainDigit '0' := ⟨0, by decide, rfl⟩

/-- Numerals by their last digit. -/
theorem numeral_induction {motive : Nat → Prop} (digit : ∀ n, n < 10 → motive n)
    (append : ∀ n, 10 ≤ n → motive (n / 10) → motive n) (n : Nat) : motive n := by
  induction n using Nat.strong_induction_on with
  | _ n ih =>
    by_cases hn : n < 10
    · exact digit n hn
    · exact append n (by omega) (ih (n / 10) (by omega))

theorem plainDigit_of_mem_numeral {n : Nat} : ∀ c ∈ numeral n, PlainDigit c := by
  induction n using numeral_induction with
  | digit n hn =>
    rw [numeral_of_lt hn]
    simpa using ⟨n, hn, rfl⟩
  | append n hn ih =>
    intro c hc
    rw [numeral_of_le hn, List.mem_append, List.mem_singleton] at hc
    rcases hc with hc | rfl
    · exact ih c hc
    · exact ⟨n % 10, Nat.mod_lt n (by decide), rfl⟩

theorem digitsValue_numeral (n : Nat) : digitsValue (numeral n) = n := by
  induction n using numeral_induction with
  | digit n hn =>
    rw [numeral_of_lt hn]
    simp [digitsValue, digitValue?_digitChar hn]
  | append n hn ih =>
    rw [numeral_of_le hn, digitsValue_concat, ih, digitValue?_digitChar (Nat.mod_lt n (by decide)),
      Option.getD_some]
    omega

theorem numeral_mul_ten {n : Nat} (h : n ≠ 0) : numeral (n * 10) = numeral n ++ ['0'] := by
  rw [numeral_of_le (by omega), Nat.mul_div_cancel n (by decide), Nat.mul_mod_left]
  rfl

theorem numeral_ne_nil (n : Nat) : numeral n ≠ [] := by
  intro h
  by_cases hn : n < 10
  · rw [numeral_of_lt hn] at h
    simp at h
  · rw [numeral_of_le (by omega)] at h
    simp at h

theorem digitCount_pos (n : Nat) : 0 < digitCount n := List.length_pos_iff.2 (numeral_ne_nil n)

theorem digitCount_of_lt {n : Nat} (h : n < 10) : digitCount n = 1 := by
  simp [digitCount, numeral_of_lt h]

theorem digitCount_of_le {n : Nat} (h : 10 ≤ n) : digitCount n = digitCount (n / 10) + 1 := by
  simp [digitCount, numeral_of_le h]

theorem lt_pow_digitCount (n : Nat) : n < 10 ^ digitCount n := by
  induction n using numeral_induction with
  | digit n hn => simpa [digitCount_of_lt hn] using hn
  | append n hn ih =>
    rw [digitCount_of_le hn, Nat.pow_succ]
    omega

theorem pow_digitCount_le {n : Nat} (h : n ≠ 0) : 10 ^ (digitCount n - 1) ≤ n := by
  induction n using numeral_induction with
  | digit n hn =>
    rw [digitCount_of_lt hn]
    exact Nat.pos_of_ne_zero h
  | append n hn ih =>
    have hprevious := ih (by omega)
    obtain ⟨count, hcount⟩ := Nat.exists_eq_succ_of_ne_zero (digitCount_pos (n / 10)).ne'
    rw [hcount, Nat.succ_sub_one] at hprevious
    rw [digitCount_of_le hn, hcount, Nat.succ_eq_add_one, Nat.add_sub_cancel, Nat.pow_succ]
    omega

theorem digitCount_le_of_lt {n width : Nat} (hwidth : 0 < width) (h : n < 10 ^ width) :
    digitCount n ≤ width := by
  by_cases hn : n = 0
  · subst hn
    rw [digitCount_of_lt (by decide)]
    omega
  · by_contra hlt
    have hpow := Nat.pow_le_pow_right (by decide : 0 < 10) (by omega : width ≤ digitCount n - 1)
    have := pow_digitCount_le hn
    omega

theorem digitsValue_append (cs ds : List Char) :
    digitsValue (cs ++ ds) = digitsValue cs * 10 ^ ds.length + digitsValue ds := by
  induction ds using List.reverseRecOn with
  | nil => simp
  | append_singleton ds d ih =>
    rw [← List.append_assoc, digitsValue_concat, ih, digitsValue_concat, List.length_append,
      List.length_singleton, Nat.pow_succ]
    ring

theorem digitsValue_lt (cs : List Char) : digitsValue cs < 10 ^ cs.length := by
  induction cs using List.reverseRecOn with
  | nil => simp
  | append_singleton cs c ih =>
    have hc := digitValue?_getD_lt c
    rw [digitsValue_concat, List.length_append, List.length_singleton, Nat.pow_succ]
    omega

@[simp] theorem digitsValue_zeros (count : Nat) : digitsValue (List.replicate count '0') = 0 := by
  induction count with
  | zero => rfl
  | succ count ih =>
    rw [List.replicate_succ', digitsValue_concat, ih]
    rfl

theorem digitsValue_filled (width : Nat) (digits : List Char) :
    digitsValue (filled width digits) = digitsValue digits := by
  rw [filled, digitsValue_append, digitsValue_zeros]
  simp

theorem plainDigit_of_mem_filled {width : Nat} {digits : List Char} (h : ∀ c ∈ digits, PlainDigit c) :
    ∀ c ∈ filled width digits, PlainDigit c := by
  intro c hc
  rw [filled, List.mem_append, List.mem_replicate] at hc
  rcases hc with ⟨-, rfl⟩ | hc
  · exact plainDigit_zero
  · exact h c hc

/-- A run of digits is the numeral of its value behind zeros. -/
theorem exists_zeros_append_numeral {digits : List Char} (hne : digits ≠ [])
    (h : ∀ c ∈ digits, PlainDigit c) :
    ∃ zeros, digits = List.replicate zeros '0' ++ numeral (digitsValue digits) := by
  induction digits using List.reverseRecOn with
  | nil => contradiction
  | append_singleton digits last ih =>
    obtain ⟨v, hv, rfl⟩ := h last (by simp)
    rw [digitsValue_concat, digitValue?_digitChar hv, Option.getD_some]
    by_cases hdigits : digits = []
    · subst hdigits
      refine ⟨0, ?_⟩
      rw [digitsValue_nil, Nat.mul_zero, Nat.zero_add, numeral_of_lt hv]
      rfl
    · obtain ⟨zeros, hzeros⟩ := ih hdigits fun c hc => h c (by simp [hc])
      by_cases hvalue : digitsValue digits = 0
      · -- the digits so far are zeros, and the numeral of zero is one of them
        refine ⟨zeros + 1, ?_⟩
        rw [hvalue, numeral_of_lt (by decide)] at hzeros
        rw [hvalue, Nat.mul_zero, Nat.zero_add, numeral_of_lt hv, hzeros, List.replicate_succ']
        rfl
      · refine ⟨zeros, ?_⟩
        rw [numeral_of_le (by omega), ← List.append_assoc, Nat.mul_add_div (by decide), Nat.div_eq_of_lt hv,
          Nat.add_zero, Nat.mul_add_mod, Nat.mod_eq_of_lt hv, ← hzeros]

/-- A run of digits is the numeral of its value, filled to the length of the run. -/
theorem filled_numeral_digitsValue {digits : List Char} (hne : digits ≠ []) (h : ∀ c ∈ digits, PlainDigit c) :
    filled digits.length (numeral (digitsValue digits)) = digits := by
  obtain ⟨zeros, hzeros⟩ := exists_zeros_append_numeral hne h
  have hlength := congrArg List.length hzeros
  rw [List.length_append, List.length_replicate] at hlength
  rw [filled, hlength, Nat.add_sub_cancel]
  exact hzeros.symm

/-- What `dropTrailingZeros` takes away are zeros. -/
theorem eq_dropTrailingZeros_append (digits : List Char) :
    ∃ count, digits = dropTrailingZeros digits ++ List.replicate count '0' := by
  refine ⟨(digits.reverse.takeWhile (· = '0')).length, ?_⟩
  have hzeros : digits.reverse.takeWhile (· = '0') =
      List.replicate (digits.reverse.takeWhile (· = '0')).length '0' := by
    refine List.eq_replicate_of_mem fun c hc => ?_
    simpa using List.mem_takeWhile_imp hc
  have hsplit := List.takeWhile_append_dropWhile (p := (· = '0')) (l := digits.reverse)
  calc digits = digits.reverse.reverse := digits.reverse_reverse.symm
    _ = dropTrailingZeros digits ++ (digits.reverse.takeWhile (· = '0')).reverse := by
      rw [← hsplit, List.reverse_append, hsplit, dropTrailingZeros]
    _ = _ := by rw [hzeros, List.reverse_replicate, List.length_replicate]

end NetWorth.Text
