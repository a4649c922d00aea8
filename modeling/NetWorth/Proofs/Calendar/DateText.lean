import Mathlib.Data.List.Basic
import NetWorth.Check.Scalar
import NetWorth.Proofs.Calendar.Fields
import NetWorth.Proofs.Text.Numeral

/-! # Texts of dates

A date is written with four, two and two digits, and a check for dates reads it back. -/
namespace NetWorth

namespace Date

open Text

theorem isDigit_of_plainDigit {c : Char} (h : PlainDigit c) :
    c.isDigit = true ∧ c.toNat - '0'.toNat = (digitValue? c).getD 0 := by
  obtain ⟨v, hv, rfl⟩ := h
  interval_cases v <;> decide

theorem plainDigit_of_isDigit {c : Char} (h : c.isDigit = true) : PlainDigit c := by
  have hpoint : ∀ n, 48 ≤ n → n ≤ 57 → Char.ofNat n = Nat.digitChar (n - 48) := by
    intro n hlow hhigh
    interval_cases n <;> rfl
  rw [Char.isDigit, Bool.and_eq_true, decide_eq_true_iff, decide_eq_true_iff] at h
  have hlow : 48 ≤ c.toNat := h.1
  have hhigh : c.toNat ≤ 57 := h.2
  exact ⟨c.toNat - 48, by omega, (Char.ofNat_toNat c).symm.trans (hpoint c.toNat hlow hhigh)⟩

theorem fieldOf?_of_plainDigits {cs : List Char} (h : ∀ c ∈ cs, PlainDigit c) :
    fieldOf? cs = some (digitsValue cs) := by
  have hdigits : cs.all Char.isDigit = true :=
    List.all_eq_true.2 fun c hc => (isDigit_of_plainDigit (h c hc)).1
  rw [fieldOf?, if_pos hdigits, digitsValue]
  refine congrArg some (List.foldl_ext _ _ 0 fun n c hc => ?_)
  rw [(isDigit_of_plainDigit (h c hc)).2]

theorem fieldOf?_eq_some_iff {cs : List Char} {n : Nat} :
    fieldOf? cs = some n ↔ (∀ c ∈ cs, PlainDigit c) ∧ digitsValue cs = n := by
  constructor
  · intro h
    by_cases hdigits : cs.all Char.isDigit = true
    · have hplain : ∀ c ∈ cs, PlainDigit c := fun c hc =>
        plainDigit_of_isDigit (List.all_eq_true.1 hdigits c hc)
      rw [fieldOf?_of_plainDigits hplain] at h
      exact ⟨hplain, Option.some.inj h⟩
    · rw [fieldOf?, if_neg hdigits] at h
      contradiction
  · rintro ⟨hplain, rfl⟩
    exact fieldOf?_of_plainDigits hplain

/-- A number that was read from digits is written with the same digits again. -/
theorem filled_of_fieldOf? {cs : List Char} {n : Nat} (hne : cs ≠ []) (h : fieldOf? cs = some n) :
    filled cs.length (numeral n) = cs := by
  obtain ⟨hplain, rfl⟩ := fieldOf?_eq_some_iff.1 h
  exact filled_numeral_digitsValue hne hplain

theorem fieldOf?_filled (width n : Nat) : fieldOf? (filled width (numeral n)) = some n := by
  rw [fieldOf?_of_plainDigits (plainDigit_of_mem_filled fun c => plainDigit_of_mem_numeral c),
    digitsValue_filled, digitsValue_numeral]

theorem length_filled_numeral {width n : Nat} (hwidth : 0 < width) (h : n < 10 ^ width) :
    (filled width (numeral n)).length = width := by
  rw [length_filled]
  exact Nat.max_eq_left (digitCount_le_of_lt hwidth h)

theorem textChars_eq (d : Date) : ∃ y₁ y₂ y₃ y₄ m₁ m₂ d₁ d₂,
    d.textChars = [y₁, y₂, y₃, y₄, '-', m₁, m₂, '-', d₁, d₂] ∧
      fieldOf? [y₁, y₂, y₃, y₄] = some d.year ∧ fieldOf? [m₁, m₂] = some d.month ∧
      fieldOf? [d₁, d₂] = some d.dayOfMonth := by
  have hyear := length_filled_numeral (by decide : 0 < 4) (n := d.year) (by have := d.year_le; omega)
  have hmonth := length_filled_numeral (by decide : 0 < 2) (n := d.month) (by have := d.month_le; omega)
  have hday := length_filled_numeral (by decide : 0 < 2) (n := d.dayOfMonth)
    (by have := d.dayOfMonth_le; omega)
  obtain ⟨y₁, y₂, y₃, y₄, hyearChars⟩ := List.length_eq_four.1 hyear
  obtain ⟨m₁, m₂, hmonthChars⟩ := List.length_eq_two.1 hmonth
  obtain ⟨d₁, d₂, hdayChars⟩ := List.length_eq_two.1 hday
  refine ⟨y₁, y₂, y₃, y₄, m₁, m₂, d₁, d₂, ?_, ?_, ?_, ?_⟩
  · rw [textChars, hyearChars, hmonthChars, hdayChars]
    rfl
  · rw [← hyearChars, fieldOf?_filled]
  · rw [← hmonthChars, fieldOf?_filled]
  · rw [← hdayChars, fieldOf?_filled]

theorem length_textChars (d : Date) : d.textChars.length = 10 := by
  obtain ⟨y₁, y₂, y₃, y₄, m₁, m₂, d₁, d₂, hchars, -⟩ := d.textChars_eq
  rw [hchars]
  rfl

theorem filled_year_append (d : Date) : filled 4 (numeral d.year) ++ d.textChars.drop 4 = d.textChars := by
  have hlength := length_filled_numeral (by decide : 0 < 4) (n := d.year) (by have := d.year_le; omega)
  rw [textChars, List.append_assoc, List.drop_left' hlength]

/-- Years from 1000 on are printed as the texts of dates have them. -/
theorem printedChars_eq {d : Date} (h : 1000 ≤ d.year) : d.printedChars = d.textChars := by
  have hcount : 4 ≤ digitCount d.year := by
    by_contra hlt
    have hyear := lt_pow_digitCount d.year
    have hpow := Nat.pow_le_pow_right (by decide : 0 < 10) (by omega : digitCount d.year ≤ 3)
    omega
  have hfilled : filled 4 (numeral d.year) = numeral d.year := by
    rw [filled, ← digitCount, Nat.sub_eq_zero_of_le hcount]
    rfl
  rw [printedChars, ← hfilled, d.filled_year_append]

/-- A clock reads the text of a date as the midnight at which the date begins. -/
theorem ofClock?_textChars (d : Date) : Moment.ofClock? d.textChars = some ⟨d.day, true⟩ := by
  obtain ⟨y₁, y₂, y₃, y₄, m₁, m₂, d₁, d₂, hchars, hyear, hmonth, hday⟩ := textChars_eq d
  have hnotZero : d.year ≠ 0 := by
    have := d.one_le_year
    omega
  have hdayOf : Moment.dayOf? d.year d.month d.dayOfMonth = some (d.day : Int) := by
    rw [Moment.dayOf?, if_neg hnotZero, ofFields?_fields, Option.map_some]
  rw [hchars, Moment.ofClock?]
  simp [hyear, hmonth, hday, hdayOf]

/-- What is written for a date is read back. -/
theorem check_text (d : Date) : Check.date (.text d.text) = .ok d := by
  have hmoment : Moment.ofText? d.text = some ⟨d.day, true⟩ := by
    rw [Moment.ofText?, text, String.toList_ofList, ofClock?_textChars]
    rfl
  have hdate : Moment.date? ⟨d.day, true⟩ = some d := by
    have hrange : 0 ≤ (d.day : Int) ∧ (d.day : Int) < 3652059 := by
      have := d.inRange
      omega
    exact dif_pos hrange
  simp [Check.date, Check.dateOf, hmoment, hdate]

end Date

end NetWorth
