import Mathlib.Logic.ExistsUnique
import NetWorth.History.Timeline
import NetWorth.Proofs.Calendar.DateText
import NetWorth.Proofs.Text.Casing

/-! # Reading dates

The calendar has one date for each day of its months, and a date has one text. A text is read as a date
exactly if it is the text of that date, and what is no such text is refused as it was given. -/
namespace NetWorth.Date

open Text

def daysIn (leap : Bool) (month : Nat) : Nat :=
  match month with
  | 2 => if leap then 29 else 28
  | 4 | 6 | 9 | 11 => 30
  | _ => 31

/-- The days of the calendar, by their fields. -/
structure IsCalendarDay (year month day : Nat) : Prop where
  year_mem : 1 ≤ year ∧ year ≤ 9999
  month_mem : 1 ≤ month ∧ month ≤ 12
  day_mem : 1 ≤ day ∧ day ≤ daysIn (isLeap year) month

variable {year month day : Nat}

theorem monthLengths_getD (leap : Bool) (hmonth : 1 ≤ month ∧ month ≤ 12) :
    (monthLengths leap).getD (month - 1) 0 = daysIn leap month := by
  obtain ⟨hfirst, hlast⟩ := hmonth
  cases leap <;> interval_cases month <;> rfl

theorem isCalendarDay_iff : IsCalendarDay year month day ↔ 1 ≤ year ∧ year ≤ 9999 ∧ 1 ≤ month ∧ 1 ≤ day ∧
    day ≤ (monthLengths (isLeap year)).getD (month - 1) 0 := by
  constructor
  · rintro ⟨⟨hyear, hyear'⟩, hmonth, hday, hlast⟩
    exact ⟨hyear, hyear', hmonth.1, hday, (monthLengths_getD _ hmonth).symm ▸ hlast⟩
  · rintro ⟨hyear, hyear', hmonth, hday, hlast⟩
    -- behind the last month the lengths have no entry, and no day fits in a month of length zero
    have hmonth' : month ≤ 12 := by
      by_contra hlt
      have hlength : (monthLengths (isLeap year)).length ≤ month - 1 := by
        rw [monthLengths]
        simp only [List.length_cons, List.length_nil]
        omega
      rw [List.getD_eq_getElem?_getD, List.getElem?_eq_none hlength, Option.getD_none] at hlast
      omega
    exact ⟨⟨hyear, hyear'⟩, ⟨hmonth, hmonth'⟩, hday, monthLengths_getD _ ⟨hmonth, hmonth'⟩ ▸ hlast⟩

theorem isCalendarDay_fields (d : Date) : IsCalendarDay d.year d.month d.dayOfMonth := by
  obtain ⟨hmonth, hday, hlast, -⟩ := monthOf_spec d.dayOfYear_lt
  exact isCalendarDay_iff.2 ⟨d.one_le_year, d.year_le, hmonth, hday, hlast⟩

def daysBefore (year month day : Nat) : Nat :=
  yearStart year + ((monthLengths (isLeap year)).take (month - 1)).sum + (day - 1)

theorem ofFields?_eq (year month day : Nat) : ofFields? year month day =
    if 1 ≤ year ∧ year ≤ 9999 ∧ 1 ≤ month ∧ 1 ≤ day ∧
        day ≤ (monthLengths (isLeap year)).getD (month - 1) 0 then
      if h : daysBefore year month day < 3652059 then some ⟨daysBefore year month day, h⟩ else none
    else none := rfl

namespace IsCalendarDay

variable (h : IsCalendarDay year month day)
include h

theorem daysBefore_lt : daysBefore year month day < yearStart (year + 1) := by
  obtain ⟨hyear, -, hmonth, hday, hlast⟩ := isCalendarDay_iff.1 h
  have hlt := (monthOf_eq hmonth hday hlast).1
  rw [sum_monthLengths] at hlt
  rw [yearStart_succ hyear, daysBefore]
  omega

theorem exists_date : ∃ d, ofFields? year month day = some d := by
  have hlt := h.daysBefore_lt
  have hend : yearStart (year + 1) ≤ 3652059 :=
    yearStart_mono (by have := h.year_mem.2; omega : year + 1 ≤ 10000)
  rw [ofFields?_eq, if_pos (isCalendarDay_iff.1 h), dif_pos (by omega)]
  exact ⟨_, rfl⟩

theorem fields_eq {d : Date} (hd : d.day = daysBefore year month day) :
    d.year = year ∧ d.month = month ∧ d.dayOfMonth = day := by
  obtain ⟨-, -, hmonth, hday, hlast⟩ := isCalendarDay_iff.1 h
  have hlt := h.daysBefore_lt
  have hyear : d.year = year := by
    rw [Date.year, hd]
    refine yearOf_eq ?_ hlt
    rw [daysBefore]
    omega
  have hrest : d.day - yearStart year = ((monthLengths (isLeap year)).take (month - 1)).sum + (day - 1) := by
    rw [hd, daysBefore]
    omega
  have hfields : d.monthAndDay = (month, day) := by
    rw [monthAndDay, hyear, hrest]
    exact (monthOf_eq hmonth hday hlast).2
  exact ⟨hyear, congrArg Prod.fst hfields, congrArg Prod.snd hfields⟩

end IsCalendarDay

/-- Fields name the date that has them, and no other. -/
theorem ofFields?_eq_some_iff {d : Date} :
    ofFields? year month day = some d ↔ d.year = year ∧ d.month = month ∧ d.dayOfMonth = day := by
  constructor
  · intro h
    rw [ofFields?_eq] at h
    split_ifs at h with hfields hrange
    exact (isCalendarDay_iff.2 hfields).fields_eq (congrArg Date.day (Option.some.inj h).symm)
  · rintro ⟨rfl, rfl, rfl⟩
    exact ofFields?_fields d

theorem isCalendarDay_iff_existsUnique : IsCalendarDay year month day ↔
    ∃! d : Date, d.year = year ∧ d.month = month ∧ d.dayOfMonth = day := by
  constructor
  · intro h
    obtain ⟨d, hd⟩ := h.exists_date
    refine ⟨d, ofFields?_eq_some_iff.1 hd, fun e he => ?_⟩
    exact Option.some.inj ((ofFields?_eq_some_iff.2 he).symm.trans hd)
  · rintro ⟨d, ⟨rfl, rfl, rfl⟩, -⟩
    exact d.isCalendarDay_fields

/-- The text of a date is read, and no other text. -/
theorem ofChars?_eq_some_iff {cs : List Char} {d : Date} : ofChars? cs = some d ↔ cs = d.textChars := by
  constructor
  · intro h
    unfold ofChars? at h
    split at h
    · rename_i y₁ y₂ y₃ y₄ m₁ m₂ d₁ d₂
      obtain ⟨year, hyear, month, hmonth, day, hday, hfields⟩ := by
        simpa only [Option.bind_eq_bind, Option.bind_eq_some_iff] using h
      obtain ⟨rfl, rfl, rfl⟩ := ofFields?_eq_some_iff.1 hfields
      have hyearDigits := filled_of_fieldOf? (by simp) hyear
      have hmonthDigits := filled_of_fieldOf? (by simp) hmonth
      have hdayDigits := filled_of_fieldOf? (by simp) hday
      simp only [List.length_cons, List.length_nil, Nat.reduceAdd] at hyearDigits hmonthDigits hdayDigits
      rw [textChars, hyearDigits, hmonthDigits, hdayDigits]
      rfl
    · contradiction
  · rintro rfl
    obtain ⟨y₁, y₂, y₃, y₄, m₁, m₂, d₁, d₂, hchars, hyear, hmonth, hday⟩ := textChars_eq d
    rw [hchars, ofChars?, hyear, hmonth, hday]
    exact ofFields?_fields d

theorem plainDigit_of_mem_textChars {d : Date} {c : Char} (hc : c ∈ d.textChars) : PlainDigit c ∨ c = '-' := by
  have hfield : ∀ width n, c ∈ filled width (numeral n) → PlainDigit c := fun width n =>
    plainDigit_of_mem_filled (fun c => plainDigit_of_mem_numeral c) c
  simp only [textChars, List.mem_append, List.mem_cons] at hc
  rcases hc with (hc | hc | hc) | hc | hc
  · exact .inl (hfield _ _ hc)
  · exact .inr hc
  · exact .inl (hfield _ _ hc)
  · exact .inr hc
  · exact .inl (hfield _ _ hc)

theorem trimmed_textChars (d : Date) : Trimmed d.textChars := by
  have hsolid : ∀ c ∈ d.textChars, isBlank c = false := by
    intro c hc
    rcases plainDigit_of_mem_textChars hc with hdigit | rfl
    · exact hdigit.not_mark.1
    · decide
  exact ⟨fun c hc => hsolid c (List.mem_of_mem_head? hc), fun c hc => hsolid c (List.mem_of_getLast? hc)⟩

theorem trim_text (d : Date) : trim d.text = d.text := by
  rw [trim, text, String.toList_ofList, d.trimmed_textChars.trimChars_eq]

theorem ofIsoChars?_of_isHyphenated {cs : List Char} (h : isHyphenated cs = true) :
    ofIsoChars? cs = ofChars? cs := by
  simp only [isHyphenated, Bool.and_eq_true, decide_eq_true_iff] at h
  obtain ⟨⟨hlength, hfirst⟩, hsecond⟩ := h
  match cs, hlength with
  | [y₁, y₂, y₃, y₄, mark, m₁, m₂, mark', d₁, d₂], _ =>
    obtain rfl : mark = '-' := Option.some.inj hfirst
    obtain rfl : mark' = '-' := Option.some.inj hsecond
    have hweek : fieldOf? [m₂, '-'] = none := by simp [fieldOf?]
    have hletter : fieldOf? ['W', m₂] = none := by simp [fieldOf?]
    by_cases hm : m₁ = 'W'
    · -- the digits of a week would take in the second hyphen
      subst hm
      simp [ofIsoChars?, ofWeekPart?, ofChars?, hweek, hletter]
    · simp [ofIsoChars?, ofMonthPart?, nextPart?, ofChars?, hm]

theorem utf8Size_of_mem_textChars {d : Date} {c : Char} (hc : c ∈ d.textChars) : c.utf8Size = 1 := by
  rcases plainDigit_of_mem_textChars hc with ⟨v, hv, rfl⟩ | rfl
  · interval_cases v <;> rfl
  · rfl

/-- The check of the shape leaves one form to the reader of dates, so that it reads the texts of dates only. -/
theorem ofIso?_eq_some_iff {cs : List Char} {d : Date} (h : isHyphenated cs = true) :
    ofIso? cs = some d ↔ cs = d.textChars := by
  rw [ofIso?, ofIsoChars?_of_isHyphenated h, ← ofChars?_eq_some_iff]
  refine ⟨fun hread => (Option.ite_none_right_eq_some.1 hread).2, fun hread => ?_⟩
  obtain rfl := ofChars?_eq_some_iff.1 hread
  have hbytes : (d.textChars.map Char.utf8Size).foldr (· + ·) 0 = 10 := by
    rw [List.map_congr_left fun c hc => utf8Size_of_mem_textChars hc, List.map_const', d.length_textChars]
    rfl
  exact Option.ite_none_right_eq_some.2 ⟨.inr (.inr hbytes), hread⟩

theorem isHyphenated_textChars (d : Date) : isHyphenated d.textChars = true := by
  obtain ⟨y₁, y₂, y₃, y₄, m₁, m₂, d₁, d₂, hchars, -⟩ := d.textChars_eq
  rw [hchars]
  rfl

theorem parse?_eq_some_iff {s : String} {d : Date} : parse? s = some d ↔ trim s = d.text := by
  rw [trim, text, String.ofList_inj, parse?]
  constructor
  · intro h
    obtain ⟨hshape, hread⟩ := Option.ite_none_right_eq_some.1 h
    exact (ofIso?_eq_some_iff hshape).1 hread
  · intro h
    rw [h, if_pos d.isHyphenated_textChars, ofIso?_eq_some_iff d.isHyphenated_textChars]

theorem read_eq_ok_iff {s : String} {field : Option String} {d : Date} :
    Date.read s field = .ok d ↔ trim s = d.text := by
  rw [← parse?_eq_some_iff, Date.read]
  cases parse? s <;> simp

theorem read_eq_error_iff {s : String} {field : Option String} :
    Date.read s field = .error (.service (.invalidDate s field)) ↔ ∀ d : Date, trim s ≠ d.text := by
  simp only [ne_eq, ← parse?_eq_some_iff, ← Option.eq_none_iff_forall_ne_some]
  rw [Date.read]
  cases parse? s <;> simp

/-- Texts that can be read as dates are the canonical ones of the days of the calendar, with blanks around
them or without, and every other text is refused as it was given. -/
theorem reads_canonical_dates :
    (∀ (s : String) (field : Option String) (d : Date), Date.read s field = .ok d ↔ trim s = d.text) ∧
    (∀ (s : String) (field : Option String),
      Date.read s field = .error (.service (.invalidDate s field)) ↔ ∀ d : Date, trim s ≠ d.text) ∧
    (∀ (d : Date) (field : Option String), Date.read d.text field = .ok d) ∧
    (∀ year month day : Nat, IsCalendarDay year month day ↔
      ∃! d : Date, d.year = year ∧ d.month = month ∧ d.dayOfMonth = day) :=
  ⟨fun _ _ _ => read_eq_ok_iff, fun _ _ => read_eq_error_iff, fun d _ => read_eq_ok_iff.2 d.trim_text,
    fun _ _ _ => isCalendarDay_iff_existsUnique⟩

/-- Week dates and dates without hyphens can be read, but do not have the shape of a date. -/
example : ofIso? "2020-W53-5".toList = ofIso? "20210101".toList ∧ (ofIso? "20210101".toList).isSome = true ∧
    parse? "2020-W53-5" = none ∧ parse? "20210101" = none := by decide +kernel

/-- Centuries are leap years every fourth time only. -/
example : (Date.read "\t2000-02-29 " none).isOk = true ∧
    Date.read "1900-02-29" (some "start") = .error (.service (.invalidDate "1900-02-29" (some "start"))) := by
  decide +kernel

end NetWorth.Date
