import NetWorth.Calendar.Wire
import NetWorth.Proofs.Calendar.DateReading

/-! # Texts of instants

An instant is written as the clock that shows it in universal time. That text is read back as the same clock,
so instants have one text, and texts one instant, whatever the clocks that showed them. -/
namespace NetWorth.Timestamp

open Text

theorem hour_lt (t : Timestamp) : t.hour < 24 := by
  simp only [hour, microsPerDay, microsPerHour]
  omega

theorem minute_lt (t : Timestamp) : t.minute < 60 := Nat.mod_lt _ (by decide)

theorem second_lt (t : Timestamp) : t.second < 60 := Nat.mod_lt _ (by decide)

theorem microsecond_lt (t : Timestamp) : t.microsecond < 10 ^ 6 := Nat.mod_lt _ (by decide)

/-- A clock's date and time of day make up its reading. -/
theorem wall_eq (t : Timestamp) :
    ((t.date.day * 24 + t.hour) * 60 + t.minute) * 60000000 + t.second * microsPerSecond + t.microsecond =
      t.wall := by
  simp only [date, hour, minute, second, microsecond, microsPerDay, microsPerHour, microsPerSecond]
  omega

theorem clockChars_eq (t : Timestamp) : ∃ h₁ h₂ n₁ n₂ s₁ s₂,
    t.clockChars = [h₁, h₂, ':', n₁, n₂, ':', s₁, s₂] ∧ Date.fieldOf? [h₁, h₂] = some t.hour ∧
      Date.fieldOf? [n₁, n₂] = some t.minute ∧ Date.fieldOf? [s₁, s₂] = some t.second := by
  have hhour := Date.length_filled_numeral (by decide : 0 < 2) (n := t.hour) (by have := t.hour_lt; omega)
  have hminute := Date.length_filled_numeral (by decide : 0 < 2) (n := t.minute)
    (by have := t.minute_lt; omega)
  have hsecond := Date.length_filled_numeral (by decide : 0 < 2) (n := t.second)
    (by have := t.second_lt; omega)
  obtain ⟨h₁, h₂, hhourChars⟩ := List.length_eq_two.1 hhour
  obtain ⟨n₁, n₂, hminuteChars⟩ := List.length_eq_two.1 hminute
  obtain ⟨s₁, s₂, hsecondChars⟩ := List.length_eq_two.1 hsecond
  refine ⟨h₁, h₂, n₁, n₂, s₁, s₂, ?_, ?_, ?_, ?_⟩
  · rw [clockChars, hhourChars, hminuteChars, hsecondChars]
    rfl
  · rw [← hhourChars, Date.fieldOf?_filled]
  · rw [← hminuteChars, Date.fieldOf?_filled]
  · rw [← hsecondChars, Date.fieldOf?_filled]

/-- A fraction is left out if it is zero. Otherwise it has nine digits: six for the microseconds, and three
zeros. -/
inductive FractionOf (micros : Nat) : List Char → Prop
  | absent (hzero : micros = 0) : FractionOf micros []
  | nine {six : List Char} (hmicros : micros ≠ 0) (hlength : six.length = 6)
    (hdigits : ∀ c ∈ six, PlainDigit c) (hvalue : digitsValue six = micros) :
    FractionOf micros ('.' :: (six ++ ['0', '0', '0']))

def fractionChars (t : Timestamp) : List Char :=
  if t.microsecond = 0 then [] else '.' :: filled 9 (numeral (t.microsecond * 1000))

theorem coreChars_eq (t : Timestamp) :
    t.coreChars = t.date.printedChars ++ 'T' :: t.clockChars ++ t.fractionChars := rfl

theorem filled_nanoseconds {micros : Nat} (h : micros ≠ 0) :
    filled 9 (numeral (micros * 1000)) = filled 6 (numeral micros) ++ ['0', '0', '0'] := by
  have hthousand : numeral (micros * 1000) = numeral micros ++ ['0', '0', '0'] := by
    rw [show micros * 1000 = micros * 10 * 10 * 10 by omega, numeral_mul_ten (by omega),
      numeral_mul_ten (by omega), numeral_mul_ten h]
    simp
  have hcount : 9 - (numeral micros ++ ['0', '0', '0']).length = 6 - (numeral micros).length := by
    rw [List.length_append]
    simp only [List.length_cons, List.length_nil]
    omega
  rw [filled, hthousand, hcount, filled, List.append_assoc]

theorem fractionOf_fractionChars (t : Timestamp) : FractionOf t.microsecond t.fractionChars := by
  rw [fractionChars]
  split_ifs with hzero
  · exact .absent hzero
  · rw [filled_nanoseconds hzero]
    refine .nine hzero (Date.length_filled_numeral (by decide) t.microsecond_lt)
      (plainDigit_of_mem_filled fun c => plainDigit_of_mem_numeral c) ?_
    rw [digitsValue_filled, digitsValue_numeral]

/-- A fraction is taken off the front of a text as the microseconds that it was written for. -/
theorem FractionOf.takeFraction {micros : Nat} {fraction suffix : List Char} (h : FractionOf micros fraction)
    (hsuffix : ∀ c ∈ suffix.head?, c ≠ '.' ∧ c.isDigit = false) :
    takeFraction (fraction ++ suffix) = (micros, suffix) := by
  cases h with
  | absent hzero =>
    subst hzero
    rw [List.nil_append]
    unfold Timestamp.takeFraction
    split
    · exact absurd rfl (hsuffix '.' rfl).1
    · rfl
  | @nine six hmicros hlength hdigits hvalue =>
    have hnine : ∀ c ∈ six ++ ['0', '0', '0'], c.isDigit = true := by
      intro c hc
      rcases List.mem_append.1 hc with hc | hc
      · exact (Date.isDigit_of_plainDigit (hdigits c hc)).1
      · simp only [List.mem_cons, List.not_mem_nil, or_false, or_self] at hc
        subst hc
        decide
    have hrun : ((six ++ ['0', '0', '0']) ++ suffix).takeWhile Char.isDigit = six ++ ['0', '0', '0'] :=
      takeWhile_append_eq hnine fun c hc => (hsuffix c hc).2
    -- of the nine digits the reader keeps six, which are those of the microseconds
    have hsix : (six ++ ['0', '0', '0'] ++ List.replicate 6 '0').take 6 = six := by
      rw [List.append_assoc, ← hlength, List.take_left]
    have hread : Date.fieldOf? six = some micros := by
      rw [Date.fieldOf?_of_plainDigits hdigits, hvalue]
    simp only [List.cons_append, Timestamp.takeFraction, hrun, hsix, hread, Option.getD_some, List.drop_left]

theorem ofChars?_of_parts {y₁ y₂ y₃ y₄ m₁ m₂ d₁ d₂ h₁ h₂ n₁ n₂ s₁ s₂ : Char} {rest suffix : List Char}
    {date : Date} {hour minute second micros : Nat} {offset : Option Int}
    (hdate : Date.ofChars? [y₁, y₂, y₃, y₄, '-', m₁, m₂, '-', d₁, d₂] = some date)
    (hhour : Date.fieldOf? [h₁, h₂] = some hour) (hminute : Date.fieldOf? [n₁, n₂] = some minute)
    (hsecond : Date.fieldOf? [s₁, s₂] = some second) (hfraction : takeFraction rest = (micros, suffix))
    (hoffset : offsetOf? suffix = some offset) (hwithin : hour < 24 ∧ minute < 60 ∧ second < 60) :
    ofChars? (y₁ :: y₂ :: y₃ :: y₄ :: '-' :: m₁ :: m₂ :: '-' :: d₁ :: d₂ :: 'T'
      :: h₁ :: h₂ :: ':' :: n₁ :: n₂ :: ':' :: s₁ :: s₂ :: rest) =
    ofWall? (((date.day * 24 + hour) * 60 + minute) * 60000000 + second * microsPerSecond + micros) offset := by
  simp only [ofChars?, Option.bind_eq_bind]
  rw [hdate, Option.bind_some, hhour, Option.bind_some, hminute, Option.bind_some, hsecond, Option.bind_some,
    hfraction]
  dsimp only
  rw [hoffset, Option.bind_some, if_pos hwithin]

/-- Fills the year at the front of a text to four digits. -/
def fillYear (cs : List Char) : List Char :=
  filled 4 (cs.takeWhile Char.isDigit) ++ cs.dropWhile Char.isDigit

theorem fillYear_append (year : Nat) {rest : List Char} (h : ∀ c ∈ rest.head?, c.isDigit = false) :
    fillYear (numeral year ++ rest) = filled 4 (numeral year) ++ rest := by
  have hdigits : ∀ c ∈ numeral year, c.isDigit = true := fun c hc =>
    (Date.isDigit_of_plainDigit (plainDigit_of_mem_numeral c hc)).1
  rw [fillYear, takeWhile_append_eq hdigits h, dropWhile_append_eq hdigits h]

theorem fillYear_coreChars (t : Timestamp) (suffix : List Char) : fillYear (t.coreChars ++ suffix) =
    t.date.textChars ++ 'T' :: t.clockChars ++ t.fractionChars ++ suffix := by
  obtain ⟨y₁, y₂, y₃, y₄, m₁, m₂, d₁, d₂, hdate, -⟩ := t.date.textChars_eq
  -- the year ends at the hyphen behind it
  have hhyphen : ∀ c ∈ (t.date.textChars.drop 4 ++ ('T' :: t.clockChars ++ (t.fractionChars ++ suffix))).head?,
      c.isDigit = false := by
    intro c hc
    rw [hdate] at hc
    obtain rfl : '-' = c := Option.some.inj hc
    decide
  calc fillYear (t.coreChars ++ suffix)
      = fillYear (numeral t.date.year ++
          (t.date.textChars.drop 4 ++ ('T' :: t.clockChars ++ (t.fractionChars ++ suffix)))) := by
        simp only [coreChars_eq, Date.printedChars, List.append_assoc]
    _ = filled 4 (numeral t.date.year) ++
          (t.date.textChars.drop 4 ++ ('T' :: t.clockChars ++ (t.fractionChars ++ suffix))) :=
        fillYear_append t.date.year hhyphen
    _ = t.date.textChars ++ 'T' :: t.clockChars ++ t.fractionChars ++ suffix := by
        rw [← List.append_assoc, t.date.filled_year_append]
        simp only [List.append_assoc]

/-- A text with the suffix of an offset is read as the reading of the clock that was written, with that
offset, once its year has four digits. -/
theorem ofChars?_fillYear (t : Timestamp) {suffix : List Char} {offset : Option Int}
    (hsuffix : ∀ c ∈ suffix.head?, c ≠ '.' ∧ c.isDigit = false) (hoffset : offsetOf? suffix = some offset) :
    ofChars? (fillYear (t.coreChars ++ suffix)) = some ⟨t.wall, offset, t.inRange⟩ := by
  obtain ⟨y₁, y₂, y₃, y₄, m₁, m₂, d₁, d₂, hdate, -⟩ := t.date.textChars_eq
  obtain ⟨h₁, h₂, n₁, n₂, s₁, s₂, hclock, hhour, hminute, hsecond⟩ := t.clockChars_eq
  have hread : Date.ofChars? [y₁, y₂, y₃, y₄, '-', m₁, m₂, '-', d₁, d₂] = some t.date :=
    Date.ofChars?_eq_some_iff.2 hdate.symm
  have hfraction := t.fractionOf_fractionChars.takeFraction hsuffix
  have hparts := ofChars?_of_parts hread hhour hminute hsecond hfraction hoffset
    ⟨t.hour_lt, t.minute_lt, t.second_lt⟩
  have hchars : fillYear (t.coreChars ++ suffix) = y₁ :: y₂ :: y₃ :: y₄ :: '-' :: m₁ :: m₂ :: '-' :: d₁ :: d₂
      :: 'T' :: h₁ :: h₂ :: ':' :: n₁ :: n₂ :: ':' :: s₁ :: s₂ :: (t.fractionChars ++ suffix) := by
    rw [fillYear_coreChars, hdate, hclock]
    rfl
  rw [hchars, hparts, wall_eq, ofWall?, dif_pos t.inRange]

/-- A suffix that stands for universal time and does not run into the fraction in front of it. -/
structure IsUtcSuffix (suffix : List Char) : Prop where
  offset : offsetOf? suffix = some (some 0)
  apart : ∀ c ∈ suffix.head?, c ≠ '.' ∧ c.isDigit = false

def withSuffix? (suffix : List Char) (t : Timestamp) : Option String :=
  t.toUtc?.map fun u => String.ofList (u.coreChars ++ suffix)

def zuluSuffix : List Char := ['Z']

def zeroSuffix : List Char := ['+', '0', '0', ':', '0', '0']

theorem isUtcSuffix_zulu : IsUtcSuffix zuluSuffix := by
  refine ⟨rfl, fun c hc => ?_⟩
  obtain rfl : 'Z' = c := Option.some.inj hc
  decide

theorem isUtcSuffix_zero : IsUtcSuffix zeroSuffix := by
  refine ⟨by decide, fun c hc => ?_⟩
  obtain rfl : '+' = c := Option.some.inj hc
  decide

theorem zulu?_eq (t : Timestamp) : t.zulu? = t.withSuffix? zuluSuffix := rfl

theorem zeroOffset?_eq (t : Timestamp) : t.zeroOffset? = t.withSuffix? zeroSuffix := rfl

variable {t u : Timestamp} {suffix : List Char}

theorem IsUtcSuffix.ofChars?_fillYear (h : IsUtcSuffix suffix) (hutc : u.offset = some 0) :
    ofChars? (fillYear (u.coreChars ++ suffix)) = some u := by
  rw [Timestamp.ofChars?_fillYear u h.apart h.offset, ← hutc]

theorem IsUtcSuffix.fillYear_withSuffix (h : IsUtcSuffix suffix) (t : Timestamp) :
    (t.withSuffix? suffix).bind (fun s => ofChars? (fillYear s.toList)) = t.toUtc? := by
  rw [withSuffix?]
  cases hutc : t.toUtc? with
  | none => rfl
  | some u =>
    rw [Option.map_some, Option.bind_some, String.toList_ofList, h.ofChars?_fillYear (toUtc?_eq_some hutc).1]

theorem IsUtcSuffix.withSuffix?_eq_iff (h : IsUtcSuffix suffix) (hu : t.toUtc? = some u) (other : Timestamp) :
    t.withSuffix? suffix = other.withSuffix? suffix ↔ t.instant = other.instant := by
  constructor
  · intro htexts
    have hclocks := congrArg (Option.bind · fun s => ofChars? (fillYear s.toList)) htexts
    simp only [h.fillYear_withSuffix] at hclocks
    rw [← instant_of_toUtc? hu, instant_of_toUtc? (hclocks.symm.trans hu)]
  · intro hinstant
    rw [withSuffix?, withSuffix?, toUtc?_congr hinstant]

/-- What is written for an instant in a year of four digits is read back as the clock that shows it in
universal time. -/
theorem IsUtcSuffix.parse?_withSuffix (h : IsUtcSuffix suffix) (hu : t.toUtc? = some u)
    (hyear : 1000 ≤ u.date.year) : (t.withSuffix? suffix).bind parse? = some u := by
  have hread := h.ofChars?_fillYear (toUtc?_eq_some hu).1
  rw [fillYear_coreChars, ← Date.printedChars_eq hyear, ← coreChars_eq] at hread
  rw [withSuffix?, hu, Option.map_some, Option.bind_some, parse?, String.toList_ofList, hread]

/-- The texts of an instant tell it from every other, whatever the clocks: they write a clock that shows
universal time, the fraction of its second where it is not zero, and one suffix or the other. From the year
1000 on the date is written as the text of a date, and the texts are read back as that clock. -/
theorem texts_tell_instants {d : Date} (ht : t.utcDate? = some d) :
    (∀ other : Timestamp, t.zulu? = other.zulu? ↔ t.instant = other.instant) ∧
    (∀ other : Timestamp, t.zeroOffset? = other.zeroOffset? ↔ t.instant = other.instant) ∧
    ∃ (utc : Timestamp) (fraction : List Char),
      utc.offset = some 0 ∧ utc.instant = t.instant ∧ utc.date = d ∧ FractionOf utc.microsecond fraction ∧
      t.zulu? = some (String.ofList (d.printedChars ++ 'T' :: utc.clockChars ++ fraction ++ ['Z'])) ∧
      t.zeroOffset? = some (String.ofList (d.printedChars ++ 'T' :: utc.clockChars ++ fraction
        ++ ['+', '0', '0', ':', '0', '0'])) ∧
      (1000 ≤ d.year → d.printedChars = d.textChars ∧
        t.zulu?.bind parse? = some utc ∧ t.zeroOffset?.bind parse? = some utc) := by
  obtain ⟨u, hu, rfl⟩ := Option.map_eq_some_iff.1 ht
  refine ⟨isUtcSuffix_zulu.withSuffix?_eq_iff hu, isUtcSuffix_zero.withSuffix?_eq_iff hu, u, u.fractionChars,
    (toUtc?_eq_some hu).1, instant_of_toUtc? hu, rfl, u.fractionOf_fractionChars, ?_, ?_, fun hyear => ?_⟩
  · rw [zulu?, hu, Option.map_some, coreChars_eq]
  · rw [zeroOffset?, hu, Option.map_some, coreChars_eq]
  · exact ⟨Date.printedChars_eq hyear, isUtcSuffix_zulu.parse?_withSuffix hu hyear,
      isUtcSuffix_zero.parse?_withSuffix hu hyear⟩

/-- Half past midnight and half a second, on the first of March of a leap year, an hour ahead of universal
time. -/
def leapNight : Timestamp := ⟨738945 * 86400000000 + 1800500000, some 3600, by decide⟩

/-- The instant of `leapNight` on a clock without an offset. -/
def leapEvening : Timestamp := ⟨738944 * 86400000000 + 84600500000, none, by decide⟩

theorem leapNight_written : leapNight.utcDate? = some leapEvening.date ∧
    leapNight.zulu? = some "2024-02-29T23:30:00.500000000Z" ∧ leapNight.zulu? = leapEvening.zulu? ∧
    ∃ utc, utc.instant = leapNight.instant ∧ leapNight.zulu?.bind parse? = some utc := by
  have hdated : leapNight.utcDate? = some leapEvening.date := by decide
  obtain ⟨hsame, -, utc, -, -, hinstant, -, -, -, -, hback⟩ := texts_tell_instants hdated
  exact ⟨hdated, by decide +kernel, (hsame leapEvening).2 (by decide), utc, hinstant, (hback (by decide)).2.1⟩

end NetWorth.Timestamp
