import NetWorth.Amount
import NetWorth.Proofs.Decimal.CanonicalText
import NetWorth.Proofs.Text.Quoting

/-! # The grammar of numerals

A numeral is a sign, digits with at most one point among them, and an exponent, where digits of every script
count alike. What the grammar allows is read as the number that it writes, with every digit, and what it does
not allow is refused. -/
namespace NetWorth

namespace Text

/-- A digit of any script as the one of the ten that has its value; other characters stand as they are. -/
def plainChar (c : Char) : Char := ((digitValue? c).map Nat.digitChar).getD c

theorem digitValue?_plainChar (c : Char) : digitValue? (plainChar c) = digitValue? c := by
  cases h : digitValue? c with
  | none => rw [plainChar, h, Option.map_none, Option.getD_none, h]
  | some v => rw [plainChar, h, Option.map_some, Option.getD_some, digitValue?_digitChar (digitValueFrom_lt h)]

theorem isDigit_plainChar (c : Char) : isDigit (plainChar c) = isDigit c := by
  rw [isDigit, digitValue?_plainChar, isDigit]

theorem plainChar_of_not_digit {c : Char} (h : isDigit c = false) : plainChar c = c := by
  rw [isDigit, Option.isSome_eq_false_iff, Option.isNone_iff_eq_none] at h
  rw [plainChar, h, Option.map_none, Option.getD_none]

theorem plainDigit_plainChar {c : Char} (h : isDigit c = true) : PlainDigit (plainChar c) := by
  obtain ⟨v, hv⟩ := Option.isSome_iff_exists.1 h
  exact ⟨v, digitValueFrom_lt hv, by rw [plainChar, hv, Option.map_some, Option.getD_some]⟩

/-- A mark that is no digit comes from the mark alone. -/
theorem plainChar_eq_iff {c mark : Char} (hmark : isDigit mark = false) : plainChar c = mark ↔ c = mark := by
  constructor
  · rintro rfl
    rw [isDigit_plainChar] at hmark
    exact (plainChar_of_not_digit hmark).symm
  · rintro rfl
    exact plainChar_of_not_digit hmark

theorem digitsValue_map_plainChar (cs : List Char) : digitsValue (cs.map plainChar) = digitsValue cs := by
  rw [digitsValue, digitsValue, List.foldl_map]
  exact List.foldl_ext _ _ 0 fun n c _ => by rw [digitValue?_plainChar]

end Text

namespace Decimal

open Text (PlainDigit plainChar digitsValue)

theorem splitSign_of_head {cs : List Char} (h : ∀ c ∈ cs.head?, c ≠ '-' ∧ c ≠ '+') : splitSign cs = (false, cs) :=
  @splitSign_signChars false cs h

theorem splitSign_map (cs : List Char) :
    splitSign (cs.map plainChar) = ((splitSign cs).1, (splitSign cs).2.map plainChar) := by
  cases cs with
  | nil => rfl
  | cons c rest =>
    by_cases hminus : c = '-'
    · subst hminus
      rfl
    · by_cases hplus : c = '+'
      · subst hplus
        rfl
      · have hmap : ∀ d ∈ ((c :: rest).map plainChar).head?, d ≠ '-' ∧ d ≠ '+' := by
          intro d hd
          obtain rfl : plainChar c = d := Option.some.inj hd
          rw [Ne, Ne, Text.plainChar_eq_iff (by decide), Text.plainChar_eq_iff (by decide)]
          exact ⟨hminus, hplus⟩
        have hhead : ∀ d ∈ (c :: rest).head?, d ≠ '-' ∧ d ≠ '+' := by
          intro d hd
          obtain rfl : c = d := Option.some.inj hd
          exact ⟨hminus, hplus⟩
        rw [splitSign_of_head hmap, splitSign_of_head hhead]

theorem isDigit_comp_plainChar : Text.isDigit ∘ plainChar = Text.isDigit := funext Text.isDigit_plainChar

theorem span_map (cs : List Char) : (cs.map plainChar).span Text.isDigit =
    ((cs.span Text.isDigit).1.map plainChar, (cs.span Text.isDigit).2.map plainChar) := by
  rw [List.span_eq_takeWhile_dropWhile, List.span_eq_takeWhile_dropWhile, List.takeWhile_map, List.dropWhile_map,
    isDigit_comp_plainChar]

theorem fractionPart_of_head {cs : List Char} (h : ∀ c ∈ cs.head?, c ≠ '.') : fractionPart cs = ([], cs) := by
  unfold fractionPart
  split
  · exact absurd rfl (h '.' rfl)
  · rfl

theorem fractionPart_map (cs : List Char) : fractionPart (cs.map plainChar) =
    ((fractionPart cs).1.map plainChar, (fractionPart cs).2.map plainChar) := by
  cases cs with
  | nil => rfl
  | cons c rest =>
    by_cases hpoint : c = '.'
    · subst hpoint
      exact span_map rest
    · have hmap : ∀ d ∈ ((c :: rest).map plainChar).head?, d ≠ '.' := by
        intro d hd
        obtain rfl : plainChar c = d := Option.some.inj hd
        rwa [Ne, Text.plainChar_eq_iff (by decide)]
      have hhead : ∀ d ∈ (c :: rest).head?, d ≠ '.' := by
        intro d hd
        obtain rfl : c = d := Option.some.inj hd
        exact hpoint
      rw [fractionPart_of_head hmap, fractionPart_of_head hhead]
      rfl

theorem exponentPart?_map (cs : List Char) : exponentPart? (cs.map plainChar) = exponentPart? cs := by
  cases cs with
  | nil => rfl
  | cons mark rest =>
    have hlower : plainChar mark = 'e' ↔ mark = 'e' := Text.plainChar_eq_iff (by decide)
    have hupper : plainChar mark = 'E' ↔ mark = 'E' := Text.plainChar_eq_iff (by decide)
    simp only [List.map_cons, exponentPart?, hlower, hupper, splitSign_map, List.isEmpty_map, List.all_map,
      isDigit_comp_plainChar, Text.digitsValue_map_plainChar]

theorem numeral?_map (cs : List Char) : numeral? (cs.map plainChar) = numeral? cs := by
  simp only [numeral?, unsigned?, splitSign_map, span_map, fractionPart_map, List.isEmpty_map, exponentPart?_map,
    ← List.map_append, Text.digitsValue_map_plainChar, List.length_map]

/-- A sign may be missing, and then it is a plus. -/
inductive SignedBy : Bool → List Char → Prop
  | absent : SignedBy false []
  | plus : SignedBy false ['+']
  | minus : SignedBy true ['-']

/-- Digits with at most one point among them, which stands between the whole digits and those of the
fraction. -/
inductive PointedBy : List Char → List Char → List Char → Prop
  | absent {whole : List Char} : PointedBy whole [] whole
  | point {whole fraction : List Char} : PointedBy whole fraction (whole ++ '.' :: fraction)

/-- An exponent may be missing, and then it is zero. Otherwise it is a letter, a sign, and digits. -/
inductive RaisedBy : Int → List Char → Prop
  | absent : RaisedBy 0 []
  | power {mark : Char} {negative : Bool} {sign digits : List Char} (hmark : mark = 'e' ∨ mark = 'E')
    (hsign : SignedBy negative sign) (hne : digits ≠ []) (hdigits : ∀ c ∈ digits, PlainDigit c) :
    RaisedBy (if negative then -(digitsValue digits : Int) else digitsValue digits) (mark :: (sign ++ digits))

/-- What a numeral writes: a sign, digits in front of the point and behind it, and an exponent. -/
structure Numeral where
  negative : Bool
  whole : List Char
  fraction : List Char
  exponent : Int

/-- The number that a numeral stands for: every digit of it counts. -/
def Numeral.value (n : Numeral) : Decimal :=
  ⟨n.negative, digitsValue (n.whole ++ n.fraction), n.exponent - n.fraction.length⟩

inductive Numeral.WrittenAs : Numeral → List Char → Prop
  | intro {negative : Bool} {sign whole fraction body power : List Char} {exponent : Int}
    (hsign : SignedBy negative sign) (hne : whole ++ fraction ≠ [])
    (hdigits : ∀ c ∈ whole ++ fraction, PlainDigit c) (hbody : PointedBy whole fraction body)
    (hpower : RaisedBy exponent power) :
    WrittenAs ⟨negative, whole, fraction, exponent⟩ (sign ++ (body ++ power))

theorem head?_digits_append {digits rest : List Char} (hne : digits ≠ []) (hdigits : ∀ c ∈ digits, PlainDigit c) :
    ∀ c ∈ (digits ++ rest).head?, c ≠ '-' ∧ c ≠ '+' := by
  intro c hc
  rw [List.head?_append_of_ne_nil _ hne] at hc
  have hmark := (hdigits c (List.mem_of_mem_head? hc)).not_mark
  exact ⟨hmark.2.2.1, hmark.2.2.2.1⟩

theorem SignedBy.splitSign {negative : Bool} {sign rest : List Char} (h : SignedBy negative sign)
    (hrest : ∀ c ∈ rest.head?, c ≠ '-' ∧ c ≠ '+') : splitSign (sign ++ rest) = (negative, rest) := by
  cases h with
  | absent => exact splitSign_of_head hrest
  | plus => rfl
  | minus => rfl

theorem RaisedBy.exponentPart? {exponent : Int} {power : List Char} (h : RaisedBy exponent power) :
    exponentPart? power = some exponent := by
  cases h with
  | absent => rfl
  | @power mark negative sign digits hmark hsign hne hdigits =>
    have hsplit : Decimal.splitSign (sign ++ digits) = (negative, digits) := by
      have hhead : ∀ c ∈ (digits ++ []).head?, c ≠ '-' ∧ c ≠ '+' := head?_digits_append hne hdigits
      rw [List.append_nil] at hhead
      exact hsign.splitSign hhead
    have hall : digits.all Text.isDigit = true := List.all_eq_true.2 fun c hc => (hdigits c hc).isDigit
    simp [Decimal.exponentPart?, hmark, hsplit, hall, hne]

theorem RaisedBy.head? {exponent : Int} {power : List Char} (h : RaisedBy exponent power) :
    ∀ c ∈ power.head?, Text.isDigit c = false ∧ c ≠ '.' := by
  intro c hc
  cases h with
  | absent => contradiction
  | power hmark =>
    obtain rfl := Option.some.inj hc
    rcases hmark with rfl | rfl <;> decide

/-- Digits around a point are taken off the front of what follows them. -/
theorem PointedBy.span {whole fraction body power : List Char} (h : PointedBy whole fraction body)
    (hdigits : ∀ c ∈ whole ++ fraction, PlainDigit c)
    (hpower : ∀ c ∈ power.head?, Text.isDigit c = false ∧ c ≠ '.') :
    ∃ rest, (body ++ power).span Text.isDigit = (whole, rest) ∧ fractionPart rest = (fraction, power) := by
  have hwhole : ∀ c ∈ whole, PlainDigit c := fun c hc => hdigits c (List.mem_append_left _ hc)
  have hfraction : ∀ c ∈ fraction, PlainDigit c := fun c hc => hdigits c (List.mem_append_right _ hc)
  cases h with
  | absent =>
    exact ⟨power, span_digits hwhole fun c hc => (hpower c hc).1,
      fractionPart_of_head fun c hc => (hpower c hc).2⟩
  | point =>
    refine ⟨'.' :: (fraction ++ power), ?_, span_digits hfraction fun c hc => (hpower c hc).1⟩
    rw [List.append_assoc]
    refine span_digits hwhole fun c hc => ?_
    obtain rfl := Option.some.inj hc
    decide

theorem PointedBy.head? {whole fraction body : List Char} (h : PointedBy whole fraction body)
    (hne : whole ++ fraction ≠ []) (hdigits : ∀ c ∈ whole ++ fraction, PlainDigit c) (rest : List Char) :
    ∀ c ∈ (body ++ rest).head?, c ≠ '-' ∧ c ≠ '+' := by
  cases h with
  | absent =>
    rw [List.append_nil] at hne hdigits
    exact head?_digits_append hne hdigits
  | point =>
    rw [List.append_assoc]
    cases whole with
    | nil =>
      intro c hc
      obtain rfl := Option.some.inj hc
      decide
    | cons first whole =>
      exact head?_digits_append (List.cons_ne_nil first whole) fun c hc => hdigits c (List.mem_append_left _ hc)

theorem Numeral.WrittenAs.numeral? {n : Numeral} {cs : List Char} (h : n.WrittenAs cs) :
    numeral? cs = some n.value := by
  cases h with
  | @intro negative sign whole fraction body power exponent hsign hne hdigits hbody hpower =>
    obtain ⟨rest, hspan, hfraction⟩ := hbody.span hdigits hpower.head?
    have hempty : (whole.isEmpty && fraction.isEmpty) = false := by
      simpa [List.isEmpty_iff, imp_iff_not_or, Bool.eq_false_iff] using hne
    simp only [Decimal.numeral?, hsign.splitSign (hbody.head? hne hdigits power), unsigned?, hspan, hfraction,
      hempty, hpower.exponentPart?, Bool.false_eq_true, if_false, Option.bind_eq_bind, Option.bind_some,
      Option.pure_def, Numeral.value]

theorem exists_signedBy (cs : List Char) : ∃ negative sign rest,
    splitSign cs = (negative, rest) ∧ SignedBy negative sign ∧ cs = sign ++ rest := by
  unfold splitSign
  split
  · exact ⟨true, ['-'], _, rfl, .minus, rfl⟩
  · exact ⟨false, ['+'], _, rfl, .plus, rfl⟩
  · exact ⟨false, [], cs, rfl, .absent, rfl⟩

theorem span_isDigit (cs : List Char) : ∃ digits rest, cs.span Text.isDigit = (digits, rest) ∧
    (∀ c ∈ digits, Text.isDigit c = true) ∧ cs = digits ++ rest :=
  ⟨_, _, List.span_eq_takeWhile_dropWhile .., fun _ hc => List.mem_takeWhile_imp hc,
    List.takeWhile_append_dropWhile.symm⟩

theorem exists_pointedBy (cs : List Char) : ∃ whole rest fraction power body,
    cs.span Text.isDigit = (whole, rest) ∧ fractionPart rest = (fraction, power) ∧
      (∀ c ∈ whole ++ fraction, Text.isDigit c = true) ∧ PointedBy whole fraction body ∧ cs = body ++ power := by
  obtain ⟨whole, rest, hspan, hwhole, hcs⟩ := span_isDigit cs
  by_cases hpoint : rest.head? = some '.'
  · obtain ⟨behind, rfl⟩ := List.head?_eq_some_iff.1 hpoint
    obtain ⟨fraction, power, hfraction, hdigits, hbehind⟩ := span_isDigit behind
    refine ⟨whole, _, fraction, power, _, hspan, hfraction, ?_, .point, ?_⟩
    · exact fun c hc => (List.mem_append.1 hc).elim (hwhole c) (hdigits c)
    · rw [hcs, hbehind, List.append_assoc, List.cons_append]
  · refine ⟨whole, rest, [], rest, whole, hspan, fractionPart_of_head ?_, ?_, .absent, hcs⟩
    · rintro c hc rfl
      exact hpoint hc
    · rwa [List.append_nil]

variable {cs : List Char}

theorem raisedBy_of_exponentPart? {exponent : Int} (hplain : ∀ c ∈ cs, Text.isDigit c = true → PlainDigit c)
    (h : exponentPart? cs = some exponent) : RaisedBy exponent cs := by
  cases cs with
  | nil =>
    obtain rfl := Option.some.inj h
    exact .absent
  | cons mark rest =>
    obtain ⟨negative, sign, digits, hsplit, hsign, rfl⟩ := exists_signedBy rest
    simp only [exponentPart?, hsplit, Bool.or_eq_true, decide_eq_true_eq, List.isEmpty_iff,
      Bool.not_eq_true', List.all_eq_false] at h
    by_cases hmark : mark = 'e' ∨ mark = 'E'
    · rw [if_pos hmark] at h
      by_cases hbad : digits = [] ∨ ∃ c ∈ digits, ¬ Text.isDigit c = true
      · rw [if_pos hbad] at h
        contradiction
      · rw [if_neg hbad] at h
        obtain rfl := Option.some.inj h
        rw [not_or, not_exists] at hbad
        refine .power hmark hsign hbad.1 fun c hc => hplain c ?_ (by_contra fun hc' => hbad.2 c ⟨hc, hc'⟩)
        exact List.mem_cons_of_mem _ (List.mem_append_right _ hc)
    · rw [if_neg hmark] at h
      contradiction

theorem exists_writtenAs_of_numeral? {d : Decimal} (hplain : ∀ c ∈ cs, Text.isDigit c = true → PlainDigit c)
    (h : numeral? cs = some d) : ∃ n : Numeral, n.WrittenAs cs ∧ n.value = d := by
  obtain ⟨negative, sign, unsigned, hsplit, hsign, rfl⟩ := exists_signedBy cs
  obtain ⟨whole, rest, fraction, power, body, hspan, hfraction, hdigits, hbody, rfl⟩ := exists_pointedBy unsigned
  simp only [numeral?, hsplit, unsigned?, hspan, hfraction] at h
  split_ifs at h with hempty
  obtain ⟨exponent, hexponent, hd⟩ := Option.bind_eq_some_iff.1 h
  have hne : whole ++ fraction ≠ [] := by
    simpa [List.isEmpty_iff] using hempty
  -- the digits of the parts are characters of the text, which has plain digits only
  have hmem : ∀ c ∈ whole ++ fraction, c ∈ body := by
    cases hbody with
    | absent => simp
    | point =>
      intro c hc
      rw [List.mem_append] at hc
      rw [List.mem_append, List.mem_cons]
      exact hc.imp_right .inr
  refine ⟨⟨negative, whole, fraction, exponent⟩, .intro hsign hne ?_ hbody ?_, Option.some.inj hd⟩
  · exact fun c hc => hplain c (by simp [hmem c hc]) (hdigits c hc)
  · exact raisedBy_of_exponentPart? (fun c hc => hplain c (by simp [hc])) hexponent

/-- The characters of a text that count when it is read as a number: without blanks around them, without
underscores, and with plain digits for those of every script. -/
def plainChars (s : String) : List Char := (significantChars s).map plainChar

theorem plainDigit_of_mem_plainChars {s : String} {c : Char} (hc : c ∈ plainChars s)
    (hdigit : Text.isDigit c = true) : PlainDigit c := by
  obtain ⟨b, -, rfl⟩ := List.mem_map.1 hc
  rw [Text.isDigit_plainChar] at hdigit
  exact Text.plainDigit_plainChar hdigit

theorem length_plainChars_le (s : String) : (plainChars s).length ≤ s.length := by
  have htrim : (Text.trimChars s.toList).length ≤ s.toList.length := (Text.trimChars_sublist _).length_le
  rw [plainChars, List.length_map, significantChars]
  exact (List.length_filter_le _ _).trans (htrim.trans_eq String.length_toList)

/-- A text is read as a number exactly if it is one of the grammar that is not out of reach. -/
theorem parse?_eq_some_iff {s : String} {d : Decimal} :
    parse? s = some d ↔ (∃ n : Numeral, n.WrittenAs (plainChars s) ∧ n.value = d) ∧ d.withinReach = true := by
  rw [parse?, ← numeral?_map, Option.filter_eq_some_iff]
  refine and_congr_left fun _ => ⟨?_, ?_⟩
  · exact exists_writtenAs_of_numeral? fun c => plainDigit_of_mem_plainChars
  · rintro ⟨n, hn, rfl⟩
    exact hn.numeral?

namespace Numeral

variable {n : Numeral}

theorem WrittenAs.digits (h : n.WrittenAs cs) :
    n.whole ++ n.fraction ≠ [] ∧ (∀ c ∈ n.whole ++ n.fraction, PlainDigit c) ∧
      (n.whole ++ n.fraction).length ≤ cs.length := by
  cases h with
  | intro _ hne hdigits hbody _ =>
    refine ⟨hne, hdigits, ?_⟩
    cases hbody <;> simp <;> omega

/-- The digits of the coefficient are the written ones without the zeros in front. -/
theorem WrittenAs.exists_zeros (h : n.WrittenAs cs) : ∃ zeros,
    n.whole ++ n.fraction = List.replicate zeros '0' ++ Text.numeral n.value.coefficient :=
  Text.exists_zeros_append_numeral h.digits.1 h.digits.2.1

/-- The range of numbers that can be read is left by exceedingly long numerals and exponents only. -/
theorem WrittenAs.withinReach (h : n.WrittenAs cs) (hlength : cs.length < 10 ^ 6)
    (hexponent : n.exponent.natAbs ≤ 10 ^ 6) : n.value.withinReach = true := by
  obtain ⟨hne, -, hcount⟩ := h.digits
  have hdigits : Text.digitCount n.value.coefficient ≤ (n.whole ++ n.fraction).length :=
    Text.digitCount_le_of_lt (List.length_pos_iff.2 hne) (Text.digitsValue_lt _)
  rw [List.length_append] at hcount hdigits
  rw [Decimal.withinReach, Bool.and_eq_true, decide_eq_true_iff, decide_eq_true_iff]
  simp only [leadingExponent, magnitude, greatestReadable, leastReadable, value] at hdigits ⊢
  omega

end Numeral

end Decimal

namespace Amount

open Decimal (Numeral plainChars)

theorem read_text_eq_ok_iff {s : String} {field : Option String} {d : Decimal} :
    read (.text s) field = .ok d ↔ Decimal.parse? s = some d := by
  rw [read]
  cases Decimal.parse? s <;> simp [invalid]

theorem read_text_eq_error_iff {s : String} {field : Option String} :
    read (.text s) field = .error (.service (.invalidDecimal (Text.quoted s) field)) ↔
      Decimal.parse? s = none := by
  rw [read]
  cases Decimal.parse? s <;> simp [invalid, Json.literal]

/-- A failure to read an amount tells the text and the field. -/
theorem read_text_error_inj {s other : String} {field field' : Option String}
    (h : read (.text other) field' = .error (.service (.invalidDecimal (Text.quoted s) field))) :
    other = s ∧ field' = field := by
  rw [read] at h
  cases hread : Decimal.parse? other with
  | some d =>
    rw [hread] at h
    contradiction
  | none =>
    rw [hread] at h
    obtain ⟨hquoted, hfield⟩ := ServiceFailure.invalidDecimal.inj (Failure.service.inj (Except.error.inj h))
    exact ⟨Text.quoted_inj hquoted, hfield⟩

/-- A text is read as an amount exactly if it is a decimal numeral, and the amount has its sign, all of its
digits and its exponent. Every other text is refused with itself, as its quoted literal, and the field that was
named. -/
theorem reads_decimal_numerals {s : String} (hlength : s.length < 10 ^ 6)
    (hexponent : ∀ n : Numeral, n.WrittenAs (plainChars s) → n.exponent.natAbs ≤ 10 ^ 6)
    (field : Option String) :
    (∀ d, read (.text s) field = .ok d ↔ ∃ n : Numeral, n.WrittenAs (plainChars s) ∧ n.value = d) ∧
    (∀ n : Numeral, n.WrittenAs (plainChars s) → ∃ zeros,
      n.whole ++ n.fraction = List.replicate zeros '0' ++ Text.numeral n.value.coefficient) ∧
    (read (.text s) field = .error (.service (.invalidDecimal (Text.quoted s) field)) ↔
      ∀ n : Numeral, ¬ n.WrittenAs (plainChars s)) ∧
    (∀ other field', read (.text other) field' = .error (.service (.invalidDecimal (Text.quoted s) field)) →
      other = s ∧ field' = field) := by
  have hshort : (plainChars s).length < 10 ^ 6 := (Decimal.length_plainChars_le s).trans_lt hlength
  have hreach : ∀ n : Numeral, n.WrittenAs (plainChars s) → n.value.withinReach = true :=
    fun n hn => hn.withinReach hshort (hexponent n hn)
  have hread : ∀ d, Decimal.parse? s = some d ↔ ∃ n : Numeral, n.WrittenAs (plainChars s) ∧ n.value = d := by
    intro d
    rw [Decimal.parse?_eq_some_iff]
    refine ⟨And.left, ?_⟩
    rintro ⟨n, hn, rfl⟩
    exact ⟨⟨n, hn, rfl⟩, hreach n hn⟩
  refine ⟨fun d => read_text_eq_ok_iff.trans (hread d), fun n => Numeral.WrittenAs.exists_zeros, ?_,
    fun other field' => read_text_error_inj⟩
  rw [read_text_eq_error_iff, Option.eq_none_iff_forall_ne_some]
  simp only [Ne, hread, not_exists, not_and]
  exact ⟨fun h n hn => h n.value n hn rfl, fun h _ n hn => absurd hn (h n)⟩

/-- A numeral with blanks around it, an underscore in it, and digits of two scripts. -/
def mixedText : String := " -1_2.٥0e+3\t"

def mixedNumeral : Numeral := ⟨true, ['1', '2'], ['5', '0'], 3⟩

theorem mixedNumeral_written : mixedNumeral.WrittenAs (plainChars mixedText) := by
  have hchars : plainChars mixedText =
      ['-'] ++ ((['1', '2'] ++ '.' :: ['5', '0']) ++ 'e' :: (['+'] ++ ['3'])) := by decide +kernel
  have hdigits : ∀ c ∈ ['1', '2'] ++ ['5', '0'], Text.PlainDigit c :=
    fun c => Text.plainDigit_of_mem_numeral (n := 1250) c
  have hpower : Decimal.RaisedBy 3 ('e' :: (['+'] ++ ['3'])) :=
    .power (.inl rfl) .plus (by decide) fun c => Text.plainDigit_of_mem_numeral (n := 3) c
  rw [hchars]
  exact .intro .minus (by decide) hdigits .point hpower

theorem mixedText_read : mixedText.length < 10 ^ 6 ∧
    (∀ n : Numeral, n.WrittenAs (plainChars mixedText) → n.exponent.natAbs ≤ 10 ^ 6) ∧
    read (.text mixedText) (some "amount") = .ok ⟨true, 1250, 1⟩ := by
  have hlength : mixedText.length < 10 ^ 6 := by decide
  have hexponent : ∀ n : Numeral, n.WrittenAs (plainChars mixedText) → n.exponent.natAbs ≤ 10 ^ 6 := by
    intro n hn
    -- all numerals of one text have one value, so the exponent differs from 1 by the length of a fraction
    have hvalue : n.value = mixedNumeral.value :=
      Option.some.inj (hn.numeral?.symm.trans mixedNumeral_written.numeral?)
    have hdifference : n.exponent - n.fraction.length = 1 := congrArg Decimal.exponent hvalue
    have hcount := hn.digits.2.2.trans (Decimal.length_plainChars_le mixedText)
    rw [List.length_append] at hcount
    omega
  exact ⟨hlength, hexponent,
    ((reads_decimal_numerals hlength hexponent _).1 _).2 ⟨mixedNumeral, mixedNumeral_written, rfl⟩⟩

/-- Words for what is not finite, blanks inside and marks of thousands are no numerals. -/
example : read (.text "NaN") none = .error (.service (.invalidDecimal "'NaN'" none)) ∧
    (read (.text "1 000") none).isOk = false ∧ (read (.text "1,000") none).isOk = false := by
  decide +kernel

end Amount

end NetWorth
