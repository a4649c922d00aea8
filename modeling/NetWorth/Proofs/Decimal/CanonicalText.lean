import NetWorth.Decimal.Reader
import NetWorth.Decimal.Writer
import NetWorth.Proofs.Decimal.Finishing
import NetWorth.Proofs.Text.Casing

/-! # Reading canonical texts

The canonical text of a number that the context can hold is a numeral of the same value. -/
namespace NetWorth

namespace Decimal

/-- The rational number that a text writes. -/
def valueOf? (s : String) : Option ℚ := (parse? s).map toRat

theorem plainDigit_of_mem_positionalDigits {d : Decimal} :
    ∀ c ∈ d.positionalDigits, Text.PlainDigit c := by
  unfold positionalDigits
  split
  · intro c hc
    rw [(List.mem_replicate.1 hc).2]
    exact Text.plainDigit_zero
  · refine Text.plainDigit_of_mem_filled fun c hc => ?_
    rw [List.mem_append, List.mem_replicate] at hc
    rcases hc with hc | ⟨-, rfl⟩
    · exact Text.plainDigit_of_mem_numeral c hc
    · exact Text.plainDigit_zero

theorem digitsValue_positionalDigits (d : Decimal) :
    Text.digitsValue d.positionalDigits = d.coefficient * 10 ^ d.exponent.toNat := by
  unfold positionalDigits
  split
  · rename_i hzero
    rw [Text.digitsValue_zeros, hzero, Nat.zero_mul]
  · rw [Text.digitsValue_filled, Text.digitsValue_append, Text.digitsValue_numeral,
      Text.digitsValue_zeros, List.length_replicate, Nat.add_zero]

theorem length_positionalDigits (d : Decimal) :
    d.places + 1 ≤ d.positionalDigits.length ∧
      (d.positionalDigits.length : Int) ≤ d.places + max 1 d.magnitude := by
  unfold positionalDigits places magnitude
  split
  · rw [List.length_replicate]
    omega
  · rw [Text.length_filled, List.length_append, List.length_replicate]
    change _ ≤ max _ (Text.digitCount d.coefficient + _) ∧
      ((max _ (Text.digitCount d.coefficient + _) : Nat) : Int) ≤ _
    omega

theorem wholeDigits_append_fractionDigits (d : Decimal) :
    d.wholeDigits ++ d.fractionDigits = d.positionalDigits :=
  List.take_append_drop _ _

theorem length_fractionDigits (d : Decimal) : d.fractionDigits.length = d.places := by
  have := d.length_positionalDigits.1
  rw [fractionDigits, List.length_drop]
  omega

theorem length_wholeDigits (d : Decimal) :
    0 < d.wholeDigits.length ∧ (d.wholeDigits.length : Int) ≤ max 1 d.magnitude := by
  have := d.length_positionalDigits
  rw [wholeDigits, List.length_take]
  omega

theorem span_digits {digits rest : List Char} (hdigits : ∀ c ∈ digits, Text.PlainDigit c)
    (hrest : ∀ c ∈ rest.head?, Text.isDigit c = false) :
    (digits ++ rest).span Text.isDigit = (digits, rest) := by
  have hall : ∀ c ∈ digits, Text.isDigit c = true := fun c hc => (hdigits c hc).isDigit
  rw [List.span_eq_takeWhile_dropWhile, Text.takeWhile_append_eq hall hrest, Text.dropWhile_append_eq hall hrest]

theorem span_all_digits {digits : List Char} (hdigits : ∀ c ∈ digits, Text.PlainDigit c) :
    digits.span Text.isDigit = (digits, []) := by
  have hend : ∀ c ∈ ([] : List Char).head?, Text.isDigit c = false := by simp
  have hspan := span_digits hdigits hend
  rwa [List.append_nil] at hspan

theorem unsigned?_joinPoint {negative : Bool} {whole fraction : List Char} (hne : whole ≠ [])
    (hwhole : ∀ c ∈ whole, Text.PlainDigit c) (hfraction : ∀ c ∈ fraction, Text.PlainDigit c) :
    unsigned? negative (joinPoint whole fraction) =
      some ⟨negative, Text.digitsValue (whole ++ fraction), -(fraction.length : Int)⟩ := by
  cases fraction with
  | nil =>
    rw [unsigned?, joinPoint, List.isEmpty_nil, if_pos rfl, span_all_digits hwhole]
    simp [fractionPart, exponentPart?, hne]
  | cons c fraction =>
    have hpoint : ∀ d ∈ ('.' :: c :: fraction).head?, Text.isDigit d = false := by
      intro d hd
      cases hd
      decide
    have hspan := span_digits hwhole hpoint
    rw [unsigned?, joinPoint, List.isEmpty_cons, if_neg (by decide), hspan]
    simp only [fractionPart, span_all_digits hfraction]
    simp [exponentPart?]

theorem splitSign_signChars {negative : Bool} {cs : List Char}
    (h : ∀ c ∈ cs.head?, c ≠ '-' ∧ c ≠ '+') :
    splitSign (signChars negative ++ cs) = (negative, cs) := by
  cases negative with
  | true => rfl
  | false =>
    cases cs with
    | nil => rfl
    | cons c rest =>
      obtain ⟨hminus, hplus⟩ := h c rfl
      simp only [signChars, Bool.false_eq_true, if_false, List.nil_append]
      unfold splitSign
      split <;> simp_all

/-- What canonical texts are written with: digits, a point and a minus sign. -/
theorem mem_joinPoint {whole fraction : List Char} {c : Char} (hc : c ∈ joinPoint whole fraction) :
    c ∈ whole ∨ c = '.' ∨ c ∈ fraction := by
  unfold joinPoint at hc
  split at hc
  · exact .inl hc
  · simpa using hc

theorem significantChars_ofList {negative : Bool} {whole fraction : List Char}
    (hwhole : ∀ c ∈ whole, Text.PlainDigit c) (hfraction : ∀ c ∈ fraction, Text.PlainDigit c) :
    significantChars (String.ofList (signChars negative ++ joinPoint whole fraction)) =
      signChars negative ++ joinPoint whole fraction := by
  have hchars : ∀ c ∈ signChars negative ++ joinPoint whole fraction,
      Text.isBlank c = false ∧ c ≠ '_' := by
    intro c hc
    rcases List.mem_append.1 hc with hc | hc
    · cases negative <;> simp [signChars] at hc
      subst hc
      decide
    · rcases mem_joinPoint hc with hc | rfl | hc
      · exact ⟨(hwhole c hc).not_mark.1, (hwhole c hc).not_mark.2.1⟩
      · decide
      · exact ⟨(hfraction c hc).not_mark.1, (hfraction c hc).not_mark.2.1⟩
  have htrimmed : Text.Trimmed (signChars negative ++ joinPoint whole fraction) :=
    ⟨fun c hc => (hchars c (List.mem_of_mem_head? hc)).1,
      fun c hc => (hchars c (List.mem_of_getLast? hc)).1⟩
  rw [significantChars, String.toList_ofList, htrimmed.trimChars_eq, List.filter_eq_self]
  exact fun c hc => by simpa using (hchars c hc).2

theorem head?_joinPoint {whole fraction : List Char} (hne : whole ≠ []) :
    (joinPoint whole fraction).head? = whole.head? := by
  cases whole with
  | nil => contradiction
  | cons c whole =>
    unfold joinPoint
    split <;> rfl

/-- Coefficients that differ by powers of ten write one number when their exponents make up for it. -/
theorem toRat_eq_of_mul_eq {negative : Bool} {c c' m n : Nat} {e e' : Int} (h : c * 10 ^ m = c' * 10 ^ n)
    (he : e - m = e' - n) : toRat ⟨negative, c, e⟩ = toRat ⟨negative, c', e'⟩ := by
  have hc := toRat_coarser (d := ⟨negative, c * 10 ^ m, e - m⟩) (e := e) (m := c) (by simp) (by simp)
  have hc' := toRat_coarser (d := ⟨negative, c' * 10 ^ n, e' - n⟩) (e := e') (m := c') (by simp) (by simp)
  rw [hc, hc', h, he]

/-- The canonical text of a number is a numeral of its value, with no more digits in front of the point
and none further behind it. -/
theorem numeral?_canonical (d : Decimal) : ∃ e, numeral? (significantChars d.canonical) = some e ∧
    e.toRat = d.toRat ∧ (d.withinReach = true → e.withinReach = true) := by
  obtain ⟨count, hzeros⟩ := Text.eq_dropTrailingZeros_append d.fractionDigits
  generalize hfraction : Text.dropTrailingZeros d.fractionDigits = fraction at hzeros
  have hall := d.plainDigit_of_mem_positionalDigits
  rw [← wholeDigits_append_fractionDigits, hzeros] at hall
  have hwhole : ∀ c ∈ d.wholeDigits, Text.PlainDigit c := fun c hc => hall c (by simp [hc])
  have hdigits : ∀ c ∈ fraction, Text.PlainDigit c := fun c hc => hall c (by simp [hc])
  have hlength := d.length_wholeDigits
  have hne : d.wholeDigits ≠ [] := List.length_pos_iff.1 hlength.1
  have hplaces : fraction.length + count = d.places := by
    rw [← length_fractionDigits, hzeros, List.length_append, List.length_replicate]
  have hvalue : Text.digitsValue (d.wholeDigits ++ fraction) * 10 ^ count =
      d.coefficient * 10 ^ d.exponent.toNat := by
    rw [← digitsValue_positionalDigits, ← wholeDigits_append_fractionDigits, hzeros,
      ← List.append_assoc, Text.digitsValue_append _ (List.replicate count '0')]
    simp
  generalize hsign : (d.negative && !d.isZero) = negative
  refine ⟨⟨negative, Text.digitsValue (d.wholeDigits ++ fraction), -(fraction.length : Int)⟩, ?_, ?_, ?_⟩
  · rw [canonical, canonicalChars, hsign, hfraction, significantChars_ofList hwhole hdigits,
      numeral?, splitSign_signChars]
    · exact unsigned?_joinPoint hne hwhole hdigits
    · rw [head?_joinPoint hne]
      intro c hc
      have := (hwhole c (List.mem_of_mem_head? hc)).not_mark
      exact ⟨this.2.2.1, this.2.2.2.1⟩
  · by_cases hzero : d.coefficient = 0
    · rw [hzero, Nat.zero_mul, Nat.mul_eq_zero] at hvalue
      have hdigitsZero := hvalue.resolve_right (by positivity)
      rw [toRat_of_coefficient_zero hzero]
      exact toRat_of_coefficient_zero hdigitsZero
    · have hnegative : negative = d.negative := by
        simp [← hsign, isZero, hzero]
      rw [hnegative]
      refine toRat_eq_of_mul_eq hvalue ?_
      rw [places] at hplaces
      omega
  · intro hreach
    have hcount := Text.digitCount_le_of_lt
      (by rw [List.length_append]; omega : 0 < (d.wholeDigits ++ fraction).length)
      (Text.digitsValue_lt (d.wholeDigits ++ fraction))
    rw [List.length_append] at hcount
    rw [withinReach, Bool.and_eq_true, decide_eq_true_iff, decide_eq_true_iff] at hreach ⊢
    simp only [leadingExponent, magnitude, greatestReadable, leastReadable, places] at *
    omega

theorem InContext.withinReach {d : Decimal} (h : d.InContext) : d.withinReach = true := by
  have hleast := h.least
  have hgreatest := h.magnitude
  rw [Decimal.withinReach, Bool.and_eq_true, decide_eq_true_iff, decide_eq_true_iff]
  simp only [leadingExponent, greatestReadable, leastReadable, leastQuantum, greatestExponent] at *
  omega

theorem parse?_canonical {d : Decimal} (h : d.withinReach = true) :
    ∃ e, parse? d.canonical = some e ∧ e.toRat = d.toRat := by
  obtain ⟨e, hread, hvalue, hreach⟩ := d.numeral?_canonical
  exact ⟨e, by rw [parse?, hread, Option.filter_some, if_pos (hreach h)], hvalue⟩

/-- The canonical text of a number in the context reads as the number. -/
theorem valueOf?_canonical {d : Decimal} (h : d.InContext) : valueOf? d.canonical = some d.toRat := by
  obtain ⟨e, hread, hvalue⟩ := parse?_canonical h.withinReach
  rw [valueOf?, hread, Option.map_some, hvalue]

end Decimal

end NetWorth
