import NetWorth.Proofs.Decimal.OneText

/-! # The form of canonical texts

A canonical text is an optional minus sign, a whole part without zeros in front of it, and, unless the
number is whole, a point and digits that do not end in zero. Such a text is lossless: it reads back as the
number that it was written for, and two numbers have one text exactly if they are equal. -/
namespace NetWorth

namespace Text

theorem numeral_head_ne_zero {n : Nat} (h : n ≠ 0) : ∀ c ∈ (numeral n).head?, c ≠ '0' := by
  induction n using numeral_induction with
  | digit n hn =>
    rw [numeral_of_lt hn]
    intro c hc
    obtain rfl := Option.some.inj hc
    interval_cases n
    · contradiction
    all_goals decide
  | append n hn ih =>
    have hne := numeral_ne_nil (n / 10)
    rw [numeral_of_le hn, List.head?_append_of_ne_nil _ hne]
    exact ih (by omega)

theorem dropTrailingZeros_last {digits : List Char} :
    ∀ c ∈ (dropTrailingZeros digits).getLast?, c ≠ '0' := by
  intro c hc
  rw [dropTrailingZeros, List.getLast?_reverse] at hc
  have hhead := List.head?_dropWhile_not (fun c => decide (c = '0')) digits.reverse
  rw [Option.mem_def.mp hc] at hhead
  simpa using hhead

end Text

namespace Decimal

open Text (PlainDigit)

/-- The whole part of a canonical text: a single zero, or digits that do not start with zero. -/
inductive IsWhole : List Char → Prop
  | zero : IsWhole ['0']
  | digits {first : Char} {rest : List Char} (hfirst : PlainDigit first) (hzero : first ≠ '0')
    (hrest : ∀ c ∈ rest, PlainDigit c) : IsWhole (first :: rest)

/-- The fraction of a canonical text: nothing, or a point and digits that do not end in zero. -/
inductive IsFraction : List Char → Prop
  | absent : IsFraction []
  | digits {front : List Char} {last : Char} (hfront : ∀ c ∈ front, PlainDigit c)
    (hlast : PlainDigit last) (hzero : last ≠ '0') : IsFraction ('.' :: (front ++ [last]))

/-- A canonical text: an optional minus sign, the whole part and the fraction. -/
inductive IsCanonical : List Char → Prop
  | signed (negative : Bool) {whole fraction : List Char} (hwhole : IsWhole whole)
    (hfraction : IsFraction fraction) : IsCanonical (signChars negative ++ (whole ++ fraction))

theorem isWhole_of_head {cs : List Char} (hne : cs ≠ []) (hdigits : ∀ c ∈ cs, PlainDigit c)
    (hhead : ∀ c ∈ cs.head?, c ≠ '0') : IsWhole cs := by
  obtain ⟨first, rest, rfl⟩ := List.exists_cons_of_ne_nil hne
  apply IsWhole.digits
  · exact hdigits first (by simp)
  · exact hhead first rfl
  · exact fun c hc => hdigits c (by simp [hc])

theorem isFraction_of_last {cs : List Char} (hdigits : ∀ c ∈ cs, PlainDigit c)
    (hlast : ∀ c ∈ cs.getLast?, c ≠ '0') (hne : cs ≠ []) : IsFraction ('.' :: cs) := by
  obtain ⟨front, last, rfl⟩ := (List.eq_nil_or_concat' cs).resolve_left hne
  apply IsFraction.digits
  · exact fun c hc => hdigits c (by simp [hc])
  · exact hdigits last (by simp)
  · exact hlast last (by simp)

theorem plainDigit_of_mem_wholeDigits {d : Decimal} {c : Char} (hc : c ∈ d.wholeDigits) : PlainDigit c :=
  d.plainDigit_of_mem_positionalDigits c (List.mem_of_mem_take hc)

theorem plainDigit_of_mem_fraction {d : Decimal} {c : Char}
    (hc : c ∈ Text.dropTrailingZeros d.fractionDigits) : PlainDigit c := by
  obtain ⟨count, hzeros⟩ := Text.eq_dropTrailingZeros_append d.fractionDigits
  have hmem : c ∈ d.fractionDigits := by
    rw [hzeros]
    exact List.mem_append_left _ hc
  exact d.plainDigit_of_mem_positionalDigits c (List.mem_of_mem_drop hmem)

def leadingDigits (d : Decimal) : List Char :=
  Text.numeral d.coefficient ++ List.replicate d.exponent.toNat '0'

theorem positionalDigits_eq_filled {d : Decimal} (hd : d.coefficient ≠ 0) :
    d.positionalDigits = Text.filled (d.places + 1) d.leadingDigits :=
  if_neg hd

theorem leadingDigits_head_ne_zero {d : Decimal} (hd : d.coefficient ≠ 0) :
    ∀ c ∈ d.leadingDigits.head?, c ≠ '0' := by
  rw [leadingDigits, List.head?_append_of_ne_nil _ (Text.numeral_ne_nil _)]
  exact Text.numeral_head_ne_zero hd

/-- When all digits stand behind the point, the whole part is filled in. -/
theorem wholeDigits_of_le {d : Decimal} (hd : d.coefficient ≠ 0)
    (hsmall : d.leadingDigits.length ≤ d.places) : d.wholeDigits = ['0'] := by
  have hfill : d.places + 1 - d.leadingDigits.length = d.places - d.leadingDigits.length + 1 := by omega
  rw [wholeDigits, positionalDigits_eq_filled hd, Text.length_filled, max_eq_left (by omega),
    Nat.add_sub_cancel_left, Text.filled, hfill, List.replicate_succ, List.cons_append, List.take_succ_cons,
    List.take_zero]

theorem positionalDigits_of_lt {d : Decimal} (hd : d.coefficient ≠ 0)
    (hlarge : d.places < d.leadingDigits.length) : d.positionalDigits = d.leadingDigits := by
  rw [positionalDigits_eq_filled hd, Text.filled, Nat.sub_eq_zero_of_le (by omega), List.replicate_zero,
    List.nil_append]

/-- A number below one has a single zero in front of the point, any other starts with its first digit. -/
theorem isWhole_wholeDigits (d : Decimal) : IsWhole d.wholeDigits := by
  by_cases hd : d.coefficient = 0
  · have hzero : d.wholeDigits = ['0'] := by
      simp [wholeDigits, positionalDigits, hd, List.take_replicate]
    rw [hzero]
    exact IsWhole.zero
  · by_cases hsmall : d.leadingDigits.length ≤ d.places
    · rw [wholeDigits_of_le hd hsmall]
      exact IsWhole.zero
    · apply isWhole_of_head
      · exact List.length_pos_iff.1 d.length_wholeDigits.1
      · exact fun c hc => plainDigit_of_mem_wholeDigits hc
      · rw [wholeDigits, positionalDigits_of_lt hd (by omega), List.head?_take, if_neg (by omega)]
        exact leadingDigits_head_ne_zero hd

theorem isCanonical_canonicalChars (d : Decimal) : IsCanonical d.canonicalChars := by
  unfold canonicalChars joinPoint
  by_cases hfraction : Text.dropTrailingZeros d.fractionDigits = []
  · have hwhole := IsCanonical.signed (d.negative && !d.isZero) d.isWhole_wholeDigits IsFraction.absent
    simpa [hfraction] using hwhole
  · have hpart : IsFraction ('.' :: Text.dropTrailingZeros d.fractionDigits) := by
      apply isFraction_of_last
      · exact fun c hc => plainDigit_of_mem_fraction hc
      · exact Text.dropTrailingZeros_last
      · exact hfraction
    rw [if_neg (by simpa using hfraction)]
    exact IsCanonical.signed _ d.isWhole_wholeDigits hpart

theorem toRat_eq_of_canonical_eq {d e : Decimal} (h : d.canonical = e.canonical) : d.toRat = e.toRat := by
  obtain ⟨d', hd, hdvalue, -⟩ := d.numeral?_canonical
  obtain ⟨e', he, hevalue, -⟩ := e.numeral?_canonical
  rw [h, he] at hd
  rw [← hdvalue, ← hevalue, Option.some.inj hd]

theorem canonical_ne_negative_zero (d : Decimal) : d.canonical ≠ "-0" := by
  intro h
  obtain ⟨e, hread, hvalue, -⟩ := d.numeral?_canonical
  have hzero : numeral? (significantChars "-0") = some ⟨true, 0, 0⟩ := by decide +kernel
  rw [h, hzero] at hread
  have hd : d.coefficient = 0 := by
    rw [← toRat_eq_zero, ← hvalue, ← Option.some.inj hread]
    exact toRat_of_coefficient_zero rfl
  have hchars := congrArg String.toList h
  rw [canonical, String.toList_ofList, canonicalChars_of_zero hd] at hchars
  exact absurd hchars (by decide)

/-- Every number has a canonical text that is no negative zero. The text of a number within reach reads
back as an equal number, and numbers have one text exactly if they are equal. -/
theorem canonical_is_lossless (d : Decimal) :
    IsCanonical d.canonical.toList ∧ d.canonical ≠ "-0" ∧
      (d.withinReach = true → ∀ field, ∃ e, Amount.read (.text d.canonical) field = .ok e ∧
        e.toRat = d.toRat) ∧
      ∀ e : Decimal, d.canonical = e.canonical ↔ d.toRat = e.toRat := by
  refine ⟨?_, d.canonical_ne_negative_zero, ?_, ?_⟩
  · rw [canonical, String.toList_ofList]
    exact d.isCanonical_canonicalChars
  · intro hreach field
    obtain ⟨e, hread, hvalue⟩ := parse?_canonical hreach
    exact ⟨e, by rw [Amount.read, hread], hvalue⟩
  · intro e
    constructor
    · exact toRat_eq_of_canonical_eq
    · exact canonical_eq_of_toRat_eq

/-- The number -1250e1 reads back from `-12500`. -/
theorem negative_thousands_read_back : withinReach ⟨true, 1250, 1⟩ = true ∧
    canonical ⟨true, 1250, 1⟩ = "-12500" ∧ ∃ e, Amount.read (.text (canonical ⟨true, 1250, 1⟩)) none = .ok e ∧
      e.toRat = toRat ⟨true, 1250, 1⟩ :=
  ⟨by decide, by decide, (canonical_is_lossless ⟨true, 1250, 1⟩).2.2.1 (by decide) none⟩

end Decimal

end NetWorth
