import Mathlib.Tactic.IntervalCases
import NetWorth.Proofs.Text.Numeral
import NetWorth.Timeline.Granularity

/-! # Words of granularities

What a granularity may be written as: one of a few names, or digits with a unit of time behind them. A written
granularity is read as what the word spells, and every other text is refused. -/
namespace NetWorth

namespace Text

theorem isDigit_of_isBlank {c : Char} (h : isBlank c = true) : isDigit c = false := by
  have hpoint : ∀ n, blankSpans.contains n = true → digitValueFrom n zeroDigits = none := by
    intro n hn
    obtain ⟨span, hspan, hfirst, hlast⟩ := Spans.exists_of_contains hn
    simp only [blankSpans, List.mem_cons, List.not_mem_nil, or_false] at hspan
    rcases hspan with rfl | rfl | rfl | rfl | rfl | rfl | rfl | rfl | rfl | rfl <;>
      simp only at hfirst hlast <;> interval_cases n <;> decide
  rw [isDigit, digitValue?, hpoint c.toNat h]
  rfl

end Text

namespace Granularity

def units : List (List Char × Nat) :=
  [(['m', 's'], 1), (['s'], 1000), (['m'], 60000), (['h'], 3600000), (['d'], 86400000), (['w'], 604800000)]

theorem unit?_eq_some_iff {cs : List Char} {milliseconds : Nat} :
    unit? cs = some milliseconds ↔ (cs, milliseconds) ∈ units := by
  constructor
  · intro h
    unfold unit? at h
    split at h <;> simp_all [units]
  · intro h
    simp only [units, List.mem_cons, Prod.mk.injEq, List.not_mem_nil, or_false] at h
    rcases h with ⟨rfl, rfl⟩ | ⟨rfl, rfl⟩ | ⟨rfl, rfl⟩ | ⟨rfl, rfl⟩ | ⟨rfl, rfl⟩ | ⟨rfl, rfl⟩ <;> rfl

theorem exists_cons_of_mem_units {u : List Char × Nat} (h : u ∈ units) :
    ∃ c cs, u.1 = c :: cs ∧ Text.isDigit c = false ∧ Text.isBlank c = false := by
  simp only [units, List.mem_cons, List.not_mem_nil, or_false] at h
  rcases h with rfl | rfl | rfl | rfl | rfl | rfl <;> exact ⟨_, _, rfl, by decide, by decide⟩

/-- Digits of any script, blanks if any, and a unit of time. -/
inductive Duration.WrittenAs : Duration → List Char → Prop where
  | intro {digits blanks unit : List Char} {milliseconds : Nat} (hdigits : digits ≠ [])
      (hall : ∀ c ∈ digits, Text.isDigit c = true) (hblanks : ∀ c ∈ blanks, Text.isBlank c = true)
      (hunit : (unit, milliseconds) ∈ units) :
      WrittenAs ⟨digits, milliseconds⟩ (digits ++ (blanks ++ unit))

def Duration.width (duration : Duration) : Nat := Text.digitsValue duration.digits * duration.unit

theorem isDigit_head?_of_unit {blanks : List Char} {u : List Char × Nat}
    (hblanks : ∀ c ∈ blanks, Text.isBlank c = true) (hunit : u ∈ units) :
    ∀ c ∈ (blanks ++ u.1).head?, Text.isDigit c = false := by
  intro c hc
  cases blanks with
  | nil =>
    obtain ⟨first, rest, hfirst, hdigit, -⟩ := exists_cons_of_mem_units hunit
    rw [List.nil_append, hfirst] at hc
    obtain rfl : first = c := Option.some.inj hc
    exact hdigit
  | cons blank blanks =>
    obtain rfl : blank = c := Option.some.inj hc
    exact Text.isDigit_of_isBlank (hblanks blank List.mem_cons_self)

/-- A duration by its parts: the digits, and a unit behind the blanks that follow them. -/
theorem Duration.ofChars?_eq (cs : List Char) :
    Duration.ofChars? cs =
      if cs.takeWhile Text.isDigit = [] then none
      else (unit? ((cs.dropWhile Text.isDigit).dropWhile Text.isBlank)).map (⟨cs.takeWhile Text.isDigit, ·⟩) := by
  have hdrop : (cs.takeWhile Text.isDigit ++ cs.dropWhile Text.isDigit).drop
      (cs.takeWhile Text.isDigit).length = cs.dropWhile Text.isDigit := List.drop_left
  rw [List.takeWhile_append_dropWhile] at hdrop
  simp only [Duration.ofChars?, hdrop, List.isEmpty_iff]

theorem Duration.WrittenAs.ofChars? {duration : Duration} {cs : List Char} (h : duration.WrittenAs cs) :
    Duration.ofChars? cs = some duration := by
  cases h with
  | @intro digits blanks unit milliseconds hdigits hall hblanks hunit =>
    have hbehind := isDigit_head?_of_unit hblanks hunit
    have hunitDrop : (blanks ++ unit).dropWhile Text.isBlank = unit := by
      refine Text.dropWhile_append_eq hblanks fun c hc => ?_
      obtain ⟨first, rest, hfirst, -, hblank⟩ := exists_cons_of_mem_units hunit
      rw [show unit = first :: rest from hfirst] at hc
      obtain rfl : first = c := Option.some.inj hc
      exact hblank
    rw [Duration.ofChars?_eq, Text.takeWhile_append_eq hall hbehind, Text.dropWhile_append_eq hall hbehind, hunitDrop,
      if_neg hdigits, unit?_eq_some_iff.2 hunit, Option.map_some]

theorem Duration.writtenAs_of_ofChars? {duration : Duration} {cs : List Char}
    (h : Duration.ofChars? cs = some duration) : duration.WrittenAs cs := by
  rw [Duration.ofChars?_eq] at h
  split_ifs at h with hempty
  obtain ⟨milliseconds, hunit, rfl⟩ := Option.map_eq_some_iff.1 h
  have hwritten : Duration.WrittenAs ⟨cs.takeWhile Text.isDigit, milliseconds⟩
      (cs.takeWhile Text.isDigit ++ ((cs.dropWhile Text.isDigit).takeWhile Text.isBlank ++
        (cs.dropWhile Text.isDigit).dropWhile Text.isBlank)) :=
    .intro hempty (fun c hc => List.mem_takeWhile_imp hc) (fun c hc => List.mem_takeWhile_imp hc)
      (unit?_eq_some_iff.1 hunit)
  rwa [List.takeWhile_append_dropWhile, List.takeWhile_append_dropWhile] at hwritten

def names : List (String × Granularity) :=
  [("none", .full), ("full", .full), ("hourly", .hourly), ("daily", .daily), ("weekly", .weekly),
    ("monthly", .monthly), ("yearly", .yearly)]

/-- What a granularity is written as, in lower case and without blanks around it. -/
inductive Spells : String → Granularity → Prop where
  | name {word : String} {g : Granularity} (h : (word, g) ∈ names) : Spells word g
  | duration {word : String} {duration : Duration} (h : duration.WrittenAs word.toList) :
    Spells word (.window duration.width)

theorem ofWord?_eq_some_iff {word : String} {g : Granularity} : ofWord? word = some g ↔ (word, g) ∈ names := by
  constructor
  · intro h
    unfold ofWord? at h
    split_ifs at h with hnone
    · obtain rfl := Option.some.inj h
      simp [names, hnone]
    · have hword : g.word? = some word := by simpa using List.find?_some h
      cases g <;> simp_all [word?, names]
  · intro h
    simp only [names, List.mem_cons, Prod.mk.injEq, List.not_mem_nil, or_false] at h
    rcases h with ⟨rfl, rfl⟩ | ⟨rfl, rfl⟩ | ⟨rfl, rfl⟩ | ⟨rfl, rfl⟩ | ⟨rfl, rfl⟩ | ⟨rfl, rfl⟩ | ⟨rfl, rfl⟩ <;>
      decide

/-- A name begins with no digit. -/
theorem Duration.WrittenAs.ofWord? {duration : Duration} {word : String} (h : duration.WrittenAs word.toList) :
    Granularity.ofWord? word = none := by
  refine Option.eq_none_iff_forall_ne_some.2 fun g hg => ?_
  have hname : names.all (fun n => n.1.toList.head?.all fun c => !Text.isDigit c) = true := by decide
  obtain ⟨c, hc, hdigit⟩ : ∃ c ∈ word.toList.head?, Text.isDigit c = true := by
    generalize word.toList = cs at h
    cases h with
    | @intro digits blanks unit milliseconds hdigits hall hblanks hunit =>
      obtain ⟨c, rest, rfl⟩ := List.exists_cons_of_ne_nil hdigits
      exact ⟨c, rfl, hall c List.mem_cons_self⟩
  have hnone := List.all_eq_true.1 hname _ (ofWord?_eq_some_iff.1 hg)
  rw [Option.mem_def.1 hc, Option.all_some, hdigit] at hnone
  contradiction

def folded (value : String) : String := Text.lower (Text.trim value)

variable {limit : Option Nat} {value : String}

theorem parseWithin_of_name {g : Granularity} (h : (folded value, g) ∈ names) :
    parseWithin limit value = .ok g := by
  unfold folded at h
  simp only [parseWithin, ofWord?_eq_some_iff.2 h]

theorem parseWithin_of_duration {duration : Duration} (h : duration.WrittenAs (folded value).toList) :
    parseWithin limit value = duration.window limit := by
  unfold folded at h
  simp only [parseWithin, h.ofWord?, h.ofChars?]

theorem parseWithin_of_unspelled (h : ∀ g, ¬ Spells (folded value) g) :
    parseWithin limit value = .error (.service (.invalidGranularity value)) := by
  unfold folded at h
  have hname : Granularity.ofWord? (Text.lower (Text.trim value)) = none :=
    Option.eq_none_iff_forall_ne_some.2 fun g hg => h g (.name (ofWord?_eq_some_iff.1 hg))
  have hduration : Duration.ofChars? (Text.lower (Text.trim value)).toList = none :=
    Option.eq_none_iff_forall_ne_some.2 fun d hd => h _ (.duration (Duration.writtenAs_of_ofChars? hd))
  simp only [parseWithin, hname, hduration]

theorem Duration.window_none (duration : Duration) : duration.window none = .ok (.window duration.width) := by
  simp [Duration.window, Duration.width]

/-- Without a limit for numbers, a granularity is read as what its word spells. -/
theorem parseWithin_none_of_spells {g : Granularity} (h : Spells (folded value) g) :
    parseWithin none value = .ok g := by
  cases h with
  | name h => exact parseWithin_of_name h
  | duration h => rw [parseWithin_of_duration h, Duration.window_none]

theorem parseWithin_none_eq_ok_iff {g : Granularity} :
    parseWithin none value = .ok g ↔ Spells (folded value) g := by
  refine ⟨fun h => ?_, parseWithin_none_of_spells⟩
  by_cases hspelled : ∃ g', Spells (folded value) g'
  · obtain ⟨g', hg'⟩ := hspelled
    rw [parseWithin_none_of_spells hg'] at h
    exact Except.ok.inj h ▸ hg'
  · rw [parseWithin_of_unspelled fun g' hg' => hspelled ⟨g', hg'⟩] at h
    cases h

/-- The limit for numbers is felt by durations alone, and by those of more digits than the limit. -/
theorem parse_eq_or (value : String) : parse value = parseWithin none value ∨
    ∃ duration : Duration, duration.WrittenAs (folded value).toList ∧
      Failure.greatestDigits < duration.digits.length ∧
      parse value = .error (.tooManyDigits duration.digits.length) := by
  by_cases hspelled : ∃ g, Spells (folded value) g
  · obtain ⟨g, hg⟩ := hspelled
    cases hg with
    | name h => exact .inl ((parseWithin_of_name h).trans (parseWithin_of_name h).symm)
    | @duration duration h =>
      rw [parse, parseWithin_of_duration h, parseWithin_of_duration h]
      by_cases hlimit : Failure.greatestDigits < duration.digits.length
      · exact .inr ⟨duration, h, hlimit, by simp [Duration.window, hlimit]⟩
      · exact .inl (by simp [Duration.window, hlimit])
  · have hunspelled : ∀ g, ¬ Spells (folded value) g := fun g hg => hspelled ⟨g, hg⟩
    exact .inl ((parseWithin_of_unspelled hunspelled).trans (parseWithin_of_unspelled hunspelled).symm)

/-- A granularity is read exactly as its word spells, so durations of one width are read alike, and a text that
spells none is refused as it was given. Where numbers have a limit, only durations beyond it are not read. -/
theorem reads_what_is_spelled :
    (∀ value g, parseWithin none value = .ok g ↔ Spells (folded value) g) ∧
    (∀ value, (∀ g, ¬ Spells (folded value) g) →
      parseWithin none value = .error (.service (.invalidGranularity value))) ∧
    (∀ value other (duration duration' : Duration), duration.WrittenAs (folded value).toList →
      duration'.WrittenAs (folded other).toList → duration.width = duration'.width →
        parseWithin none value = .ok (.window duration.width) ∧
        parseWithin none other = .ok (.window duration.width)) ∧
    (∀ value, parse value = parseWithin none value ∨
      ∃ duration : Duration, duration.WrittenAs (folded value).toList ∧
        Failure.greatestDigits < duration.digits.length ∧
        parse value = .error (.tooManyDigits duration.digits.length)) := by
  refine ⟨fun value g => parseWithin_none_eq_ok_iff, fun value => parseWithin_of_unspelled, ?_, parse_eq_or⟩
  intro value other duration duration' h h' hwidth
  refine ⟨parseWithin_none_of_spells (.duration h), ?_⟩
  rw [hwidth]
  exact parseWithin_none_of_spells (.duration h')

/-- A week is a week in days too, with digits of another script. -/
example : parse " 1W " = .ok (.window 604800000) ∧ parse "٠٧\t D" = parse "1w" := by decide +kernel

end Granularity

end NetWorth
