import NetWorth.Proofs.Valuation.LaterObservations

/-! # Stored rates under other spellings

Rates are stored under their trimmed codes in upper case and looked up under the codes that stand for all
spellings. The two agree on every code but the numeric one, so of the rates for a pair and a date the last
one stored is found, whatever its spelling, unless it was stored under a numeric code. -/
namespace NetWorth

namespace Currency

def isNumeric (code : String) : Bool := Text.trimChars code.toList = ['8', '4', '0']

theorem normalize_of_letters {code : String} (h : isNumeric code = false) :
    normalize code = storeKey code := by
  have hletters : Text.trimChars code.toList ≠ ['8', '4', '0'] := by simpa [isNumeric] using h
  rw [normalize, normalChars, if_neg hletters, storeKey, Text.upper, Text.toList_trim]

theorem storeKey_of_numeric {code : String} (h : isNumeric code = true) : storeKey code = "840" := by
  have hdigits : Text.trimChars code.toList = ['8', '4', '0'] := by simpa [isNumeric] using h
  rw [storeKey, Text.upper, Text.toList_trim, hdigits]
  decide +kernel

/-- No spelling stands under the number. -/
theorem normalize_ne_number (code : String) : normalize code ≠ "840" := by
  intro h
  cases hnumeric : isNumeric code with
  | true =>
    have hdollar : normalize code = "USD" := by
      rw [normalize, normalChars, if_pos (by simpa [isNumeric] using hnumeric)]
    exact absurd (hdollar.symm.trans h) (by decide)
  | false =>
    rw [normalize_of_letters hnumeric, storeKey] at h
    have hchars : Text.upperChars (Text.trimChars code.toList) = ['8', '4', '0'] := by
      rw [← Text.toList_trim, ← Text.toList_upper, h]
      rfl
    have htrimmed := Text.eq_of_upperChars_digits hchars (by simp)
    simp [isNumeric, htrimmed] at hnumeric

/-- What is stored under a code is found for the spellings of its currency, unless it is numeric. -/
theorem storeKey_eq_normalize_iff {code other : String} :
    storeKey code = normalize other ↔ same code other = true ∧ isNumeric code = false := by
  cases hnumeric : isNumeric code with
  | true =>
    rw [storeKey_of_numeric hnumeric]
    simpa using (normalize_ne_number other).symm
  | false => simp [same, normalize_of_letters hnumeric]

end Currency

namespace RateObservation

/-- A rate for the pair on the date, whichever way its codes are spelled. -/
def answers (base quote : String) (date : Date) (rate : RateObservation) : Bool :=
  rate.kind = RateKind.close.word && rate.date = date && Currency.same rate.base base
    && Currency.same rate.quote quote

/-- Neither code of the rate is numeric. -/
def inLetters (rate : RateObservation) : Bool :=
  !Currency.isNumeric rate.base && !Currency.isNumeric rate.quote

def normal (rate : RateObservation) : RateObservation :=
  { rate with base := Currency.normalize rate.base, quote := Currency.normalize rate.quote }

theorem answers_inLetters_iff {base quote : String} {date : Date} {rate : RateObservation} :
    (rate.answers base quote date && rate.inLetters) = true ↔ rate.kind = RateKind.close.word ∧
      Currency.storeKey rate.base = Currency.normalize base ∧
      Currency.storeKey rate.quote = Currency.normalize quote ∧ rate.date = date := by
  simp only [answers, inLetters, Bool.and_eq_true, decide_eq_true_eq, Bool.not_eq_true',
    Currency.storeKey_eq_normalize_iff]
  constructor
  · rintro ⟨⟨⟨⟨hkind, hdate⟩, hbase⟩, hquote⟩, hbaseLetters, hquoteLetters⟩
    exact ⟨hkind, ⟨hbase, hbaseLetters⟩, ⟨hquote, hquoteLetters⟩, hdate⟩
  · rintro ⟨hkind, ⟨hbase, hbaseLetters⟩, ⟨hquote, hquoteLetters⟩, hdate⟩
    exact ⟨⟨⟨⟨hkind, hdate⟩, hbase⟩, hquote⟩, hbaseLetters, hquoteLetters⟩

theorem normal_of_inLetters {rate : RateObservation} (h : rate.inLetters = true) :
    MarketStore.normalRate rate = rate.normal := by
  simp only [inLetters, Bool.and_eq_true, Bool.not_eq_true'] at h
  rw [MarketStore.normalRate, normal, Currency.normalize_of_letters h.1, Currency.normalize_of_letters h.2]

end RateObservation

theorem RateKind.ofWord_close : RateKind.ofWord RateKind.close.word = .ok .close := rfl

theorem RateKind.ofWord_of_ne {word : String} (h : word ≠ RateKind.close.word) :
    RateKind.ofWord word = .error (.unknownWord word .rateKind) := if_neg h

namespace MarketStore

variable {base quote : String} {date : Date}

/-- The store after rates were put into it one after another. What is refused leaves it as it was. -/
def afterRates (rates : List RateObservation) : MarketStore :=
  rates.foldl (fun store rate => store.record (.rate rate)) .empty

/-- The last of the rates for the pair on the date, with its codes in normal form. -/
def lastRate? (base quote : String) (date : Date) (rates : List RateObservation) :
    Option RateObservation :=
  ((rates.filter (·.answers base quote date)).getLast?).map (·.normal)

@[simp] theorem normalRate_base (rate : RateObservation) :
    (normalRate rate).base = Currency.storeKey rate.base := rfl

@[simp] theorem normalRate_quote (rate : RateObservation) :
    (normalRate rate).quote = Currency.storeKey rate.quote := rfl

@[simp] theorem normalRate_date (rate : RateObservation) : (normalRate rate).date = rate.date := by
  simp only [normalRate]

@[simp] theorem normalRate_kind (rate : RateObservation) : (normalRate rate).kind = rate.kind := by
  simp only [normalRate]

theorem put_close_rate (store : MarketStore) {rate : RateObservation}
    (h : rate.kind = RateKind.close.word) :
    store.put (.rate rate) = .ok ⟨store.prices, Keyed.put
      ((normalRate rate).base, (normalRate rate).quote, (normalRate rate).date, .close)
      (normalRate rate) store.rates⟩ := by
  simp only [put, putRate, h, RateKind.ofWord_close]
  generalize normalRate rate = kept
  rfl

theorem rate?_record_rate (store : MarketStore) (rate : RateObservation) :
    (store.record (.rate rate)).rate? (Currency.normalize base) (Currency.normalize quote) date .close =
      if rate.answers base quote date && rate.inLetters then some rate.normal
      else store.rate? (Currency.normalize base) (Currency.normalize quote) date .close := by
  by_cases hkind : rate.kind = RateKind.close.word
  · rw [record_of_put (store.put_close_rate hkind), rate?, rate?, Keyed.get?_put]
    have hkey : ((normalRate rate).base, (normalRate rate).quote, (normalRate rate).date, RateKind.close) =
        (Currency.normalize base, Currency.normalize quote, date, RateKind.close) ↔
        (rate.answers base quote date && rate.inLetters) = true := by
      rw [RateObservation.answers_inLetters_iff]
      simp [hkind]
    simp only [Currency.storeKey_normalize, hkey]
    refine ite_congr rfl (fun hanswers => ?_) fun _ => rfl
    rw [RateObservation.normal_of_inLetters (Bool.and_eq_true_iff.1 hanswers).2]
  · have hput : store.put (.rate rate) = .error (.unknownWord rate.kind .rateKind) := by
      simp only [put, putRate, RateKind.ofWord_of_ne hkind]
      rfl
    have hanswers : rate.answers base quote date = false := by simp [RateObservation.answers, hkind]
    simp [record_of_refusal hput, hanswers]

theorem rate?_afterRates (rates : List RateObservation) :
    (afterRates rates).rate? (Currency.normalize base) (Currency.normalize quote) date .close =
      lastRate? base quote date (rates.filter (·.inLetters)) := by
  induction rates using List.reverseRecOn with
  | nil => rfl
  | append_singleton rates rate ih =>
    rw [afterRates, List.foldl_append, List.foldl_cons, List.foldl_nil, rate?_record_rate]
    rw [afterRates] at ih
    rw [ih, lastRate?, lastRate?, List.filter_append, List.filter_append]
    cases hletters : rate.inLetters with
    | false => simp [hletters]
    | true => cases hanswers : rate.answers base quote date <;> simp [hletters, hanswers]

theorem lastRate?_eq_none {rates : List RateObservation} :
    lastRate? base quote date rates = none ↔ ∀ rate ∈ rates, rate.answers base quote date = false := by
  simp [lastRate?]

/-- Between two currencies the last rate that was stored for the date is found, whichever way it and the
question are spelled, provided that its codes are not numeric; without such a rate there is none. -/
theorem last_stored_rate_is_found (rates : List RateObservation) (hforeign : Currency.same base quote = false) :
    ((afterRates rates).reads.rateBetween base quote date).outcome =
        .ok (lastRate? base quote date (rates.filter (·.inLetters))) ∧
      ((∀ rate ∈ rates, rate.answers base quote date = true → rate.inLetters = true) →
        ((afterRates rates).reads.rateBetween base quote date).outcome =
          .ok (lastRate? base quote date rates)) ∧
      (((afterRates rates).reads.rateBetween base quote date).outcome = .ok none ↔
        ∀ rate ∈ rates, rate.answers base quote date = true → rate.inLetters = false) := by
  have hfound : ((afterRates rates).reads.rateBetween base quote date).outcome =
      .ok (lastRate? base quote date (rates.filter (·.inLetters))) := by
    rw [MarketReads.outcome_rateBetween _ _ hforeign]
    exact congrArg Except.ok (rate?_afterRates rates)
  refine ⟨hfound, fun hletters => ?_, ?_⟩
  · have hsame : (rates.filter (·.inLetters)).filter (·.answers base quote date) =
        rates.filter (·.answers base quote date) := by
      rw [List.filter_filter]
      refine List.filter_congr fun rate hrate => ?_
      cases hanswers : rate.answers base quote date with
      | false => rfl
      | true => simpa using hletters rate hrate hanswers
    rw [hfound, lastRate?, lastRate?, hsame]
  · rw [hfound, Except.ok.injEq, lastRate?_eq_none]
    simp only [List.mem_filter, and_imp]
    refine forall₂_congr fun rate _ => ?_
    cases rate.answers base quote date <;> cases rate.inLetters <;> simp

def leapDay : Date := ⟨738944, by decide⟩

def dollarRate (base : String) (rate : String) : RateObservation :=
  ⟨base, "EUR", leapDay, .endOfDay leapDay, .text rate, "close", "feed"⟩

/-- A rate that was stored under the number of a currency is not found under any spelling. -/
theorem numeric_rate_is_not_found : Currency.same "USD" "EUR" = false ∧
    (dollarRate "840" "0.9").answers "USD" "EUR" leapDay = true ∧
    ((afterRates [dollarRate "840" "0.9"]).reads.rateBetween "USD" "EUR" leapDay).outcome = .ok none := by
  have hforeign : Currency.same "USD" "EUR" = false := by decide +kernel
  have hnone : ((afterRates [dollarRate "840" "0.9"]).rate? (Currency.normalize "USD")
      (Currency.normalize "EUR") leapDay .close).isNone = true := by decide +kernel
  refine ⟨hforeign, by decide +kernel, ?_⟩
  rw [MarketReads.outcome_rateBetween _ _ hforeign]
  exact congrArg Except.ok (Option.isNone_iff_eq_none.1 hnone)

/-- The later of two rates is found, each of them and the question spelled in its own way. -/
theorem later_rate_is_found : Currency.same "840" " eur" = false ∧
    ((afterRates [dollarRate "USD" "0.8", dollarRate " usd " "0.9"]).reads.rateBetween "840" " eur"
      leapDay).outcome = .ok (some (dollarRate "USD" "0.9")) := by
  have hforeign : Currency.same "840" " eur" = false := by decide +kernel
  have hearlier : (dollarRate "USD" "0.8").answers "840" " eur" leapDay = true ∧
      (dollarRate "USD" "0.8").inLetters = true := by decide +kernel
  have hlater : (dollarRate " usd " "0.9").answers "840" " eur" leapDay = true ∧
      (dollarRate " usd " "0.9").inLetters = true := by decide +kernel
  have hnormal : (dollarRate " usd " "0.9").normal = dollarRate "USD" "0.9" := by
    have hbase : Currency.normalize " usd " = "USD" := by decide +kernel
    have hquote : Currency.normalize "EUR" = "EUR" := by decide +kernel
    simp only [dollarRate, RateObservation.normal, hbase, hquote]
  refine ⟨hforeign, ((last_stored_rate_is_found _ hforeign).2.1 ?_).trans ?_⟩
  · simp [hearlier.2, hlater.2]
  · simp [lastRate?, hearlier.1, hlater.1, hnormal]

end MarketStore

end NetWorth
