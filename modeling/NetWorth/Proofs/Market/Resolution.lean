import NetWorth.Market.Resolution
import NetWorth.Proofs.Outcome

/-! # The ways to a unit value

A currency is worth one of itself or its rate; anything else is worth its price, converted by the rate
of the price's currency. Every observation that a resolution carries was read from the market under the
identity, the codes and the date that were asked for. -/
namespace NetWorth

/-- An asset that is worth what its price says, other than a currency. -/
def Asset.IsPriced : Asset → Prop
  | .currency _ => False
  | _ => True

namespace MarketReads

def Prices (market : MarketReads) (asset : Asset) (date : Date) (price : PriceObservation) : Prop :=
  (market.priceOf asset date).outcome = .ok (some price)

def Rates (market : MarketReads) (base quote : String) (date : Date) (rate : RateObservation) : Prop :=
  market.rate (Currency.normalize base) (Currency.normalize quote) date .close = .ok (some rate)

/-- How a resolution comes about. -/
inductive Resolves (market : MarketReads) (target : String) (date : Date) : Asset → Resolution → Prop
  | target {code : String} (hsame : Currency.same code target = true) :
    Resolves market target date (.currency code) ⟨some (.finite ⟨false, 1, 0⟩), none, none⟩
  | foreign {code : String} {rate : RateObservation} {factor : Decimal}
    (hforeign : Currency.same code target = false) (hrate : market.Rates code target date rate)
    (hfactor : Amount.read rate.rate (some "rate") = .ok factor) :
    Resolves market target date (.currency code) ⟨some (.finite factor), none, some rate⟩
  | missing {asset : Asset} : Resolves market target date asset .unresolved
  | priced {asset : Asset} {price : PriceObservation} {unit : Decimal}
    (hasset : asset.IsPriced) (hprice : market.Prices asset date price)
    (hunit : Amount.read price.price (some "price") = .ok unit)
    (hsame : Currency.same price.quoteCurrency target = true) :
    Resolves market target date asset ⟨some (.finite unit), some price, none⟩
  | unconverted {asset : Asset} {price : PriceObservation}
    (hasset : asset.IsPriced) (hprice : market.Prices asset date price)
    (hforeign : Currency.same price.quoteCurrency target = false) :
    Resolves market target date asset ⟨none, some price, none⟩
  | converted {asset : Asset} {price : PriceObservation} {rate : RateObservation}
    {unit factor value : Decimal} (hasset : asset.IsPriced) (hprice : market.Prices asset date price)
    (hunit : Amount.read price.price (some "price") = .ok unit)
    (hforeign : Currency.same price.quoteCurrency target = false)
    (hrate : market.Rates price.quoteCurrency target date rate)
    (hfactor : Amount.read rate.rate (some "rate") = .ok factor)
    (hvalue : unit.mul factor = .ok value) :
    Resolves market target date asset ⟨some (.finite value), some price, some rate⟩

variable {market : MarketReads} {target : String} {date : Date}

/-- The price of an asset is the first one of the kinds that value it. -/
theorem outcome_priceOf (market : MarketReads) (asset : Asset) (date : Date) :
    (market.priceOf asset date).outcome =
      market.firstPrice (AssetId.ofAsset asset) date valuationKinds := by
  simp only [priceOf, Journaled.outcome_bind, Journaled.outcome_of]
  cases market.firstPrice (AssetId.ofAsset asset) date valuationKinds with
  | error e => rfl
  | ok found => cases found <;> rfl

theorem Prices.found {asset : Asset} {price : PriceObservation} (h : market.Prices asset date price) :
    ∃ kind, market.price (AssetId.ofAsset asset) date kind = .ok (some price) := by
  rw [Prices, outcome_priceOf] at h
  generalize valuationKinds = kinds at h
  induction kinds with
  | nil => simp [firstPrice] at h
  | cons kind kinds ih =>
    obtain ⟨found, hfound, hrest⟩ := Outcome.andThen_ok_iff.1 h
    cases found with
    | none => exact ih hrest
    | some found =>
      obtain rfl := Option.some.inj (Outcome.pure_ok_iff.1 hrest)
      exact ⟨kind, hfound⟩

/-- Between two currencies the market's own rate is taken, never one that is derived. -/
theorem outcome_rateBetween (market : MarketReads) (date : Date) {base quote : String}
    (hforeign : Currency.same base quote = false) : (market.rateBetween base quote date).outcome =
      market.rate (Currency.normalize base) (Currency.normalize quote) date .close := by
  simp only [rateBetween, hforeign, Bool.false_eq_true, if_false, Journaled.outcome_bind,
    Journaled.outcome_of]
  cases market.rate (Currency.normalize base) (Currency.normalize quote) date .close with
  | error e => rfl
  | ok found => cases found <;> rfl

theorem rateBetween_some {base quote : String} {rate : RateObservation}
    (hforeign : Currency.same base quote = false)
    (h : (market.rateBetween base quote date).outcome = .ok (some rate)) :
    market.Rates base quote date rate :=
  (outcome_rateBetween market date hforeign).symm.trans h

theorem resolves_currency {code : String} {resolution : Resolution}
    (h : (market.resolveCurrency code target date).outcome = .ok resolution) :
    market.Resolves target date (.currency code) resolution := by
  simp only [resolveCurrency] at h
  split at h
  · rename_i hsame
    obtain rfl := Except.ok.inj h
    exact .target hsame
  · rename_i hforeign
    simp only [Journaled.outcome_bind, Outcome.bind_ok_iff] at h
    obtain ⟨rate, hrate, h⟩ := h
    cases rate with
    | none =>
      obtain rfl := Except.ok.inj h
      exact .missing
    | some rate =>
      simp only [Journaled.outcome_bind, Journaled.outcome_of, Outcome.bind_ok_iff] at h
      obtain ⟨factor, hfactor, h⟩ := h
      obtain rfl := Except.ok.inj h
      have hforeign := Bool.eq_false_iff.2 hforeign
      exact .foreign hforeign (rateBetween_some hforeign hrate) hfactor

theorem resolves_priced {asset : Asset} {resolution : Resolution} (hasset : asset.IsPriced)
    (h : (market.resolvePriced asset target date).outcome = .ok resolution) :
    market.Resolves target date asset resolution := by
  simp only [resolvePriced, Journaled.outcome_bind, Outcome.bind_ok_iff] at h
  obtain ⟨price, hprice, h⟩ := h
  cases price with
  | none =>
    obtain rfl := Except.ok.inj h
    exact .missing
  | some price =>
    simp only [Journaled.outcome_bind, Journaled.outcome_of, Outcome.bind_ok_iff] at h
    obtain ⟨unit, hunit, h⟩ := h
    split at h
    · rename_i hsame
      obtain rfl := Except.ok.inj h
      exact .priced hasset hprice hunit hsame
    · rename_i hforeign
      have hforeign := Bool.eq_false_iff.2 hforeign
      simp only [Journaled.outcome_bind, Outcome.bind_ok_iff] at h
      obtain ⟨rate, hrate, h⟩ := h
      cases rate with
      | none =>
        obtain rfl := Except.ok.inj h
        exact .unconverted hasset hprice hforeign
      | some rate =>
        simp only [Journaled.outcome_bind, Journaled.outcome_of, Outcome.bind_ok_iff, Amount.mul,
          Outcome.ofSignal_ok_iff, Number.mul_finite, Outcome.map_ok_iff] at h
        obtain ⟨factor, hfactor, -, ⟨value, hvalue, rfl⟩, h⟩ := h
        obtain rfl := Except.ok.inj h
        exact .converted hasset hprice hunit hforeign (rateBetween_some hforeign hrate) hfactor hvalue

theorem resolves {asset : Asset} {resolution : Resolution}
    (h : (market.resolve asset target date).outcome = .ok resolution) :
    market.Resolves target date asset resolution := by
  cases asset with
  | currency code => exact resolves_currency h
  | equity ticker exchange => exact resolves_priced trivial h
  | crypto symbol network => exact resolves_priced trivial h

theorem Resolves.finite {asset : Asset} {resolution : Resolution}
    (h : market.Resolves target date asset resolution) {unit : Number}
    (hunit : resolution.unitValue = some unit) : ∃ d, unit = .finite d := by
  cases h with
  | missing | unconverted => contradiction
  | target | foreign | priced | converted => exact ⟨_, (Option.some.inj hunit).symm⟩

theorem resolve_target {code : String} (h : Currency.same code target = true) :
    (market.resolve (.currency code) target date).outcome =
      .ok ⟨some (.finite ⟨false, 1, 0⟩), none, none⟩ := by
  simp [resolve, resolveCurrency, h]

end MarketReads

end NetWorth
