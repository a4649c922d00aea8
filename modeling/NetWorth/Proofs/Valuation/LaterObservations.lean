import NetWorth.Proofs.Timeline.Observations
import NetWorth.Proofs.Valuation.Dependence

/-! # Observations that are stored later

A valuation reads the market of its own date only: of prices the close of a selected asset, or its quote
where there is no close; of rates those from a currency that it meets directly into the reporting one.
Storing any other observation leaves its outcome as it was. -/
namespace NetWorth

theorem PriceKind.word_of_ofWord {word : String} {kind : PriceKind} (h : ofWord word = .ok kind) :
    word = kind.word := by
  unfold ofWord at h
  split_ifs at h with hclose hadjusted hquote
  · obtain rfl := Except.ok.inj h
    exact hclose
  · obtain rfl := Except.ok.inj h
    exact hadjusted
  · obtain rfl := Except.ok.inj h
    exact hquote

/-- What a market store takes in. -/
inductive Observation where
  | price (price : PriceObservation)
  | rate (rate : RateObservation)

namespace MarketStore

def put (store : MarketStore) : Observation → Except Failure MarketStore
  | .price price => store.putPrice price
  | .rate rate => store.putRate rate

/-- The store after an observation was put into it. What is refused leaves it as it was. -/
def record (store : MarketStore) (observation : Observation) : MarketStore :=
  (store.put observation).toOption.getD store

variable {store next : MarketStore} {observation : Observation} {date : Date}

theorem record_of_put (h : store.put observation = .ok next) : store.record observation = next := by
  rw [record, h]
  rfl

theorem record_of_refusal {failure : Failure} (h : store.put observation = .error failure) :
    store.record observation = store := by
  rw [record, h]
  rfl

theorem price?_record {id : AssetId} {kind : PriceKind}
    (h : ∀ price, observation = .price price → price.assetId = id → price.date = date →
      price.kind ≠ kind.word) :
    (store.record observation).price? id date kind = store.price? id date kind := by
  cases hput : store.put observation with
  | error failure => rw [record_of_refusal hput]
  | ok next =>
    rw [record_of_put hput]
    cases observation with
    | rate rate =>
      obtain ⟨kind, -, hnext⟩ := Outcome.andThen_ok_iff.1 hput
      obtain rfl := Outcome.pure_ok_iff.1 hnext
      rfl
    | price price =>
      obtain ⟨found, hfound, hnext⟩ := Outcome.andThen_ok_iff.1 hput
      obtain rfl := Outcome.pure_ok_iff.1 hnext
      refine (Keyed.get?_put _ _ _ _).trans (if_neg fun hkey => ?_)
      simp only [Prod.mk.injEq] at hkey
      obtain ⟨hid, hdate, rfl⟩ := hkey
      exact h price rfl hid hdate (PriceKind.word_of_ofWord hfound)

theorem rate?_record {base quote : String} {kind : RateKind}
    (h : ∀ rate, observation = .rate rate → Currency.storeKey rate.base = Currency.storeKey base →
      Currency.storeKey rate.quote = Currency.storeKey quote → rate.date ≠ date) :
    (store.record observation).rate? base quote date kind = store.rate? base quote date kind := by
  cases hput : store.put observation with
  | error failure => rw [record_of_refusal hput]
  | ok next =>
    rw [record_of_put hput]
    cases observation with
    | price price =>
      obtain ⟨kind, -, hnext⟩ := Outcome.andThen_ok_iff.1 hput
      obtain rfl := Outcome.pure_ok_iff.1 hnext
      rfl
    | rate rate =>
      obtain ⟨found, -, hnext⟩ := Outcome.andThen_ok_iff.1 hput
      obtain rfl := Outcome.pure_ok_iff.1 hnext
      refine (Keyed.get?_put _ _ _ _).trans (if_neg fun hkey => ?_)
      simp only [normalRate, Prod.mk.injEq] at hkey
      exact h rate rfl hkey.1 hkey.2.1 hkey.2.2.1

/-- A store values an asset by the close of the date, else by the quote of the date. -/
theorem outcome_priceOf_reads (store : MarketStore) (asset : Asset) (date : Date) :
    (store.reads.priceOf asset date).outcome = .ok
      ((store.price? (AssetId.ofAsset asset) date .close).or
        (store.price? (AssetId.ofAsset asset) date .quote)) := by
  rw [MarketReads.outcome_priceOf]
  simp only [MarketReads.valuationKinds, MarketReads.firstPrice, reads, bind, Except.bind]
  cases store.price? (AssetId.ofAsset asset) date .close with
  | some price => rfl
  | none => cases store.price? (AssetId.ofAsset asset) date .quote <;> rfl

end MarketStore

@[simp] theorem Asset.isPriced_normalize {asset : Asset} : asset.normalize.IsPriced ↔ asset.IsPriced := by
  cases asset <;> simp only [Asset.normalize, Asset.IsPriced]

namespace MarketReads

variable {market market' : MarketReads} {asset : Asset} {target : String} {date : Date}

theorem convertsFrom_normalize {base : String} :
    market.ConvertsFrom date asset.normalize base ↔ market.ConvertsFrom date asset base := by
  have hprices : ∀ price, market.Prices asset.normalize date price ↔ market.Prices asset date price := by
    intro price
    rw [Prices, Prices, outcome_priceOf, outcome_priceOf, AssetId.ofAsset_normalize]
  cases asset with
  | currency code => simp [Asset.normalize, ConvertsFrom]
  | equity | crypto => exact exists_congr fun price => and_congr_left fun _ => hprices price

theorem rateBetween_congr {base : String}
    (h : market'.rate (Currency.normalize base) (Currency.normalize target) date .close =
      market.rate (Currency.normalize base) (Currency.normalize target) date .close) :
    (market'.rateBetween base target date).outcome = (market.rateBetween base target date).outcome := by
  cases hsame : Currency.same base target with
  | true => simp [rateBetween, hsame]
  | false => rw [outcome_rateBetween _ _ hsame, outcome_rateBetween _ _ hsame, h]

/-- Markets that price an asset alike and convert alike from its currency resolve it alike. -/
theorem resolve_congr
    (hprice : asset.IsPriced → (market'.priceOf asset date).outcome = (market.priceOf asset date).outcome)
    (hrate : ∀ base, market.ConvertsFrom date asset (Currency.normalize base) →
      market'.rate (Currency.normalize base) (Currency.normalize target) date .close =
        market.rate (Currency.normalize base) (Currency.normalize target) date .close) :
    (market'.resolve asset target date).outcome = (market.resolve asset target date).outcome := by
  have hpriced : asset.IsPriced →
      (market'.resolvePriced asset target date).outcome = (market.resolvePriced asset target date).outcome := by
    intro hasset
    simp only [resolvePriced, Journaled.outcome_bind]
    refine Outcome.bind_congr (hprice hasset) fun found hfound => ?_
    cases found with
    | none => rfl
    | some price =>
      simp only [Journaled.outcome_bind]
      refine Outcome.bind_congr rfl fun unit _ => ?_
      split
      · rfl
      · simp only [Journaled.outcome_bind]
        refine Outcome.bind_congr (rateBetween_congr (hrate _ ?_)) fun rate _ => ?_
        · exact convertsFrom_of_prices hasset hfound
        · cases rate <;> rfl
  cases asset with
  | currency code =>
    simp only [resolve, resolveCurrency]
    split
    · rfl
    · simp only [Journaled.outcome_bind]
      refine Outcome.bind_congr (rateBetween_congr (hrate code rfl)) fun rate _ => ?_
      cases rate <;> rfl
  | equity ticker exchange => exact hpriced trivial
  | crypto symbol network => exact hpriced trivial

end MarketReads

namespace Valuation

open Collection (shareLedger shareStore shareQuery shareValuation shares_valued tradingDay)

variable {ledger : LedgerReads} {store : MarketStore} {query : ValuationQuery} {observation : Observation}

/-- The observations that a valuation may notice: of the prices of its date the close of a selected asset,
and the quote if there is no close; the rates of its date from the currency of a selected asset, or of the
price that values it, into the reporting currency. -/
inductive Concerns (ledger : LedgerReads) (store : MarketStore) (query : ValuationQuery) :
    Observation → Prop
  | price {asset : Asset} {price : PriceObservation} (hselects : Selects ledger query asset)
    (hpriced : asset.IsPriced) (hid : price.assetId = AssetId.ofAsset asset)
    (hdate : price.date = query.date)
    (hkind : price.kind = PriceKind.close.word ∨
      price.kind = PriceKind.quote.word ∧ store.price? price.assetId query.date .close = none) :
    Concerns ledger store query (.price price)
  | rate {asset : Asset} {rate : RateObservation} (hselects : Selects ledger query asset)
    (hbase : store.reads.ConvertsFrom query.date asset (Currency.storeKey rate.base))
    (hquote : Currency.storeKey rate.quote = Currency.normalize query.currency)
    (hdate : rate.date = query.date) : Concerns ledger store query (.rate rate)

theorem priceOf_record (h : ¬ Concerns ledger store query observation) {asset : Asset}
    (hselects : Selects ledger query asset) (hpriced : asset.IsPriced) :
    ((store.record observation).reads.priceOf asset query.date).outcome =
      (store.reads.priceOf asset query.date).outcome := by
  have hkept : ∀ kind : PriceKind, (∀ price : PriceObservation, price.assetId = AssetId.ofAsset asset →
      price.date = query.date → price.kind = kind.word → Concerns ledger store query (.price price)) →
      (store.record observation).price? (AssetId.ofAsset asset) query.date kind =
        store.price? (AssetId.ofAsset asset) query.date kind :=
    fun kind hconcerns => MarketStore.price?_record fun price hprice hid hdate hkind =>
      h (hprice ▸ hconcerns price hid hdate hkind)
  have hclose := hkept .close fun price hid hdate hkind => .price hselects hpriced hid hdate (.inl hkind)
  rw [MarketStore.outcome_priceOf_reads, MarketStore.outcome_priceOf_reads, hclose]
  cases hfound : store.price? (AssetId.ofAsset asset) query.date .close with
  | some price => rfl
  | none =>
    rw [hkept .quote fun price hid hdate hkind =>
      .price hselects hpriced hid hdate (.inr ⟨hkind, hid ▸ hfound⟩)]

/-- A valuation has the outcome that it had before an observation was stored, unless the observation
concerns it. -/
theorem later_observation_leaves_valuation (h : ¬ Concerns ledger store query observation) :
    (run ledger (store.record observation).reads query).outcome =
      (run ledger store.reads query).outcome := by
  refine run_congr rfl rfl (fun _ _ => rfl) fun asset hselects => ?_
  refine MarketReads.resolve_congr (fun hpriced => ?_) fun base hfrom => ?_
  · rw [MarketReads.outcome_priceOf, MarketReads.outcome_priceOf, AssetId.ofAsset_normalize,
      ← MarketReads.outcome_priceOf, ← MarketReads.outcome_priceOf]
    exact priceOf_record h hselects (Asset.isPriced_normalize.1 hpriced)
  · refine congrArg Except.ok (MarketStore.rate?_record fun rate hrate hbase hquote hdate => h ?_)
    rw [Currency.storeKey_normalize] at hbase hquote
    rw [MarketReads.convertsFrom_normalize, ← hbase] at hfrom
    exact hrate ▸ .rate hselects hfrom hquote hdate

def dollarRate : RateObservation :=
  ⟨"USD", "EUR", tradingDay, .endOfDay tradingDay, .text "0.8", "close", "feed"⟩

/-- A rate is not turned round: shares in euros that are valued in dollars do not notice the inverse. -/
theorem inverse_rate_leaves_shares : ¬ Concerns shareLedger.reads shareStore shareQuery (.rate dollarRate) ∧
    (run shareLedger.reads (shareStore.record (.rate dollarRate)).reads shareQuery).outcome =
      .ok shareValuation := by
  have hquote : Currency.storeKey dollarRate.quote ≠ Currency.normalize shareQuery.currency := by
    decide +kernel
  have hunconcerned : ¬ Concerns shareLedger.reads shareStore shareQuery (.rate dollarRate) := by
    intro h
    cases h with
    | rate hselects hbase hinto hdate => exact hquote hinto
  exact ⟨hunconcerned, (later_observation_leaves_valuation hunconcerned).trans shares_valued⟩

end Valuation

end NetWorth
