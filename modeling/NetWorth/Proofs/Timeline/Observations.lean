import NetWorth.Proofs.Timeline.Contents
import NetWorth.Proofs.Valuation.Selection
import NetWorth.Proofs.Valuation.Workings

/-! # Observations are change points

A valuation and a collection walk the same ledger by different routes: the one looks up single
observations for the balances that count on a date, the other lists all observations for all balances.
Whatever price or rate a row of a valuation shows stands in the timeline at the end of the day. -/
namespace NetWorth

variable {ledger : Ledger} {store : MarketStore}

namespace Ledger

/-- The ledger names an asset in a balance of a participating account. -/
def Names (ledger : Ledger) (asset : Asset) : Prop :=
  ∃ a ∈ ledger.participants [], ∃ s ∈ ledger.snapshotsOf a.id, ∃ b ∈ s.balances, b.asset = .known asset

/-- Currencies that are named under one identity have one code. -/
def CodesAgree (ledger : Ledger) : Prop :=
  ∀ code other, ledger.Names (.currency code) → ledger.Names (.currency other) →
    AssetId.ofAsset (.currency code) = AssetId.ofAsset (.currency other) →
    Currency.normalize code = Currency.normalize other

theorem names_iff {asset : Asset} :
    ledger.Names asset ↔ asset ∈ (ledger.balanceEvents []).filterMap Event.asset? := by
  rw [List.mem_filterMap]
  constructor
  · rintro ⟨a, ha, s, hs, b, hb, hasset⟩
    exact ⟨_, Collection.mem_balanceEvents.2 ⟨a, ha, s, hs, b, hb, asset, hasset, rfl⟩, rfl⟩
  · rintro ⟨event, hevent, hasset⟩
    obtain ⟨a, ha, s, hs, b, hb, named, hnamed, rfl⟩ := Collection.mem_balanceEvents.1 hevent
    obtain rfl := Option.some.inj hasset
    exact ⟨a, ha, s, hs, b, hb, hnamed⟩

end Ledger

namespace Valuation

variable {market : MarketReads} {query : ValuationQuery}

/-- An account with a balance that counts is not left out, and its snapshots are those of the ledger. -/
theorem effectiveBalance_some {account : Account} {effective : EffectiveBalance}
    (h : (effectiveBalance ledger.reads query account).outcome = .ok (some effective)) :
    ledger.excludes account.id = false ∧ ∃ policy, EffectiveBalance.choose account.id
      (ledger.snapshotsOf account.id) policy query.date query.currency = some effective := by
  obtain ⟨overrides, hoverrides, hresult⟩ := effectiveBalance_ok_iff.1 h
  obtain rfl := Except.ok.inj hoverrides
  split at hresult
  · contradiction
  · rename_i hincluded
    obtain ⟨snapshots, policy, hsnapshots, -, hchosen⟩ := hresult
    obtain rfl := Except.ok.inj hsnapshots
    exact ⟨Bool.eq_false_iff.2 hincluded, policy, hchosen.symm⟩

theorem portion_source {valuation : Valuation} (w : Workings ledger.reads market query valuation)
    {p : Portion} (hp : p ∈ w.contributions.flatMap (·.portions)) :
    (∃ asset, ledger.Names asset ∧ p.asset = asset.normalize) ∨
      p.asset = (Asset.currency query.currency).normalize := by
  obtain ⟨effective, heffective, b, hb, asset, hasset, hnormal⟩ :=
    Contribution.source_of_portion w.contributions_eq hp
  rw [hnormal]
  obtain ⟨account, haccount, hchosen⟩ := (mem_effectiveBalances w.balances_eq).1 heffective
  obtain ⟨hincluded, policy, hchoose⟩ := effectiveBalance_some hchosen
  obtain ⟨backfill, s, hs, rfl⟩ | rfl := EffectiveBalance.choose_cases hchoose
  · have haccounts : account ∈ Keyed.values ledger.accounts := by
      rwa [← Except.ok.inj w.accounts_eq] at haccount
    have hparticipant : account ∈ ledger.participants [] := by
      simp [Ledger.participants, haccounts, hincluded]
    exact .inl ⟨asset, ⟨account, hparticipant, s, hs, b, hb, hasset⟩, rfl⟩
  · obtain rfl := List.mem_singleton.1 hb
    obtain rfl := AssetRecord.known.inj hasset
    exact .inr rfl

end Valuation

namespace Collection

variable {options : CollectOptions} {asset : Asset} {date : Date}

theorem names_held (h : ledger.Names asset) :
    AssetId.ofAsset asset ∈ (heldOf (ledger.balanceEvents [])).map Prod.fst :=
  mem_heldIds.2 ⟨asset, Ledger.names_iff.1 h, rfl⟩

theorem price_mem_timeline {currency : String} (h : ledger.Names asset) {price : PriceObservation}
    (hprice : price ∈ store.pricesOf (AssetId.ofAsset asset)) :
    priceEvent (AssetId.ofAsset asset) price ∈ timeline ledger store (observing currency) := by
  have hunder : priceEvent (AssetId.ofAsset asset) price ∈
      pricesUnder store ((heldOf (ledger.balanceEvents [])).map Prod.fst) :=
    List.mem_flatMap.2 ⟨_, names_held h, List.mem_map_of_mem hprice⟩
  rw [timeline, priceEvents_eq]
  exact List.mem_append_left _ (List.mem_append_right _ hunder)

theorem rate_mem_timeline {currency code : String}
    (hmet : code ∈ codesMet store (observing currency) (ledger.balanceEvents []))
    (hforeign : code ≠ Currency.normalize currency) {rate : RateObservation}
    (hrate : rate ∈ store.ratesOf code (Currency.normalize currency)) :
    rateEvent code (Currency.normalize currency) rate ∈ timeline ledger store (observing currency) :=
  List.mem_append_right _ (List.mem_flatMap.2
    ⟨code, mem_foreignCodes.2 ⟨hforeign, hmet⟩, List.mem_map_of_mem hrate⟩)

/-- A currency that is named is met under its code, whichever spelling was named first. -/
theorem code_met (hcodes : ledger.CodesAgree) {code : String} (h : ledger.Names (.currency code))
    (hrates : options.includeRates = true) :
    Currency.normalize code ∈ codesMet store options (ledger.balanceEvents []) := by
  obtain ⟨⟨id, held⟩, hentry, hid⟩ := List.mem_map.1 (names_held h)
  obtain ⟨raw, hfirst, hraw, -⟩ := mem_heldOf.1 hentry
  have hsame : AssetId.ofAsset raw = AssetId.ofAsset (.currency code) := hraw.trans hid
  have hnames : ledger.Names raw := Ledger.names_iff.2 (List.mem_of_find?_eq_some hfirst)
  refine (mem_codesMet hrates).2 (.inl ⟨raw, hfirst, ?_⟩)
  have hkind := AssetId.kind_eq_of_ofAsset_eq hsame
  cases raw with
  | currency other => exact congrArg Asset.currency (hcodes other code hnames h hsame)
  | equity | crypto => simp [AssetId.kind] at hkind

theorem quote_met (h : ledger.Names asset) (hrates : options.includeRates = true)
    {price : PriceObservation} (hprice : price ∈ store.pricesOf (AssetId.ofAsset asset)) :
    Currency.normalize price.quoteCurrency ∈ codesMet store options (ledger.balanceEvents []) :=
  (mem_codesMet hrates).2 (.inr ⟨_, names_held h, price, hprice, rfl⟩)

end Collection

namespace MarketReads

/-- The currency that a rate converts an asset from: its own, or that of the price that values it. -/
def ConvertsFrom (market : MarketReads) (date : Date) : Asset → String → Prop
  | .currency code, base => base = Currency.normalize code
  | asset, base => ∃ price, market.Prices asset date price ∧ base = Currency.normalize price.quoteCurrency

theorem convertsFrom_of_prices {market : MarketReads} {date : Date} {asset : Asset}
    {price : PriceObservation} (hasset : asset.IsPriced) (h : market.Prices asset date price) :
    market.ConvertsFrom date asset (Currency.normalize price.quoteCurrency) := by
  cases asset with
  | currency => exact hasset.elim
  | equity | crypto => exact ⟨price, h, rfl⟩

end MarketReads

namespace Collection

open MarketReads (ConvertsFrom)

variable {asset : Asset} {date : Date} {currency : String}

theorem Prices.mem_timeline (hstore : store.Recorded) (hnames : ledger.Names asset)
    {price : PriceObservation} (h : store.reads.Prices asset.normalize date price) :
    price ∈ store.pricesOf (AssetId.ofAsset asset) ∧
      ⟨.endOfDay date, .price (AssetId.ofAsset asset)⟩ ∈ timeline ledger store (observing currency) := by
  obtain ⟨kind, hfound⟩ := h.found
  rw [AssetId.ofAsset_normalize] at hfound
  obtain ⟨hmem, rfl⟩ := hstore.mem_pricesOf (Except.ok.inj hfound)
  exact ⟨hmem, price_mem_timeline hnames hmem⟩

theorem Rates.mem_timeline (hstore : store.Recorded) {base : String}
    (hmet : Currency.normalize base ∈ codesMet store (observing currency) (ledger.balanceEvents []))
    (hforeign : Currency.same base currency = false) {rate : RateObservation}
    (h : store.reads.Rates base currency date rate) :
    ⟨.endOfDay date, .rate (Currency.normalize base) (Currency.normalize currency)⟩ ∈
      timeline ledger store (observing currency) := by
  obtain ⟨hmem, rfl⟩ := hstore.mem_ratesOf (Except.ok.inj h)
  exact rate_mem_timeline hmet (by simpa [Currency.same] using hforeign) hmem

/-- What resolves an asset that is named stands in the timeline at the end of the day. -/
theorem resolved_mem_timeline (hstore : store.Recorded) (hcodes : ledger.CodesAgree)
    (hnames : ledger.Names asset) {resolution : Resolution}
    (h : store.reads.Resolves currency date asset.normalize resolution) :
    (resolution.price.isSome →
      ⟨.endOfDay date, .price (AssetId.ofAsset asset)⟩ ∈ timeline ledger store (observing currency)) ∧
    (resolution.rate.isSome → ∃ base, store.reads.ConvertsFrom date asset.normalize base ∧
      ⟨.endOfDay date, .rate base (Currency.normalize currency)⟩ ∈
        timeline ledger store (observing currency)) := by
  generalize hnormal : asset.normalize = normal at h
  cases h with
  | target | missing => exact ⟨nofun, nofun⟩
  | @foreign code rate factor hforeign hrate =>
    refine ⟨by simp, fun _ => ⟨_, rfl, ?_⟩⟩
    cases asset with
    | equity | crypto => simp [Asset.normalize] at hnormal
    | currency raw =>
      obtain rfl := Asset.currency.inj hnormal
      refine Rates.mem_timeline hstore ?_ hforeign hrate
      rw [Currency.normalize_normalize]
      exact code_met hcodes hnames rfl
  | priced hasset hprice | unconverted hasset hprice =>
    subst hnormal
    exact ⟨fun _ => (Prices.mem_timeline hstore hnames hprice).2, by simp⟩
  | @converted _ price rate unit factor value hasset hprice hunit hforeign hrate =>
    subst hnormal
    obtain ⟨hmem, hevent⟩ := Prices.mem_timeline hstore hnames hprice
    refine ⟨fun _ => hevent, fun _ => ⟨_, MarketReads.convertsFrom_of_prices hasset hprice, ?_⟩⟩
    exact Rates.mem_timeline hstore (quote_met hnames rfl hmem) hforeign hrate

variable {query : ValuationQuery} {valuation : Valuation}

theorem row_mem_timeline (hstore : store.Recorded) (hcodes : ledger.CodesAgree)
    (w : Workings ledger.reads store.reads query valuation) {row : AssetRow × Option Number}
    (hrow : row ∈ w.rows) :
    (row.1.price.isSome → ⟨.endOfDay query.date, .price (AssetId.ofAsset row.1.asset)⟩ ∈
      timeline ledger store (observing query.currency)) ∧
    (row.1.rate.isSome → ∃ base, store.reads.ConvertsFrom query.date row.1.asset base ∧
      ⟨.endOfDay query.date, .rate base (Currency.normalize query.currency)⟩ ∈
        timeline ledger store (observing query.currency)) := by
  obtain ⟨p, hp, resolution, hasset, hresolve, hprice, hrate⟩ := w.row_origin hrow
  rw [hprice, hrate, hasset]
  obtain ⟨asset, hnames, hnormal⟩ | hzero := Valuation.portion_source w hp
  · rw [hnormal, AssetId.ofAsset_normalize]
    rw [hnormal] at hresolve
    exact resolved_mem_timeline hstore hcodes hnames (MarketReads.resolves hresolve)
  · -- a zero of the policy is already in the reporting currency
    have hsame : Currency.same (Currency.normalize query.currency) query.currency = true := by
      rw [Currency.same_normalize]
      exact Currency.same_refl _
    have htarget := (MarketReads.resolve_target hsame).symm.trans (hzero ▸ hresolve)
    obtain rfl := Except.ok.inj htarget
    exact ⟨nofun, nofun⟩

/-- A point at the end of a day has what a row shows of that day. -/
structure Shows (market : MarketReads) (date : Date) (currency : String) (row : AssetRow)
    (point : ChangePoint) : Prop where
  moment : point.timestamp.moment = (Timestamp.endOfDay date).moment
  price : row.price.isSome → .price (AssetId.ofAsset row.asset) ∈ point.triggers
  rate : row.rate.isSome → ∃ base, market.ConvertsFrom date row.asset base ∧
    .rate base (Currency.normalize currency) ∈ point.triggers

/-- A collection answers if the balances are of assets, and where it answers, every price and every rate
that a row of a valuation shows is a trigger of the point at the end of the day. -/
theorem observations_are_points {rows : List AssetRow} (hledger : ledger.Recorded)
    (hstore : store.Recorded) (hcurrency : query.currency.isEmpty = false) (hcodes : ledger.CodesAgree)
    (h : (Valuation.run ledger.reads store.reads query).outcome = .ok valuation)
    (hrows : valuation.byAsset = some rows) :
    (ledger.AssetsKnown [] → ∃ points,
      (run ledger.reads store.reads (observing query.currency)).outcome = .ok points) ∧
    ∀ points, (run ledger.reads store.reads (observing query.currency)).outcome = .ok points →
      ∀ row ∈ rows, row.price.isSome ∨ row.rate.isSome →
        ∃ point ∈ points, Shows store.reads query.date query.currency row point := by
  have hanswerable : Answerable ledger (observing query.currency) := ⟨fun _ => hcurrency, .inl rfl⟩
  refine ⟨exists_points hledger.aware hanswerable, fun points hpoints row hrow hshown => ?_⟩
  obtain ⟨w⟩ := nonempty_workings h
  obtain ⟨-, -, hfinish⟩ := run_ok_iff.1 hpoints
  have hpointsOf := Collector.pointsOf_of_finish (timeline_prices_pairwise _ _ _) hfinish
  have hmem : row ∈ w.rows.map Prod.fst := by
    have hbyAsset := w.byAsset_eq
    rw [hrows] at hbyAsset
    split at hbyAsset
    · rwa [← Option.some.inj hbyAsset]
    · contradiction
  obtain ⟨drawn, hdrawn, rfl⟩ := List.mem_map.1 hmem
  obtain ⟨hprice, hrate⟩ := row_mem_timeline hstore hcodes w hdrawn
  obtain ⟨event, hevent, hmoment⟩ : ∃ event ∈ timeline ledger store (observing query.currency),
      event.moment = (Timestamp.endOfDay query.date).moment := by
    rcases hshown with hshown | hshown
    · exact ⟨_, hprice hshown, rfl⟩
    · obtain ⟨base, -, hbase⟩ := hrate hshown
      exact ⟨_, hbase, rfl⟩
  obtain ⟨point, hpoint, hat⟩ := hpointsOf.covers event hevent
  have hmoment := hat.trans hmoment
  refine ⟨point, hpoint, hmoment, fun hsome => hpointsOf.mem_triggers hpoint (hprice hsome) hmoment, ?_⟩
  intro hsome
  obtain ⟨base, hfrom, hbase⟩ := hrate hsome
  exact ⟨base, hfrom, hpointsOf.mem_triggers hpoint hbase hmoment⟩

theorem shareLedger_recorded : shareLedger.Recorded :=
  .snapshot "depot" (.endOfDay tradingDay) _ (.account _ (.connection _ .empty))

theorem shareStore_recorded : shareStore.Recorded := by
  have hprice : MarketStore.empty.putPrice sharePrice =
    .ok ⟨[((⟨"equity/ACME"⟩, tradingDay, .close), sharePrice)], []⟩ := rfl
  have hnormal : MarketStore.normalRate euroRate = euroRate := by
    have hbase : Currency.storeKey "EUR" = "EUR" := by decide +kernel
    have hquote : Currency.storeKey "USD" = "USD" := by decide +kernel
    simp [MarketStore.normalRate, euroRate, hbase, hquote]
  refine @MarketStore.Recorded.rate _ _ euroRate (.price .empty hprice) ?_
  unfold MarketStore.putRate
  rw [hnormal]
  rfl

theorem shareLedger_codesAgree : shareLedger.CodesAgree := by
  have hassets : (shareLedger.balanceEvents []).filterMap Event.asset? = [acme] := by decide +kernel
  intro code other hcode
  rw [Ledger.names_iff, hassets, List.mem_singleton] at hcode
  contradiction

def shareQuery : ValuationQuery := ⟨tradingDay, "USD", none, false, none⟩

def shareRow : AssetRow :=
  ⟨.equity "ACME" none, "10", tradingDay, some "7.5", some tradingDay, some (.endOfDay tradingDay),
    some "1.2", some tradingDay, some "90", none⟩

def shareValuation : Valuation :=
  ⟨tradingDay, "USD", "90", some [shareRow], some [⟨"depot", "Depot", "Broker", some "90"⟩]⟩

theorem shares_valued :
    (Valuation.run shareLedger.reads shareStore.reads shareQuery).outcome = .ok shareValuation :=
  Outcome.ok_of_toOption (by decide +kernel)

/-- The price and the rate behind the worth of the shares are triggers of the day's point. -/
theorem share_row_is_shown : shareRow.price.isSome ∧ shareRow.rate.isSome ∧
    ∃ point ∈ sharePoints, Shows shareStore.reads tradingDay "USD" shareRow point :=
  ⟨rfl, rfl, (observations_are_points shareLedger_recorded shareStore_recorded rfl shareLedger_codesAgree
    shares_valued rfl).2 sharePoints shares_collected shareRow List.mem_cons_self (.inl rfl)⟩

end Collection

end NetWorth
