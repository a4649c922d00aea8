import NetWorth.Proofs.Valuation.LaterObservations

/-! # Spellings

Assets of one normal form and codes of one currency are interchangeable: worlds that differ in such
spellings only are valued alike, down to the failure where there is one. Every step of a valuation looks
at a spelling through its normal form, so the two runs are followed side by side. -/
namespace NetWorth

namespace Keyed

variable {κ α : Type} {R : α → α → Prop} {m m' : Keyed κ α}

/-- The same keys in one order, with related values under them. -/
abbrev Rel (R : α → α → Prop) : Keyed κ α → Keyed κ α → Prop :=
  List.Forall₂ fun e e' => e'.1 = e.1 ∧ R e.2 e'.2

theorem Rel.get? [DecidableEq κ] (h : Rel R m m') (key : κ) :
    Option.Rel R (Keyed.get? key m) (Keyed.get? key m') := by
  induction h with
  | nil => exact .none
  | @cons e e' rest rest' he _ ih =>
    obtain ⟨k, a⟩ := e
    obtain ⟨k', a'⟩ := e'
    obtain ⟨rfl, ha⟩ := he
    rw [get?_cons, get?_cons]
    split
    · exact .some ha
    · exact ih

end Keyed

/-- The same amount of an asset, which may be spelled differently. -/
structure Balance.Respelled (b b' : Balance) : Prop where
  asset : b'.asset.normalize = b.asset.normalize
  amount : b'.amount = b.amount

structure BalanceSnapshot.Respelled (s s' : BalanceSnapshot) : Prop where
  timestamp : s'.timestamp = s.timestamp
  balances : List.Forall₂ Balance.Respelled s.balances s'.balances

/-- The same records, in which assets may be spelled differently. -/
structure Ledger.Respelled (ledger ledger' : Ledger) : Prop where
  connections : ledger'.connections = ledger.connections
  accounts : ledger'.accounts = ledger.accounts
  overrides : ledger'.overrides = ledger.overrides
  snapshots : ∀ id, List.Forall₂ BalanceSnapshot.Respelled (ledger.snapshotsOf id) (ledger'.snapshotsOf id)

/-- The same price, whose currency may be spelled differently. -/
structure PriceObservation.Respelled (p p' : PriceObservation) : Prop where
  quoteCurrency : Currency.same p.quoteCurrency p'.quoteCurrency = true
  rest : p' = { p with quoteCurrency := p'.quoteCurrency }

/-- The same observations, in which the currencies of prices may be spelled differently. -/
structure MarketStore.Respelled (store store' : MarketStore) : Prop where
  prices : Keyed.Rel PriceObservation.Respelled store.prices store'.prices
  rates : store'.rates = store.rates

theorem Currency.same_congr {a a' b b' : String} (ha : same a a' = true) (hb : same b b' = true) :
    same a' b' = same a b := by
  simp only [same, decide_eq_true_eq] at ha hb ⊢
  rw [ha, hb]

namespace BalanceSnapshot

variable {snapshots snapshots' : List BalanceSnapshot}

/-- Lists whose elements correspond and rank alike have corresponding greatest elements. -/
theorem argmax_rel {α β : Type} [LinearOrder β] {R : α → α → Prop} {f : α → β}
    (hf : ∀ a a', R a a' → f a' = f a) {xs xs' : List α} (h : List.Forall₂ R xs xs') :
    Option.Rel R (xs.argmax f) (xs'.argmax f) := by
  induction h with
  | nil => exact .none
  | @cons a a' xs xs' ha _ ih =>
    rw [List.argmax_cons, List.argmax_cons]
    generalize xs.argmax f = found at ih
    generalize xs'.argmax f = found' at ih
    cases ih with
    | none => exact .some ha
    | some hb =>
      simp only [hf _ _ ha, hf _ _ hb]
      split
      · exact .some hb
      · exact .some ha

theorem latest_respelled (h : List.Forall₂ Respelled snapshots snapshots') :
    Option.Rel Respelled (latest snapshots) (latest snapshots') := by
  rw [latest_eq_argmax, latest_eq_argmax]
  exact argmax_rel (fun s s' hs => by rw [hs.timestamp]) h

theorem earliest_respelled (h : List.Forall₂ Respelled snapshots snapshots') :
    Option.Rel Respelled (earliest snapshots) (earliest snapshots') := by
  rw [earliest_eq_argmin, earliest_eq_argmin]
  exact argmax_rel (β := Intᵒᵈ) (fun s s' hs => by rw [hs.timestamp]) h

theorem takenBy_respelled (h : List.Forall₂ Respelled snapshots snapshots') (date : Date) :
    List.Forall₂ Respelled (takenBy snapshots date) (takenBy snapshots' date) := by
  refine List.rel_filter (fun s s' hs => ?_) h
  simp only [hs.timestamp]

end BalanceSnapshot

/-- The same contribution of an account, in which assets may be spelled differently. -/
structure EffectiveBalance.Respelled (e e' : EffectiveBalance) : Prop where
  accountId : e'.accountId = e.accountId
  timestamp : e'.timestamp = e.timestamp
  backfill : e'.backfill = e.backfill
  balances : List.Forall₂ Balance.Respelled e.balances e'.balances

namespace EffectiveBalance

theorem ofSnapshot_respelled (accountId : String) (backfill : Option Backfill) {s s' : BalanceSnapshot}
    (h : s.Respelled s') : (ofSnapshot accountId backfill s).Respelled (ofSnapshot accountId backfill s') :=
  ⟨rfl, h.timestamp, rfl, h.balances⟩

theorem zero_respelled (accountId : String) (date : Date) {currency currency' : String}
    (h : Currency.same currency currency' = true) :
    (zero accountId date currency).Respelled (zero accountId date currency') := by
  have hcode : Currency.normalize currency' = Currency.normalize currency := by
    simpa [Currency.same, eq_comm] using h
  refine ⟨rfl, rfl, rfl, .cons ⟨?_, rfl⟩ .nil⟩
  simp [Asset.normalize, hcode]

theorem choose_respelled (accountId : String) {snapshots snapshots' : List BalanceSnapshot}
    (h : List.Forall₂ BalanceSnapshot.Respelled snapshots snapshots') (policy : Backfill) (date : Date)
    {currency currency' : String} (hcurrency : Currency.same currency currency' = true) :
    Option.Rel Respelled (choose accountId snapshots policy date currency)
      (choose accountId snapshots' policy date currency') := by
  unfold choose
  have hlatest := BalanceSnapshot.latest_respelled (BalanceSnapshot.takenBy_respelled h date)
  generalize BalanceSnapshot.latest (BalanceSnapshot.takenBy snapshots date) = found at hlatest
  generalize BalanceSnapshot.latest (BalanceSnapshot.takenBy snapshots' date) = found' at hlatest
  cases hlatest with
  | some hs => exact .some (ofSnapshot_respelled accountId none hs)
  | none =>
    cases policy with
    | none => exact .none
    | zero => exact .some (zero_respelled accountId date hcurrency)
    | carryEarliest =>
      have hearliest := BalanceSnapshot.earliest_respelled h
      generalize BalanceSnapshot.earliest snapshots = found at hearliest
      generalize BalanceSnapshot.earliest snapshots' = found' at hearliest
      cases hearliest with
      | some hs => exact .some (ofSnapshot_respelled accountId (some .carryEarliest) hs)
      | none => exact .none

end EffectiveBalance

namespace Valuation

variable {ledger ledger' : Ledger} {query : ValuationQuery} {currency : String}

theorem effectiveBalance_respelled (h : ledger.Respelled ledger')
    (hcurrency : Currency.same query.currency currency = true) (account : Account) :
    Outcome.Alike (Option.Rel EffectiveBalance.Respelled)
      (effectiveBalance ledger.reads query account).outcome
      (effectiveBalance ledger'.reads { query with currency := currency } account).outcome := by
  simp only [effectiveBalance, Journaled.outcome_bind, Journaled.outcome_of]
  refine (Outcome.alike_of_eq (by simp only [Ledger.reads, h.overrides])).bind ?_
  rintro overrides - rfl
  split
  · exact .ok .none
  · simp only [Journaled.outcome_bind, Journaled.outcome_of, EffectiveBalance.select_outcome]
    refine (Outcome.Alike.ok (h.snapshots account.id)).bind fun snapshots snapshots' hsnapshots => ?_
    refine (Outcome.alike_of_eq rfl).bind ?_
    rintro policy - rfl
    exact .ok (EffectiveBalance.choose_respelled account.id hsnapshots policy query.date hcurrency)

theorem effectiveBalances_respelled (h : ledger.Respelled ledger')
    (hcurrency : Currency.same query.currency currency = true) (accounts : List Account) :
    Outcome.Alike (List.Forall₂ EffectiveBalance.Respelled)
      (effectiveBalances ledger.reads query accounts).outcome
      (effectiveBalances ledger'.reads { query with currency := currency } accounts).outcome := by
  simp only [effectiveBalances, Journaled.outcome_bind, Journaled.outcome_mapM, Journaled.outcome_pure]
  refine (Outcome.Alike.mapM (R := Eq) (List.forall₂_refl accounts) ?_).bind fun chosen chosen' hrel =>
    .ok (List.rel_filterMap (fun _ _ hr => hr) hrel)
  rintro account - rfl
  exact effectiveBalance_respelled h hcurrency account

end Valuation

namespace Aggregate

variable {balances balances' : List EffectiveBalance}

theorem enterBalance_respelled (accountId : String) (date : Date) (aggregates : Keyed AssetId Aggregate)
    {b b' : Balance} (h : b.Respelled b') :
    enterBalance accountId date aggregates b = enterBalance accountId date aggregates b' := by
  rw [enterBalance, enterBalance, h.asset, h.amount]

theorem enterEffective_respelled (aggregates : Keyed AssetId Aggregate) {e e' : EffectiveBalance}
    (h : e.Respelled e') : enterEffective aggregates e = enterEffective aggregates e' := by
  have hdate : e.date = e'.date := by rw [EffectiveBalance.date, EffectiveBalance.date, h.timestamp]
  rw [enterEffective, enterEffective, hdate, h.accountId]
  refine Outcome.bind_congr rfl fun date _ => ?_
  exact Outcome.foldlM_congr₂ h.balances
    (fun m _ _ hb => enterBalance_respelled e.accountId date m hb) aggregates

/-- Merging forgets how assets were spelled. -/
theorem ofBalances_respelled (h : List.Forall₂ EffectiveBalance.Respelled balances balances') :
    ofBalances balances = ofBalances balances' :=
  Outcome.foldlM_congr₂ h (fun m _ _ he => enterEffective_respelled m he) []

end Aggregate

/-- The same unit value from the same observations, the currency of the price apart. -/
structure Resolution.Respelled (r r' : Resolution) : Prop where
  unitValue : r'.unitValue = r.unitValue
  price : Option.Rel PriceObservation.Respelled r.price r'.price
  rate : r'.rate = r.rate

namespace MarketStore

variable {store store' : MarketStore} {asset : Asset} {target target' : String} {date : Date}

theorem firstPrice_respelled (h : store.Respelled store') (id : AssetId) (date : Date)
    (kinds : List PriceKind) :
    Outcome.Alike (Option.Rel PriceObservation.Respelled) (store.reads.firstPrice id date kinds)
      (store'.reads.firstPrice id date kinds) := by
  induction kinds with
  | nil => exact .ok .none
  | cons kind kinds ih =>
    rw [MarketReads.firstPrice, MarketReads.firstPrice]
    refine (Outcome.Alike.ok (h.prices.get? (id, date, kind))).bind fun found found' hfound => ?_
    cases hfound with
    | none => exact ih
    | some hprice => exact .ok (.some hprice)

/-- A rate depends on the currencies that its codes stand for. -/
theorem rateBetween_respelled (h : store.Respelled store') {base base' : String}
    (hbase : Currency.same base base' = true) (htarget : Currency.same target target' = true) :
    (store'.reads.rateBetween base' target' date).outcome =
      (store.reads.rateBetween base target date).outcome := by
  have hbaseCode : Currency.normalize base' = Currency.normalize base := by
    simpa [Currency.same, eq_comm] using hbase
  have htargetCode : Currency.normalize target' = Currency.normalize target := by
    simpa [Currency.same, eq_comm] using htarget
  have hsame := Currency.same_congr hbase htarget
  cases hforeign : Currency.same base target with
  | true => simp [MarketReads.rateBetween, hforeign, hsame.trans hforeign, hbaseCode]
  | false =>
    rw [MarketReads.outcome_rateBetween _ _ hforeign,
      MarketReads.outcome_rateBetween _ _ (hsame.trans hforeign), hbaseCode, htargetCode]
    simp only [reads, rate?, h.rates]

theorem resolvePriced_respelled (h : store.Respelled store') (htarget : Currency.same target target' = true) :
    Outcome.Alike Resolution.Respelled (store.reads.resolvePriced asset target date).outcome
      (store'.reads.resolvePriced asset target' date).outcome := by
  simp only [MarketReads.resolvePriced, Journaled.outcome_bind, MarketReads.outcome_priceOf]
  refine (firstPrice_respelled h _ date _).bind fun found found' hfound => ?_
  cases hfound with
  | none => exact .ok ⟨rfl, .none, rfl⟩
  | @some price price' hprice =>
    have htext : price'.price = price.price := by rw [hprice.rest]
    simp only [Journaled.outcome_bind, Journaled.outcome_of, htext,
      Currency.same_congr hprice.quoteCurrency htarget]
    refine (Outcome.alike_of_eq rfl).bind ?_
    rintro unit - rfl
    split
    · exact .ok ⟨rfl, .some hprice, rfl⟩
    · simp only [Journaled.outcome_bind, rateBetween_respelled h hprice.quoteCurrency htarget]
      refine (Outcome.alike_of_eq rfl).bind ?_
      rintro rate - rfl
      cases rate with
      | none => exact .ok ⟨rfl, .some hprice, rfl⟩
      | some rate =>
        simp only [Journaled.outcome_bind, Journaled.outcome_of]
        refine (Outcome.alike_of_eq rfl).bind ?_
        rintro factor - rfl
        refine (Outcome.alike_of_eq rfl).bind ?_
        rintro value - rfl
        exact .ok ⟨rfl, .some hprice, rfl⟩

theorem resolveCurrency_respelled (h : store.Respelled store')
    (htarget : Currency.same target target' = true) (code : String) :
    Outcome.Alike Resolution.Respelled (store.reads.resolveCurrency code target date).outcome
      (store'.reads.resolveCurrency code target' date).outcome := by
  have hcode := Currency.same_refl code
  simp only [MarketReads.resolveCurrency, Currency.same_congr hcode htarget]
  split
  · exact .ok ⟨rfl, .none, rfl⟩
  · simp only [Journaled.outcome_bind, rateBetween_respelled h hcode htarget]
    refine (Outcome.alike_of_eq rfl).bind ?_
    rintro rate - rfl
    cases rate with
    | none => exact .ok ⟨rfl, .none, rfl⟩
    | some rate =>
      simp only [Journaled.outcome_bind, Journaled.outcome_of]
      refine (Outcome.alike_of_eq rfl).bind ?_
      rintro factor - rfl
      exact .ok ⟨rfl, .none, rfl⟩

theorem resolve_respelled (h : store.Respelled store') (htarget : Currency.same target target' = true) :
    Outcome.Alike Resolution.Respelled (store.reads.resolve asset target date).outcome
      (store'.reads.resolve asset target' date).outcome := by
  cases asset with
  | currency code => exact resolveCurrency_respelled h htarget code
  | equity | crypto => exact resolvePriced_respelled h htarget

end MarketStore

theorem Resolution.Respelled.valueOf {r r' : Resolution} (h : r.Respelled r') (amount : Decimal) :
    r'.valueOf amount = r.valueOf amount := by
  simp only [Resolution.valueOf, h.unitValue]

namespace AssetRow

variable {resolved resolved' : Keyed AssetId Resolution}

theorem ofAggregate_respelled {r r' : Resolution} (h : r.Respelled r') (aggregate : Aggregate)
    (value : Option Number) (holdings : Option (List HoldingRow)) (places : Option Int) :
    ofAggregate aggregate r' value holdings places = ofAggregate aggregate r value holdings places := by
  obtain ⟨unitValue, price, rate⟩ := r
  obtain ⟨unitValue', price', rate'⟩ := r'
  obtain ⟨rfl, hprice, rfl⟩ := h
  cases hprice with
  | none => rfl
  | some hprice =>
    rw [hprice.rest]
    rfl

theorem resolutionOf_respelled
    (h : Keyed.Rel Resolution.Respelled resolved resolved')
    (id : AssetId) :
    Outcome.Alike Resolution.Respelled (resolutionOf resolved id) (resolutionOf resolved' id) := by
  have hfound := h.get? id
  unfold resolutionOf
  generalize Keyed.get? id resolved = found at hfound
  generalize Keyed.get? id resolved' = found' at hfound
  cases hfound with
  | none => exact .error _
  | some hr => exact .ok hr

theorem breakdown_respelled
    (h : Keyed.Rel Resolution.Respelled resolved resolved')
    (aggregates : Keyed AssetId Aggregate) (names : Keyed String String) (detail : Bool)
    (places : Option Int) : breakdown aggregates resolved names detail places =
      breakdown aggregates resolved' names detail places := by
  have hrow : ∀ state entry,
      addRow resolved names detail places state entry = addRow resolved' names detail places state entry := by
    intro state entry
    refine (resolutionOf_respelled h entry.1).bind_congr fun r r' hr => ?_
    rw [hr.valueOf]
    refine Outcome.bind_congr rfl fun value _ => ?_
    refine Outcome.bind_congr rfl fun total _ => ?_
    exact Outcome.bind_congr (ofAggregate_respelled hr _ _ _ _).symm fun _ _ => rfl
  rw [breakdown, breakdown, funext₂ hrow]

end AssetRow

namespace AccountRow

variable {resolved resolved' : Keyed AssetId Resolution}

theorem addBalance_respelled
    (h : Keyed.Rel Resolution.Respelled resolved resolved')
    (sum : Sum) {b b' : Balance} (hb : b.Respelled b') :
    addBalance resolved sum b = addBalance resolved' sum b' := by
  -- a record and its normal form have one identity
  have hid : AssetId.ofRecord b.asset = AssetId.ofRecord b'.asset := by
    have hnormal : ∀ record : AssetRecord,
        AssetId.ofRecord record = record.normalize.map AssetId.ofAsset := by
      intro record
      cases record with
      | known asset => simp [AssetRecord.normalize, Except.map]
      | unrecognised value => rfl
    rw [hnormal, hnormal, hb.asset]
  rw [addBalance, addBalance, hid, hb.amount]
  refine Outcome.bind_congr rfl fun id _ => ?_
  refine (AssetRow.resolutionOf_respelled h id).bind_congr fun r r' hr => ?_
  refine Outcome.bind_congr rfl fun amount _ => ?_
  rw [hr.valueOf]

theorem ofBalances_respelled
    (h : Keyed.Rel Resolution.Respelled resolved resolved')
    (account : Account) (connection : Connection) (places : Option Int) {balances balances' : List Balance}
    (hbalances : List.Forall₂ Balance.Respelled balances balances') :
    ofBalances resolved account connection places balances =
      ofBalances resolved' account connection places balances' := by
  have hsum := Outcome.foldlM_congr₂ hbalances (fun sum _ _ hb => addBalance_respelled h sum hb)
    ⟨.finite .zero, false⟩
  rw [ofBalances, ofBalances, hsum]

theorem ofEffective_respelled
    (h : Keyed.Rel Resolution.Respelled resolved resolved')
    (accounts : Keyed String Account) (connections : Keyed String Connection) (places : Option Int)
    {e e' : EffectiveBalance} (he : e.Respelled e') :
    ofEffective resolved accounts connections places e =
      ofEffective resolved' accounts connections places e' := by
  simp only [ofEffective, he.accountId, ofBalances_respelled h _ _ places he.balances]

theorem breakdown_respelled
    (h : Keyed.Rel Resolution.Respelled resolved resolved')
    (accounts : Keyed String Account) (connections : Keyed String Connection) (places : Option Int)
    {balances balances' : List EffectiveBalance}
    (hbalances : List.Forall₂ EffectiveBalance.Respelled balances balances') :
    (breakdown balances resolved accounts connections places).outcome =
      (breakdown balances' resolved' accounts connections places).outcome := by
  simp only [breakdown, Journaled.outcome_bind, Journaled.outcome_mapM]
  rw [Outcome.mapM_congr₂ hbalances fun e e' he => by rw [ofEffective_respelled h _ _ _ he]]

end AccountRow

namespace Valuation

variable {ledger ledger' : Ledger} {store store' : MarketStore} {query : ValuationQuery} {currency : String}

theorem resolutions_respelled (h : store.Respelled store')
    (hcurrency : Currency.same query.currency currency = true) (aggregates : Keyed AssetId Aggregate) :
    Outcome.Alike (Keyed.Rel Resolution.Respelled)
      (resolutions store.reads query aggregates).outcome
      (resolutions store'.reads { query with currency := currency } aggregates).outcome := by
  simp only [resolutions, Journaled.outcome_mapM, Journaled.outcome_bind, Journaled.outcome_pure]
  refine Outcome.Alike.mapM (R := Eq) (List.forall₂_refl aggregates) ?_
  rintro entry - rfl
  exact (MarketStore.resolve_respelled h hcurrency).bind fun r r' hr => .ok ⟨rfl, hr⟩

/-- Worlds that differ in spellings only are valued alike in any spelling of the reporting currency: the
results differ in that spelling only, and the failures not at all. -/
theorem spelling_leaves_valuation (hledger : ledger.Respelled ledger') (hstore : store.Respelled store')
    (hcurrency : Currency.same query.currency currency = true) :
    (run ledger'.reads store'.reads { query with currency := currency }).outcome =
      (run ledger.reads store.reads query).outcome.map fun v => { v with currency := currency } := by
  refine Outcome.Alike.eq_map ?_
  simp only [run, Journaled.outcome_bind, Journaled.outcome_of]
  refine (Outcome.alike_of_eq rfl).bind ?_
  rintro grouping - rfl
  refine (Outcome.alike_of_eq (by simp only [Ledger.reads, hledger.accounts])).bind ?_
  rintro accounts - rfl
  refine (Outcome.alike_of_eq (by simp only [Ledger.reads, hledger.connections])).bind ?_
  rintro connections - rfl
  refine (effectiveBalances_respelled hledger hcurrency accounts).bind fun balances balances' hbalances => ?_
  refine (Outcome.alike_of_eq (Aggregate.ofBalances_respelled hbalances)).bind ?_
  rintro aggregates - rfl
  refine (resolutions_respelled hstore hcurrency aggregates).bind fun resolved resolved' hresolved => ?_
  refine (Outcome.alike_of_eq (AssetRow.breakdown_respelled hresolved _ _ _ _)).bind ?_
  rintro ⟨rows, total⟩ - rfl
  have hrows := AccountRow.breakdown_respelled hresolved (Keyed.ofList (accounts.map fun a => (a.id, a)))
    (Keyed.ofList (connections.map fun c => (c.id, c))) query.places hbalances
  have htotal : Outcome.Alike Eq (Amount.format total query.places) (Amount.format total query.places) :=
    Outcome.alike_of_eq rfl
  split
  · simp only [Journaled.outcome_bind, Journaled.outcome_map, Journaled.outcome_note, Journaled.outcome_of]
    refine (Outcome.alike_of_eq (congrArg _ hrows)).bind ?_
    rintro accountRows - rfl
    exact htotal.bind fun text text' htext => .ok (by rw [htext])
  · simp only [Journaled.outcome_bind, Journaled.outcome_pure, Journaled.outcome_note, Journaled.outcome_of]
    exact htotal.bind fun text text' htext => .ok (by rw [htext])

open Collection (shareLedger sharePrice shareStore shareQuery shareValuation shares_valued tradingDay acme)

/-- The ticker of the shares, in lower case between blanks, and an exchange that is blank. -/
def looseAcme : Asset := .equity " acme " (some " ")

/-- The account with its ten shares, written with a looser hand. -/
def looseLedger : Ledger :=
  ((Ledger.empty.putConnection ⟨"broker", "Broker", "manual"⟩).putAccount
    ⟨"depot", "Depot", "broker", [], true⟩).addSnapshot "depot"
      (.at (.endOfDay tradingDay) [⟨.known looseAcme, .text "10"⟩])

def looseStore : MarketStore :=
  { shareStore with
    prices := [((⟨"equity/ACME"⟩, tradingDay, .close), { sharePrice with quoteCurrency := " EUR" })] }

/-- The dollar by its number, the euro and the shares between blanks: the shares are worth the same. -/
theorem loose_shares_valued : shareLedger.Respelled looseLedger ∧ shareStore.Respelled looseStore ∧
    Currency.same shareQuery.currency "840" = true ∧
    (run looseLedger.reads looseStore.reads { shareQuery with currency := "840" }).outcome =
      .ok { shareValuation with currency := "840" } := by
  have hasset : looseAcme.normalize = acme.normalize := by decide +kernel
  have hdollar : Currency.same shareQuery.currency "840" = true := by decide +kernel
  have hledger : shareLedger.Respelled looseLedger := by
    refine ⟨rfl, rfl, rfl, fun id => ?_⟩
    rw [shareLedger, looseLedger, Ledger.snapshotsOf_addSnapshot, Ledger.snapshotsOf_addSnapshot]
    split
    · exact .cons ⟨rfl, .cons ⟨congrArg Except.ok hasset, rfl⟩ .nil⟩ .nil
    · exact .nil
  have hstore : shareStore.Respelled looseStore := by
    refine ⟨.cons ⟨rfl, ?_, rfl⟩ .nil, rfl⟩
    decide +kernel
  refine ⟨hledger, hstore, hdollar, ?_⟩
  rw [spelling_leaves_valuation hledger hstore hdollar, shares_valued]
  rfl

end Valuation

end NetWorth
