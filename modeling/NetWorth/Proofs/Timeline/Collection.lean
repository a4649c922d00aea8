import NetWorth.Proofs.Recording
import NetWorth.Proofs.Timeline.Order
import NetWorth.Timeline.Collection

/-! # The events of a collection

Collecting a timeline from a ledger and a market store takes in one run of events: the balances of the
participating accounts, then the prices of what they hold, then the rates of the currencies met on the
way. -/
namespace NetWorth

open Collector (takeOpen take gathered)

namespace Balance

def Known (balance : Balance) : Prop := ∃ asset, balance.asset = .known asset

def events (accountId : String) (timestamp : Timestamp) (balance : Balance) : List Event :=
  match balance.asset with
  | .known asset => [⟨timestamp, .balance accountId asset⟩]
  | .unrecognised _ => []

end Balance

namespace Ledger

def excludes (ledger : Ledger) (accountId : String) : Bool :=
  ((Keyed.get? accountId ledger.overrides).getD .default).excluded

/-- The accounts to look at: the requested ones, or all if none is, without those left out. -/
def participants (ledger : Ledger) (requested : List String) : List Account :=
  ((Keyed.values ledger.accounts).filter fun a => requested.isEmpty || requested.contains a.id).filter
    fun a => !ledger.excludes a.id

/-- The balances of participating accounts all hold assets. -/
def AssetsKnown (ledger : Ledger) (requested : List String) : Prop :=
  ∀ a ∈ ledger.participants requested, ∀ s ∈ ledger.snapshotsOf a.id, ∀ b ∈ s.balances, b.Known

end Ledger

namespace BalanceSnapshot

def events (accountId : String) (snapshot : BalanceSnapshot) : List Event :=
  snapshot.balances.flatMap (Balance.events accountId snapshot.timestamp)

end BalanceSnapshot

namespace Ledger

/-- Every balance of every snapshot of the participating accounts, at its time. -/
def balanceEvents (ledger : Ledger) (requested : List String) : List Event :=
  (ledger.participants requested).flatMap fun a =>
    (ledger.snapshotsOf a.id).flatMap (BalanceSnapshot.events a.id)

end Ledger

namespace Collection

theorem addSnapshot_ok_iff {accountId : String} {collector next : Collector}
    {snapshot : BalanceSnapshot} :
    addSnapshot accountId collector snapshot = .ok next ↔
      (∀ b ∈ snapshot.balances, b.Known) ∧
        (snapshot.events accountId).foldlM takeOpen collector = .ok next := by
  refine Outcome.foldlM_flatMap_ok_iff fun b _ c c' => ?_
  rw [Collector.addBalance_ok_iff, Balance.Known, Balance.events]
  cases b.asset with
  | known asset => simp
  | unrecognised value => simp [AssetRecord.asset]

theorem addAccount_ok_iff {ledger : Ledger} {collector next : Collector} {account : Account}
    (hincluded : ledger.excludes account.id = false) :
    addAccount ledger.reads collector account = .ok next ↔
      (∀ s ∈ ledger.snapshotsOf account.id, ∀ b ∈ s.balances, b.Known) ∧
        ((ledger.snapshotsOf account.id).flatMap (BalanceSnapshot.events account.id)).foldlM takeOpen
          collector = .ok next := by
  have hexcluded : ((Keyed.get? account.id ledger.overrides).getD .default).excluded = false := hincluded
  have hfold : addAccount ledger.reads collector account =
      (ledger.snapshotsOf account.id).foldlM (addSnapshot account.id) collector := by
    simp [addAccount, Ledger.reads, hexcluded, bind, Except.bind]
  rw [hfold]
  refine Outcome.foldlM_flatMap_ok_iff fun s _ _ _ => ?_
  exact addSnapshot_ok_iff

theorem addAccount_excluded {ledger : Ledger} {collector : Collector} {account : Account}
    (hexcluded : ledger.excludes account.id = true) :
    addAccount ledger.reads collector account = .ok collector := by
  have hexcluded : ((Keyed.get? account.id ledger.overrides).getD .default).excluded = true := hexcluded
  simp [addAccount, Ledger.reads, hexcluded, bind, Except.bind, pure, Except.pure]

/-- Accounts that are left out make no difference. -/
theorem foldlM_addAccount {ledger : Ledger} (accounts : List Account) (collector : Collector) :
    accounts.foldlM (addAccount ledger.reads) collector =
      (accounts.filter fun a => !ledger.excludes a.id).foldlM (addAccount ledger.reads) collector := by
  induction accounts generalizing collector with
  | nil => rfl
  | cons account accounts ih =>
    rw [List.foldlM_cons, List.filter_cons]
    cases hexcluded : ledger.excludes account.id with
    | true =>
      rw [addAccount_excluded hexcluded]
      exact ih collector
    | false =>
      rw [if_pos (by decide), List.foldlM_cons]
      exact congrArg _ (funext ih)

/-- Collecting the balances of accounts takes in the events of those that participate. -/
theorem accounts_ok_iff {ledger : Ledger} {requested : List String} {next : Collector} :
    ((Keyed.values ledger.accounts).filter fun a => requested.isEmpty || requested.contains a.id).foldlM
        (addAccount ledger.reads) Collector.empty = .ok next ↔
      ledger.AssetsKnown requested ∧ next = gathered (ledger.balanceEvents requested) := by
  have hfold : (ledger.participants requested).foldlM (addAccount ledger.reads) Collector.empty =
      .ok next ↔ ledger.AssetsKnown requested ∧
        (ledger.balanceEvents requested).foldlM takeOpen Collector.empty = .ok next := by
    refine Outcome.foldlM_flatMap_ok_iff fun a ha _ _ => ?_
    exact addAccount_ok_iff (by simpa using (List.mem_filter.1 ha).2)
  rw [foldlM_addAccount, ← Ledger.participants, hfold, Collector.foldlM_takeOpen_ok_iff rfl, gathered]

theorem mem_balanceEvents {ledger : Ledger} {requested : List String} {event : Event} :
    event ∈ ledger.balanceEvents requested ↔
      ∃ a ∈ ledger.participants requested, ∃ s ∈ ledger.snapshotsOf a.id, ∃ b ∈ s.balances, ∃ asset,
        b.asset = .known asset ∧ event = ⟨s.timestamp, .balance a.id asset⟩ := by
  simp only [Ledger.balanceEvents, BalanceSnapshot.events, List.mem_flatMap]
  refine exists_congr fun a => and_congr_right fun _ => exists_congr fun s => and_congr_right fun _ =>
    exists_congr fun b => and_congr_right fun _ => ?_
  unfold Balance.events
  cases b.asset with
  | known asset => simp
  | unrecognised value => simp

def priceEvent (assetId : AssetId) (price : PriceObservation) : Event :=
  ⟨.endOfDay price.date, .price assetId⟩

/-- What a held asset adds to the events: its prices, if they are asked for. -/
def heldEvents (store : MarketStore) (options : CollectOptions) (entry : AssetId × Asset) : List Event :=
  if options.includePrices then (store.pricesOf entry.1).map (priceEvent entry.1) else []

def heldCodes (store : MarketStore) (options : CollectOptions) (entry : AssetId × Asset) : List String :=
  (if options.includePrices || options.includeRates then
    (store.pricesOf entry.1).reverse.map fun p => Currency.normalize p.quoteCurrency else [])
    ++ currencyOf entry.2

variable {store : MarketStore} {options : CollectOptions}

theorem addPriceOf_eq {assetId : AssetId} {passage : Passage} (hopen : passage.collector.consumed = false)
    (includePrices : Bool) (price : PriceObservation) :
    addPriceOf includePrices assetId passage price =
      .ok ⟨(if includePrices then [priceEvent assetId price] else []).foldl take passage.collector,
        Currency.normalize price.quoteCurrency :: passage.currencies⟩ := by
  cases includePrices with
  | false => rfl
  | true =>
    simp [addPriceOf, Collector.addPrice_eq, takeOpen, Collector.requireOpen, hopen, priceEvent, bind,
      Except.bind, pure, Except.pure]

/-- A passage over elements that each add events and codes adds all of them. -/
theorem foldlM_passage {α : Type} (step : Passage → α → Except Failure Passage)
    (events : α → List Event) (codes : α → List String)
    (hstep : ∀ passage x, passage.collector.consumed = false →
      step passage x = .ok ⟨(events x).foldl take passage.collector, codes x ++ passage.currencies⟩)
    (xs : List α) {passage : Passage} (hopen : passage.collector.consumed = false) :
    xs.foldlM step passage = .ok ⟨(xs.flatMap events).foldl take passage.collector,
      xs.reverse.flatMap codes ++ passage.currencies⟩ := by
  induction xs generalizing passage with
  | nil => rfl
  | cons x xs ih =>
    rw [List.foldlM_cons, hstep passage x hopen]
    have hnext := (Collector.foldl_take_consumed (events x) passage.collector).trans hopen
    have hrest := @ih ⟨(events x).foldl take passage.collector, codes x ++ passage.currencies⟩ hnext
    simp only [List.flatMap_cons, List.foldl_append, List.reverse_cons, List.flatMap_append,
      List.append_assoc, List.flatMap_nil, List.append_nil] at hrest ⊢
    exact hrest

theorem addHeld_eq {passage : Passage} (hopen : passage.collector.consumed = false)
    (entry : AssetId × Asset) :
    addHeld store.reads options passage entry =
      .ok ⟨(heldEvents store options entry).foldl take passage.collector,
        heldCodes store options entry ++ passage.currencies⟩ := by
  unfold addHeld heldEvents heldCodes
  cases hread : options.includePrices || options.includeRates with
  | false =>
    rw [Bool.or_eq_false_iff] at hread
    simp [hread.1, pure, Except.pure]
  | true =>
    have hprices := @foldlM_passage _ (addPriceOf options.includePrices entry.1)
      (fun price => if options.includePrices then [priceEvent entry.1 price] else [])
      (fun price => [Currency.normalize price.quoteCurrency])
      (fun _ price h => addPriceOf_eq h options.includePrices price) (store.pricesOf entry.1)
      ⟨passage.collector, currencyOf entry.2 ++ passage.currencies⟩ hopen
    have hevents : ((store.pricesOf entry.1).flatMap fun price =>
        if options.includePrices then [priceEvent entry.1 price] else []) =
        if options.includePrices then (store.pricesOf entry.1).map (priceEvent entry.1) else [] := by
      cases options.includePrices with
      | false => simp
      | true => exact List.map_eq_flatMap.symm
    have hcodes : ((store.pricesOf entry.1).reverse.flatMap fun price =>
        [Currency.normalize price.quoteCurrency]) =
        (store.pricesOf entry.1).reverse.map fun p => Currency.normalize p.quoteCurrency :=
      List.map_eq_flatMap.symm
    rw [hevents, hcodes, ← List.append_assoc] at hprices
    simpa [MarketStore.reads, bind, Except.bind] using hprices

def heldOf (balances : List Event) : List (AssetId × Asset) := heldInOrder (gathered balances)

def priceEvents (store : MarketStore) (options : CollectOptions) (balances : List Event) : List Event :=
  (heldOf balances).flatMap (heldEvents store options)

/-- The currencies met on the way through the prices. -/
def codesMet (store : MarketStore) (options : CollectOptions) (balances : List Event) : List String :=
  (heldOf balances).reverse.flatMap (heldCodes store options)

theorem exists_price {balances : List Event} {event : Event}
    (h : event ∈ priceEvents store options balances) : ∃ id price, event = priceEvent id price := by
  simp only [priceEvents, heldEvents, List.mem_flatMap] at h
  obtain ⟨entry, -, hprice⟩ := h
  split at hprice
  · obtain ⟨price, -, rfl⟩ := List.mem_map.1 hprice
    exact ⟨_, price, rfl⟩
  · simp at hprice

theorem foldlM_addHeld (balances : List Event) :
    (heldInOrder (gathered balances)).foldlM (addHeld store.reads options) ⟨gathered balances, []⟩ =
      .ok ⟨gathered (balances ++ priceEvents store options balances), codesMet store options balances⟩ := by
  have hopen := Collector.gathered_consumed balances
  have hfold := @foldlM_passage _ (addHeld store.reads options) (heldEvents store options)
    (heldCodes store options) (fun _ entry h => addHeld_eq h entry) (heldOf balances)
    ⟨gathered balances, []⟩ hopen
  rw [Collector.gathered_append]
  rwa [List.append_nil] at hfold

def rateEvent (code target : String) (rate : RateObservation) : Event :=
  ⟨.endOfDay rate.date, .rate code target⟩

def targetOf (options : CollectOptions) : String := Currency.normalize (options.target.getD "")

def rateEvents (store : MarketStore) (options : CollectOptions) (balances : List Event) : List Event :=
  if options.includeRates then
    (foreignCodes (codesMet store options balances) (targetOf options)).flatMap fun code =>
      (store.ratesOf code (targetOf options)).map (rateEvent code (targetOf options))
  else []

theorem exists_rate {balances : List Event} {event : Event}
    (h : event ∈ rateEvents store options balances) :
    ∃ code rate, event = rateEvent code (targetOf options) rate := by
  unfold rateEvents at h
  split at h
  · obtain ⟨code, -, hrate⟩ := List.mem_flatMap.1 h
    obtain ⟨rate, -, rfl⟩ := List.mem_map.1 hrate
    exact ⟨code, rate, rfl⟩
  · simp at h

theorem addRatesOf_ok {target : String} {collector : Collector} (hopen : collector.consumed = false)
    (code : String) : addRatesOf store.reads target collector code =
      .ok (((store.ratesOf code target).map (rateEvent code target)).foldl take collector) := by
  have hfold : addRatesOf store.reads target collector code =
      ((store.ratesOf code target).map (rateEvent code target)).foldlM takeOpen collector := by
    rw [List.foldlM_map]
    rfl
  rw [hfold]
  exact (Collector.foldlM_takeOpen_ok_iff hopen).2 rfl

theorem foldlM_addRatesOf {target : String} (codes : List String) {collector : Collector}
    (hopen : collector.consumed = false) :
    codes.foldlM (addRatesOf store.reads target) collector =
      .ok ((codes.flatMap fun code => (store.ratesOf code target).map (rateEvent code target)).foldl take
        collector) := by
  induction codes generalizing collector with
  | nil => rfl
  | cons code codes ih =>
    rw [List.foldlM_cons, addRatesOf_ok hopen, List.flatMap_cons, List.foldl_append]
    exact ih ((Collector.foldl_take_consumed _ _).trans hopen)

theorem addRates_ok {balances before : List Event} :
    addRates store.reads options ⟨gathered before, codesMet store options balances⟩ =
      .ok (gathered (before ++ rateEvents store options balances)) := by
  rw [Collector.gathered_append]
  unfold addRates rateEvents
  split
  · exact foldlM_addRatesOf _ (Collector.gathered_consumed before)
  · rfl

/-- Everything that a collection takes in. -/
def timeline (ledger : Ledger) (store : MarketStore) (options : CollectOptions) : List Event :=
  let balances := ledger.balanceEvents options.accountIds
  balances ++ priceEvents store options balances ++ rateEvents store options balances

/-- A collection is asked for accounts that are known, and for rates only into a currency. -/
structure Answerable (ledger : Ledger) (options : CollectOptions) : Prop where
  target : options.includeRates = true → (options.target.getD "").isEmpty = false
  accounts : options.accountIds.isEmpty = true ∨
    missingIds options.accountIds (Keyed.values ledger.accounts) = []

theorem chosenAccounts_ok_iff {requested : List String} {known accounts : List Account} :
    (chosenAccounts requested known).outcome = .ok accounts ↔
      (requested.isEmpty = true ∨ missingIds requested known = []) ∧
        accounts = known.filter fun a => requested.isEmpty || requested.contains a.id := by
  unfold chosenAccounts
  cases hempty : requested.isEmpty with
  | true =>
    have hall : (known.filter fun a => true || requested.contains a.id) = known :=
      List.filter_eq_self.2 fun _ _ => rfl
    rw [if_pos rfl, hall, Journaled.outcome_pure, Except.ok.injEq]
    exact ⟨fun h => ⟨.inl rfl, h.symm⟩, fun h => h.2.symm⟩
  | false =>
    simp only [Bool.false_eq_true, if_false, Bool.false_or, false_or]
    cases hmissing : missingIds requested known with
    | nil =>
      rw [List.isEmpty_nil, if_pos rfl, Journaled.outcome_pure, Except.ok.injEq]
      exact ⟨fun h => ⟨rfl, h.symm⟩, fun h => h.2.symm⟩
    | cons id ids => simp

/-- A collection answers with the points of its timeline. -/
theorem run_ok_iff {ledger : Ledger} {points : List ChangePoint} :
    (run ledger.reads store.reads options).outcome = .ok points ↔
      Answerable ledger options ∧ ledger.AssetsKnown options.accountIds ∧
        (gathered (timeline ledger store options)).finish.1 = .ok points := by
  unfold run
  split
  · rename_i hrefused
    simp only [Bool.and_eq_true] at hrefused
    simp only [Journaled.outcome_refuse, reduceCtorEq, false_iff, not_and]
    intro hanswerable
    exact absurd hrefused.2 (by simp [hanswerable.target hrefused.1])
  · rename_i hasked
    simp only [Bool.and_eq_true, not_and, Bool.not_eq_true] at hasked
    simp only [Journaled.outcome_bind, Journaled.outcome_of, Journaled.outcome_note,
      Journaled.outcome_pure, Outcome.bind_ok_iff, chosenAccounts_ok_iff]
    constructor
    · rintro ⟨known, hknown, accounts, ⟨hchosen, rfl⟩, balances, hbalances, passage, hpassage, collector,
        hcollector, found, hfound, -, -, heq⟩
      obtain rfl := Except.ok.inj hknown
      obtain rfl := Except.ok.inj heq
      obtain ⟨hassets, rfl⟩ := accounts_ok_iff.1 hbalances
      rw [foldlM_addHeld] at hpassage
      obtain rfl := Except.ok.inj hpassage
      rw [addRates_ok] at hcollector
      obtain rfl := Except.ok.inj hcollector
      exact ⟨⟨hasked, hchosen⟩, hassets, hfound⟩
    · rintro ⟨⟨-, hchosen⟩, hassets, hfinish⟩
      exact ⟨_, rfl, _, ⟨hchosen, rfl⟩, _, accounts_ok_iff.2 ⟨hassets, rfl⟩, _, foldlM_addHeld _, _,
        addRates_ok, _, hfinish, (), trivial, rfl⟩

theorem timeline_cases {ledger : Ledger} {event : Event} (h : event ∈ timeline ledger store options) :
    event ∈ ledger.balanceEvents options.accountIds ∨ (∃ id price, event = priceEvent id price) ∨
      ∃ code rate, event = rateEvent code (targetOf options) rate := by
  simp only [timeline, List.mem_append] at h
  obtain (hbalance | hprice) | hrate := h
  · exact .inl hbalance
  · exact .inr (.inl (exists_price hprice))
  · exact .inr (.inr (exists_rate hrate))

/-- Prices and rates have times with a known offset, so a collection answers if the balances do. -/
theorem exists_points {ledger : Ledger} (haware : ledger.Aware) (hanswerable : Answerable ledger options)
    (hknown : ledger.AssetsKnown options.accountIds) :
    ∃ points, (run ledger.reads store.reads options).outcome = .ok points := by
  have htimeline : ∀ e ∈ timeline ledger store options, e.timestamp.isAware = true := by
    intro e he
    obtain hbalance | ⟨id, price, rfl⟩ | ⟨code, rate, rfl⟩ := timeline_cases he
    · obtain ⟨a, -, s, hs, -, -, -, -, rfl⟩ := mem_balanceEvents.1 hbalance
      exact haware a.id s hs
    · rfl
    · rfl
  obtain ⟨points, hpoints⟩ := Collector.finish_of_aware htimeline
  exact ⟨points, run_ok_iff.2 ⟨hanswerable, hknown, hpoints⟩⟩

end Collection

end NetWorth
