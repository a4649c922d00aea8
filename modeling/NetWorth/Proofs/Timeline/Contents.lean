import NetWorth.Proofs.Timeline.Collection

/-! # What a timeline contains

A collection hands out every balance of a participating account, every price of what they hold and
every rate of a currency met on the way exactly once, at its instant, and nothing else. Instants ascend;
within a point balances stand first, then prices by identity, then rates by code. -/
namespace NetWorth

namespace Collection

theorem nodup_eraseDups (codes : List String) : codes.eraseDups.Nodup := by
  induction hlength : codes.length using Nat.strongRecOn generalizing codes with
  | ind n ih =>
    cases codes with
    | nil => simp
    | cons code codes =>
      rw [List.eraseDups_cons, List.nodup_cons]
      have hshort := List.length_filter_le (fun c => !c == code) codes
      refine ⟨by simp [List.mem_eraseDups], ih _ ?_ _ rfl⟩
      rw [← hlength, List.length_cons]
      omega

theorem mem_foreignCodes {codes : List String} {target code : String} :
    code ∈ foreignCodes codes target ↔ code ≠ target ∧ code ∈ codes := by
  simp [foreignCodes, List.mem_eraseDups, and_comm]

theorem ascending_eraseDups (codes : List String) :
    (codes.eraseDups.mergeSort fun a b => decide (a ≤ b)).Pairwise (· < ·) := by
  have hsorted : (codes.eraseDups.mergeSort fun a b => decide (a ≤ b)).Pairwise
      fun a b => decide (a ≤ b) = true := by
    refine List.pairwise_mergeSort ?_ ?_ _
    · intro a b c hab hbc
      simp only [decide_eq_true_eq] at *
      exact String.le_trans hab hbc
    · intro a b
      simp only [Bool.or_eq_true, decide_eq_true_eq]
      exact String.le_total a b
  have hnodup : (codes.eraseDups.mergeSort fun a b => decide (a ≤ b)).Nodup :=
    (List.mergeSort_perm _ _).nodup_iff.2 (nodup_eraseDups _)
  rw [List.nodup_iff_pairwise_ne] at hnodup
  exact (hsorted.and hnodup).imp fun h => Std.lt_of_le_of_ne (of_decide_eq_true h.1) h.2

theorem foreignCodes_ascending (codes : List String) (target : String) :
    (foreignCodes codes target).Pairwise (· < ·) := ascending_eraseDups _

/-- An asset that was named before every other of its identity. -/
def FirstNamed (assets : List Asset) (asset : Asset) : Prop :=
  assets.find? (fun a => AssetId.ofAsset a = AssetId.ofAsset asset) = some asset

theorem heldOf_ascending (balances : List Event) :
    ((heldOf balances).map Prod.fst).Pairwise fun a b => a.text < b.text := by
  have hsorted : (heldOf balances).Pairwise fun a b => AssetId.le a.1 b.1 = true :=
    AssetId.pairwise_mergeSort Prod.fst _
  have hnodup : ((heldOf balances).map Prod.fst).Nodup :=
    (((List.mergeSort_perm _ _).map Prod.fst).nodup_iff).2 (Collector.nodup_held balances)
  rw [List.nodup_iff_pairwise_ne, List.pairwise_map] at hnodup
  rw [List.pairwise_map]
  refine (hsorted.and hnodup).imp fun h => Std.lt_of_le_of_ne (of_decide_eq_true h.1) fun heq => ?_
  exact h.2 (congrArg AssetId.mk heq)

/-- What is held under an identity is the first asset named under it, in normal form. -/
theorem mem_heldOf {balances : List Event} {id : AssetId} {asset : Asset} :
    (id, asset) ∈ heldOf balances ↔ ∃ raw, FirstNamed (balances.filterMap Event.asset?) raw ∧
      AssetId.ofAsset raw = id ∧ raw.normalize = asset := by
  have hperm : (heldOf balances).Perm (Collector.gathered balances).held := List.mergeSort_perm _ _
  rw [hperm.mem_iff, Keyed.mem_iff_get? (Collector.nodup_held balances), Collector.get?_held,
    Option.map_eq_some_iff]
  constructor
  · rintro ⟨raw, hfind, hnormal⟩
    have hid : AssetId.ofAsset raw = id := by simpa using List.find?_some hfind
    exact ⟨raw, by rw [FirstNamed, hid]; exact hfind, hid, hnormal⟩
  · rintro ⟨raw, hfirst, rfl, hnormal⟩
    exact ⟨raw, hfirst, hnormal⟩

theorem mem_heldIds {balances : List Event} {id : AssetId} :
    id ∈ (heldOf balances).map Prod.fst ↔
      ∃ asset ∈ balances.filterMap Event.asset?, AssetId.ofAsset asset = id := by
  constructor
  · intro hid
    obtain ⟨⟨other, asset⟩, hentry, rfl⟩ := List.mem_map.1 hid
    obtain ⟨raw, hfirst, hraw, -⟩ := mem_heldOf.1 hentry
    exact ⟨raw, List.mem_of_find?_eq_some hfirst, hraw⟩
  · rintro ⟨asset, hasset, rfl⟩
    have hsome : ((balances.filterMap Event.asset?).find?
        fun a => AssetId.ofAsset a = AssetId.ofAsset asset).isSome := by
      rw [List.find?_isSome]
      exact ⟨asset, hasset, by simp⟩
    obtain ⟨raw, hraw⟩ := Option.isSome_iff_exists.1 hsome
    have hid : AssetId.ofAsset raw = AssetId.ofAsset asset := by simpa using List.find?_some hraw
    have hentry : (AssetId.ofAsset asset, raw.normalize) ∈ heldOf balances :=
      mem_heldOf.2 ⟨raw, by rw [FirstNamed, hid]; exact hraw, hid, rfl⟩
    exact List.mem_map_of_mem hentry

variable {ledger : Ledger} {store : MarketStore} {options : CollectOptions}

/-- Every stored price of the given assets, at the end of its day. -/
def pricesUnder (store : MarketStore) (ids : List AssetId) : List Event :=
  ids.flatMap fun id => (store.pricesOf id).map (priceEvent id)

/-- Every stored rate of the given currencies into a target, at the end of its day. -/
def ratesFrom (store : MarketStore) (target : String) (codes : List String) : List Event :=
  codes.flatMap fun code => (store.ratesOf code target).map (rateEvent code target)

theorem priceEvents_eq (balances : List Event) :
    priceEvents store options balances =
      if options.includePrices then pricesUnder store ((heldOf balances).map Prod.fst) else [] := by
  unfold priceEvents heldEvents pricesUnder
  rw [List.flatMap_map]
  split
  · rfl
  · simp

theorem pricesUnder_pairwise {ids : List AssetId} (h : ids.Pairwise fun a b => a.text < b.text) :
    ((pricesUnder store ids).filterMap fun e => e.trigger.pricedAsset?).Pairwise fun a b =>
      AssetId.le a b = true := by
  have hids : (pricesUnder store ids).filterMap (fun e => e.trigger.pricedAsset?) =
      ids.flatMap fun id => (store.pricesOf id).map fun _ => id := by
    rw [pricesUnder, List.filterMap_flatMap]
    refine List.flatMap_congr fun id _ => ?_
    rw [List.filterMap_map, ← List.filterMap_eq_map]
    rfl
  rw [hids, List.pairwise_flatMap]
  refine ⟨fun id _ => ?_, h.imp fun hlt a ha b hb => ?_⟩
  · rw [List.pairwise_map]
    exact List.pairwise_of_forall fun _ _ => by simp [AssetId.le]
  · obtain ⟨-, -, rfl⟩ := List.mem_map.1 ha
    obtain ⟨-, -, rfl⟩ := List.mem_map.1 hb
    exact decide_eq_true (Std.le_of_lt hlt)

theorem timeline_prices_pairwise (ledger : Ledger) (store : MarketStore) (options : CollectOptions) :
    ((timeline ledger store options).filterMap fun e => e.trigger.pricedAsset?).Pairwise fun a b =>
      AssetId.le a b = true := by
  have hbalances : ∀ e ∈ ledger.balanceEvents options.accountIds, e.trigger.pricedAsset? = none := by
    intro e he
    obtain ⟨a, -, s, -, b, -, asset, -, rfl⟩ := mem_balanceEvents.1 he
    rfl
  have hrates : ∀ e ∈ rateEvents store options (ledger.balanceEvents options.accountIds),
      e.trigger.pricedAsset? = none := by
    intro e he
    obtain ⟨code, rate, rfl⟩ := exists_rate he
    rfl
  rw [timeline, List.filterMap_append, List.filterMap_append, List.filterMap_eq_nil_iff.2 hbalances,
    List.filterMap_eq_nil_iff.2 hrates, List.nil_append, List.append_nil, priceEvents_eq]
  split
  · exact pricesUnder_pairwise (heldOf_ascending _)
  · exact List.Pairwise.nil

theorem pointsOf_of_run {points : List ChangePoint}
    (h : (run ledger.reads store.reads options).outcome = .ok points) :
    Collector.PointsOf (timeline ledger store options) points := by
  obtain ⟨-, -, hfinish⟩ := run_ok_iff.1 h
  exact Collector.pointsOf_of_finish (timeline_prices_pairwise ledger store options) hfinish

theorem mem_codesMet {balances : List Event} (hrates : options.includeRates = true) {code : String} :
    code ∈ codesMet store options balances ↔
      (∃ asset, FirstNamed (balances.filterMap Event.asset?) asset ∧ asset.normalize = .currency code) ∨
        ∃ id ∈ (heldOf balances).map Prod.fst, ∃ price ∈ store.pricesOf id,
          Currency.normalize price.quoteCurrency = code := by
  have hcurrency : ∀ asset, code ∈ currencyOf asset ↔ asset = .currency code := by
    intro asset
    cases asset <;> simp [currencyOf, eq_comm]
  simp only [codesMet, heldCodes, hrates, Bool.or_true, if_true, List.mem_flatMap, List.mem_reverse,
    List.mem_append, List.mem_map, hcurrency]
  constructor
  · rintro ⟨entry, hentry, ⟨price, hprice, rfl⟩ | hasset⟩
    · exact .inr ⟨entry.1, ⟨entry, hentry, rfl⟩, price, hprice, rfl⟩
    · obtain ⟨raw, hfirst, -, hnormal⟩ := mem_heldOf.1 hentry
      exact .inl ⟨raw, hfirst, hnormal.trans hasset⟩
  · rintro (⟨raw, hfirst, hnormal⟩ | ⟨-, ⟨entry, hentry, rfl⟩, price, hprice, rfl⟩)
    · exact ⟨(AssetId.ofAsset raw, .currency code), mem_heldOf.2 ⟨raw, hfirst, rfl, hnormal⟩, .inr rfl⟩
    · exact ⟨entry, hentry, .inl ⟨price, hprice, rfl⟩⟩

/-- What a timeline contains, given the identities held and the currencies converted. -/
structure Contents (ledger : Ledger) (store : MarketStore) (options : CollectOptions)
    (points : List ChangePoint) (ids : List AssetId) (codes : List String) : Prop where
  assetsKnown : ledger.AssetsKnown options.accountIds
  idsAscending : ids.Pairwise fun a b => a.text < b.text
  held : ∀ id, id ∈ ids ↔
    ∃ asset ∈ (ledger.balanceEvents options.accountIds).filterMap Event.asset?, AssetId.ofAsset asset = id
  codesAscending : codes.Pairwise (· < ·)
  met : ∀ code, code ∈ codes ↔ code ≠ targetOf options ∧
    ((∃ asset, FirstNamed ((ledger.balanceEvents options.accountIds).filterMap Event.asset?) asset ∧
        asset.normalize = .currency code) ∨
      ∃ id ∈ ids, ∃ price ∈ store.pricesOf id, Currency.normalize price.quoteCurrency = code)
  ascending : points.Pairwise fun p q => p.timestamp.instant < q.timestamp.instant
  nonempty : ∀ p ∈ points, p.triggers ≠ []
  exactly : (points.flatMap fun p => p.triggers.map fun t => (p.timestamp.instant, t)).Perm
    ((ledger.balanceEvents options.accountIds
      ++ (if options.includePrices then pricesUnder store ids else [])
      ++ (if options.includeRates then ratesFrom store (targetOf options) codes else [])).map
        fun e => (e.timestamp.instant, e.trigger))
  ordered : ∀ p ∈ points,
    let atPoint := fun events : List Event =>
      (events.filter (·.moment = p.timestamp.moment)).map Event.trigger
    p.triggers = atPoint (ledger.balanceEvents options.accountIds)
      ++ atPoint (if options.includePrices then pricesUnder store ids else [])
      ++ atPoint (if options.includeRates then ratesFrom store (targetOf options) codes else [])

/-- A collection that answers neither loses, invents, duplicates nor misorders a trigger. -/
theorem collected_exactly {points : List ChangePoint}
    (h : (run ledger.reads store.reads options).outcome = .ok points) :
    ∃ ids codes, Contents ledger store options points ids codes := by
  obtain ⟨-, hknown, hfinish⟩ := run_ok_iff.1 h
  have hpoints := Collector.pointsOf_of_finish (timeline_prices_pairwise ledger store options) hfinish
  set balances := ledger.balanceEvents options.accountIds with hbalances
  set rated : CollectOptions := { options with includeRates := true } with hrated
  have htimeline : timeline ledger store options = balances
      ++ (if options.includePrices then pricesUnder store ((heldOf balances).map Prod.fst) else [])
      ++ (if options.includeRates then ratesFrom store (targetOf options)
        (foreignCodes (codesMet store rated balances) (targetOf options)) else []) := by
    rw [timeline, ← hbalances, priceEvents_eq, rateEvents]
    congr 1
    split
    · rename_i hincluded
      have hsame : rated = options := by
        rw [hrated, ← hincluded]
      rw [hsame]
      rfl
    · rfl
  refine ⟨(heldOf balances).map Prod.fst, foreignCodes (codesMet store rated balances) (targetOf options),
    hknown, heldOf_ascending _, fun id => mem_heldIds, foreignCodes_ascending _ _, fun code => ?_,
    hpoints.ascending, hpoints.nonempty, ?_, fun p hp => ?_⟩
  · rw [mem_foreignCodes, mem_codesMet rfl]
  · rw [← htimeline]
    exact hpoints.perm
  · rw [hpoints.triggers p hp, htimeline]
    simp only [List.filter_append, List.map_append]
    rfl

def acme : Asset := .equity "acme" none

def tradingDay : Date := ⟨737424, by decide⟩

def shareLedger : Ledger :=
  ((Ledger.empty.putConnection ⟨"broker", "Broker", "manual"⟩).putAccount
    ⟨"depot", "Depot", "broker", [], true⟩).addSnapshot "depot"
      (.at (.endOfDay tradingDay) [⟨.known acme, .text "10"⟩])

def sharePrice : PriceObservation :=
  ⟨⟨"equity/ACME"⟩, tradingDay, .endOfDay tradingDay, .text "7.5", "eur", "close", "feed"⟩

def euroRate : RateObservation :=
  ⟨"EUR", "USD", tradingDay, .endOfDay tradingDay, .text "1.2", "close", "feed"⟩

/-- The share at 7.5 euros and the euro at 1.2 dollars. -/
def shareStore : MarketStore :=
  ⟨[((⟨"equity/ACME"⟩, tradingDay, .close), sharePrice)], [(("EUR", "USD", tradingDay, .close), euroRate)]⟩

/-- A collection of all observations that convert into a currency. -/
def observing (currency : String) : CollectOptions := ⟨[], true, true, some currency⟩

def sharePoints : List ChangePoint :=
  [⟨.endOfDay tradingDay, [.balance "depot" acme, .price ⟨"equity/ACME"⟩, .rate "EUR" "USD"]⟩]

theorem shares_collected :
    (run shareLedger.reads shareStore.reads (observing "USD")).outcome = .ok sharePoints :=
  Outcome.ok_of_toOption (by decide +kernel)

/-- Balance, price and rate of one day are all there, each once. -/
theorem shares_collected_exactly : ∃ ids codes,
    Contents shareLedger shareStore (observing "USD") sharePoints ids codes :=
  collected_exactly shares_collected

end Collection

end NetWorth
