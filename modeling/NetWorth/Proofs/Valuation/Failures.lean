import NetWorth.Proofs.Timeline.Collection
import NetWorth.Proofs.Valuation.LaterObservations

/-! # What a valuation can fail on

A valuation fails where one of its steps fails, and on nothing that it looks up on the way: every asset that a
row looks up is among those that were resolved. Where balances hold assets, policies are known words and dates
lie in the calendar, that leaves arithmetic that has no result, and an amount, a price or a rate that is used
and that is no decimal. What is missing never makes a valuation fail. -/
namespace NetWorth

open Outcome (FailsOnly)

namespace Amount

/-- An integer, or the text of a finite decimal. -/
def IsDecimal : Json → Prop
  | .int _ => True
  | .text s => (Decimal.parse? s).isSome
  | _ => False

theorem isDecimal_of_read {value : Json} {field : Option String} {d : Decimal}
    (h : read value field = .ok d) : IsDecimal value := by
  unfold read at h
  split at h
  · trivial
  · rename_i s
    cases hparse : Decimal.parse? s with
    | none => simp [hparse, invalid] at h
    | some found => simp [IsDecimal, hparse]
  · contradiction

theorem read_error {value : Json} {field : Option String} {failure : Failure}
    (h : read value field = .error failure) :
    ¬ IsDecimal value ∧ failure = .service (.invalidDecimal value.literal field) := by
  unfold read at h
  split at h
  · contradiction
  · rename_i s
    cases hparse : Decimal.parse? s with
    | none =>
      simp only [hparse, invalid] at h
      exact ⟨by simp [IsDecimal, hparse], (Except.error.inj h).symm⟩
    | some found => simp [hparse] at h
  · rename_i hint htext
    refine ⟨fun hdecimal => ?_, (Except.error.inj h).symm⟩
    cases value <;> simp_all [IsDecimal]

end Amount

/-- A failure that is due to arithmetic or to one of the values being no decimal. -/
inductive Failure.DueTo (used : Json → Prop) : Failure → Prop
  | arithmetic (signal : Decimal.Signal) : DueTo used (.arithmetic signal)
  | malformed {value : Json} (field : Option String) (hused : used value) (hbad : ¬ Amount.IsDecimal value) :
    DueTo used (.service (.invalidDecimal value.literal field))

theorem Amount.read_failsOnly {used : Json → Prop} {value : Json} (hused : used value) (field : Option String) :
    FailsOnly (Failure.DueTo used) (Amount.read value field) := by
  intro failure h
  obtain ⟨hbad, rfl⟩ := Amount.read_error h
  exact .malformed field hused hbad

/-- What a valuation reads as decimals, by the names it has in failures. -/
def Valuation.parts : List String := ["amount", "price", "rate"]

namespace Amount

/-- Reading a value fails in one way only, whether it is read as one of these parts or just to be shown. -/
def FailsReading (P : Failure → Prop) (value : Json) : Prop :=
  ∀ field : Option String, (∀ part ∈ field, part ∈ Valuation.parts) → FailsOnly P (read value field)

variable {P : Failure → Prop} {value : Json}

theorem FailsReading.part (h : FailsReading P value) {part : String} (hpart : part ∈ Valuation.parts) :
    FailsOnly P (read value (some part)) :=
  h (some part) fun _ hsame => Option.some.inj hsame ▸ hpart

theorem FailsReading.shown (h : FailsReading P value) : FailsOnly P (read value none) := h none (by simp)

end Amount

section

variable {P : Failure → Prop} (hsignal : ∀ signal, P (.arithmetic signal))

include hsignal

theorem ofSignal_failsOnly {α : Type} (x : Except Decimal.Signal α) : FailsOnly P (ofSignal x) := by
  cases x with
  | ok a => exact .ok a
  | error signal => exact .error (hsignal signal)

theorem Resolution.valueOf_failsOnly (resolution : Resolution) (amount : Decimal) :
    FailsOnly P (resolution.valueOf amount) := by
  unfold valueOf
  split
  · exact .ok none
  · exact (ofSignal_failsOnly hsignal _).map some

theorem AssetRow.addValue_failsOnly (total : Number) (value : Option Number) :
    FailsOnly P (AssetRow.addValue total value) := by
  cases value with
  | none => exact .ok total
  | some n => exact ofSignal_failsOnly hsignal _

end

namespace MarketReads

/-- The prices and rates that a resolution looks at: the price that values the asset, and the rate from the
currency that it is converted from, if that is not the target. -/
inductive Consults (market : MarketReads) (target : String) (date : Date) (asset : Asset) : Json → Prop
  | price {price : PriceObservation} (hpriced : asset.IsPriced) (hprice : market.Prices asset date price) :
    Consults market target date asset price.price
  | rate {base : String} {rate : RateObservation} (hfrom : market.ConvertsFrom date asset base)
    (hforeign : Currency.same base target = false) (hrate : market.Rates base target date rate) :
    Consults market target date asset rate.rate

variable {store : MarketStore} {asset : Asset} {target : String} {date : Date} {resolution : Resolution}

theorem rateBetween_failsOnly {P : Failure → Prop} (store : MarketStore) {base : String}
    (hforeign : Currency.same base target = false) :
    FailsOnly P (store.reads.rateBetween base target date).outcome := by
  rw [outcome_rateBetween _ _ hforeign]
  exact .ok _

theorem rateBetween_of_rates {market : MarketReads} {base : String} {rate : RateObservation}
    (hforeign : Currency.same base target = false) (hrate : market.Rates base target date rate) :
    (market.rateBetween base target date).outcome = .ok (some rate) :=
  (outcome_rateBetween market date hforeign).trans hrate

theorem consults_rate {market : MarketReads} {base : String} {rate : RateObservation}
    (hfrom : market.ConvertsFrom date asset (Currency.normalize base))
    (hforeign : Currency.same base target = false) (hrate : market.Rates base target date rate) :
    market.Consults target date asset rate.rate := by
  refine .rate hfrom ((Currency.same_normalize base target).trans hforeign) ?_
  rwa [Rates, Currency.normalize_normalize]

section

variable {P : Failure → Prop} (hsignal : ∀ signal, P (.arithmetic signal))

include hsignal

theorem resolvePriced_failsOnly (hpriced : asset.IsPriced)
    (hread : ∀ value, store.reads.Consults target date asset value → Amount.FailsReading P value) :
    FailsOnly P (store.reads.resolvePriced asset target date).outcome := by
  simp only [resolvePriced, Journaled.outcome_bind]
  rw [MarketStore.outcome_priceOf_reads]
  refine (FailsOnly.ok _).bind fun found hfound => ?_
  rw [← MarketStore.outcome_priceOf_reads] at hfound
  cases found with
  | none => exact .ok _
  | some price =>
    simp only [Journaled.outcome_bind, Journaled.outcome_of]
    refine ((hread _ (.price hpriced hfound)).part (by decide)).bind fun unit _ => ?_
    split
    · exact .ok _
    · rename_i hforeign
      have hforeign := Bool.eq_false_iff.2 hforeign
      simp only [Journaled.outcome_bind]
      refine (rateBetween_failsOnly store hforeign).bind fun rate hrate => ?_
      cases rate with
      | none => exact .ok _
      | some rate =>
        have hconsults := consults_rate (convertsFrom_of_prices hpriced hfound) hforeign
          (rateBetween_some hforeign hrate)
        simp only [Journaled.outcome_bind, Journaled.outcome_of]
        refine ((hread _ hconsults).part (by decide)).bind fun factor _ => ?_
        exact (ofSignal_failsOnly hsignal _).bind fun value _ => .ok _

omit hsignal in
theorem resolveCurrency_failsOnly (code : String)
    (hread : ∀ value, store.reads.Consults target date (.currency code) value → Amount.FailsReading P value) :
    FailsOnly P (store.reads.resolveCurrency code target date).outcome := by
  simp only [resolveCurrency]
  split
  · exact .ok _
  · rename_i hforeign
    have hforeign := Bool.eq_false_iff.2 hforeign
    simp only [Journaled.outcome_bind]
    refine (rateBetween_failsOnly store hforeign).bind fun rate hrate => ?_
    cases rate with
    | none => exact .ok _
    | some rate =>
      have hconsults : store.reads.Consults target date (.currency code) rate.rate :=
        consults_rate rfl hforeign (rateBetween_some hforeign hrate)
      simp only [Journaled.outcome_bind, Journaled.outcome_of]
      exact ((hread _ hconsults).part (by decide)).bind fun factor _ => .ok _

/-- Resolving an asset fails on arithmetic and on what it looks at only. -/
theorem resolve_failsOnly (asset : Asset)
    (hread : ∀ value, store.reads.Consults target date asset value → Amount.FailsReading P value) :
    FailsOnly P (store.reads.resolve asset target date).outcome := by
  cases asset with
  | currency code => exact resolveCurrency_failsOnly code hread
  | equity | crypto => exact resolvePriced_failsOnly hsignal trivial hread

end

variable {market : MarketReads}

theorem Resolves.consults (h : market.Resolves target date asset resolution) :
    (∀ price, resolution.price = some price → market.Consults target date asset price.price) ∧
      ∀ rate, resolution.rate = some rate → market.Consults target date asset rate.rate := by
  cases h with
  | target | missing => exact ⟨nofun, nofun⟩
  | @foreign code rate factor hforeign hrate hfactor =>
    refine ⟨nofun, fun found hfound => ?_⟩
    obtain rfl := Option.some.inj hfound
    exact consults_rate rfl hforeign hrate
  | priced hasset hprice | unconverted hasset hprice =>
    refine ⟨fun found hfound => ?_, nofun⟩
    obtain rfl := Option.some.inj hfound
    exact .price hasset hprice
  | converted hasset hprice hunit hforeign hrate =>
    refine ⟨fun found hfound => ?_, fun found hfound => ?_⟩
    · obtain rfl := Option.some.inj hfound
      exact .price hasset hprice
    · obtain rfl := Option.some.inj hfound
      exact consults_rate (convertsFrom_of_prices hasset hprice) hforeign hrate

theorem isDecimal_of_resolvePriced (h : (market.resolvePriced asset target date).outcome = .ok resolution)
    {price : PriceObservation} (hprice : market.Prices asset date price) :
    Amount.IsDecimal price.price ∧ ∀ rate, Currency.same price.quoteCurrency target = false →
      market.Rates price.quoteCurrency target date rate → Amount.IsDecimal rate.rate := by
  simp only [resolvePriced, Journaled.outcome_bind, Outcome.bind_ok_iff] at h
  obtain ⟨found, hfound, h⟩ := h
  obtain rfl : found = some price := Except.ok.inj (hfound.symm.trans hprice)
  simp only [Journaled.outcome_bind, Journaled.outcome_of, Outcome.bind_ok_iff] at h
  obtain ⟨unit, hunit, h⟩ := h
  refine ⟨Amount.isDecimal_of_read hunit, fun rate hforeign hrate => ?_⟩
  simp only [hforeign, Bool.false_eq_true, if_false, Journaled.outcome_bind,
    rateBetween_of_rates hforeign hrate, Except.bind, Journaled.outcome_of] at h
  obtain ⟨factor, hfactor, -⟩ := Outcome.bind_ok_iff.1 h
  exact Amount.isDecimal_of_read hfactor

theorem isDecimal_of_resolveCurrency {code : String}
    (h : (market.resolveCurrency code target date).outcome = .ok resolution)
    (hforeign : Currency.same code target = false) {rate : RateObservation}
    (hrate : market.Rates code target date rate) : Amount.IsDecimal rate.rate := by
  simp only [resolveCurrency, hforeign, Bool.false_eq_true, if_false, Journaled.outcome_bind,
    rateBetween_of_rates hforeign hrate, Except.bind, Journaled.outcome_of] at h
  obtain ⟨factor, hfactor, -⟩ := Outcome.bind_ok_iff.1 h
  exact Amount.isDecimal_of_read hfactor

theorem isDecimal_of_resolve (h : (market.resolve asset target date).outcome = .ok resolution) {value : Json}
    (hconsults : market.Consults target date asset value) : Amount.IsDecimal value := by
  cases hconsults with
  | price hpriced hprice =>
    cases asset with
    | currency => exact hpriced.elim
    | equity | crypto => exact (isDecimal_of_resolvePriced h hprice).1
  | @rate base rate hfrom hforeign hrate =>
    have hcode : ∀ code, base = Currency.normalize code → Currency.same code target = false ∧
        market.Rates code target date rate := by
      rintro code rfl
      rw [Rates, Currency.normalize_normalize] at hrate
      exact ⟨(Currency.same_normalize code target).symm.trans hforeign, hrate⟩
    cases asset with
    | currency code =>
      obtain ⟨hforeign, hrate⟩ := hcode code hfrom
      exact isDecimal_of_resolveCurrency h hforeign hrate
    | equity | crypto =>
      obtain ⟨price, hprice, hbase⟩ := hfrom
      obtain ⟨hforeign, hrate⟩ := hcode _ hbase
      exact (isDecimal_of_resolvePriced h hprice).2 rate hforeign hrate

end MarketReads

namespace Ledger

/-- Participating accounts hold assets, policies are known words, and dates lie in the calendar. -/
structure WellFormed (ledger : Ledger) : Prop where
  assets : ledger.AssetsKnown []
  policies : ∀ id overrides, Keyed.get? id ledger.overrides = some overrides →
    ∃ policy, Backfill.ofWord overrides.backfill = .ok policy
  dates : ∀ id, ∀ s ∈ ledger.snapshotsOf id, s.timestamp.utcDate?.isSome

end Ledger

namespace Valuation

variable {ledger : Ledger} {query : ValuationQuery}

/-- The balances of a well-formed ledger are found without fail. -/
theorem exists_effectiveBalance (h : ledger.WellFormed) (account : Account) :
    ∃ result, (effectiveBalance ledger.reads query account).outcome = .ok result := by
  have hpolicy : ∃ policy,
      Backfill.ofWord ((Keyed.get? account.id ledger.overrides).getD .default).backfill = .ok policy := by
    cases hget : Keyed.get? account.id ledger.overrides with
    | none => exact ⟨.none, rfl⟩
    | some overrides => exact h.policies account.id overrides hget
  obtain ⟨policy, hpolicy⟩ := hpolicy
  by_cases hexcluded : ((Keyed.get? account.id ledger.overrides).getD .default).excluded = true
  · exact ⟨none, effectiveBalance_ok_iff.2 ⟨_, rfl, by rw [if_pos hexcluded]⟩⟩
  · refine ⟨EffectiveBalance.choose account.id (ledger.snapshotsOf account.id) policy query.date
      query.currency, effectiveBalance_ok_iff.2 ⟨_, rfl, ?_⟩⟩
    rw [if_neg hexcluded]
    exact ⟨_, policy, rfl, hpolicy, rfl⟩

theorem date_and_assets_of_counted (h : ledger.WellFormed) {balances : List EffectiveBalance}
    (hbalances : countedBalances ledger.reads query = .ok balances) {effective : EffectiveBalance}
    (heffective : effective ∈ balances) :
    (∃ date, effective.date = .ok date) ∧ ∀ b ∈ effective.balances, b.Known := by
  obtain ⟨accounts, haccounts, hcounted⟩ := Outcome.andThen_ok_iff.1 hbalances
  obtain rfl := Except.ok.inj haccounts
  obtain ⟨account, haccount, hchosen⟩ := (mem_effectiveBalances hcounted).1 heffective
  obtain ⟨hincluded, policy, hchoose⟩ := effectiveBalance_some hchosen
  have hdate : effective.timestamp.utcDate?.isSome → ∃ date, effective.date = .ok date := by
    intro hsome
    obtain ⟨date, hdate⟩ := Option.isSome_iff_exists.1 hsome
    exact ⟨date, by rw [EffectiveBalance.date, hdate]⟩
  obtain ⟨backfill, s, hs, rfl⟩ | rfl := EffectiveBalance.choose_cases hchoose
  · have hparticipant : account ∈ ledger.participants [] := by
      simp [Ledger.participants, haccount, hincluded]
    exact ⟨hdate (h.dates account.id s hs), h.assets account hparticipant s hs⟩
  · refine ⟨hdate ?_, fun b hb => ?_⟩
    · exact Option.isSome_iff_exists.2 ⟨query.date, Timestamp.utcDate?_endOfDay query.date⟩
    · obtain rfl := List.mem_singleton.1 hb
      exact ⟨_, rfl⟩

end Valuation

namespace Aggregate

section

variable {P : Failure → Prop} (hsignal : ∀ signal, P (.arithmetic signal))

include hsignal

theorem enter_failsOnly (aggregates : Keyed AssetId Aggregate) (asset : Asset) (holding : Holding) :
    FailsOnly P (enter aggregates asset holding) := by
  have hjoin : ∀ (p : Portion) (entry : Option Aggregate), FailsOnly P (p.join entry) := by
    intro p entry
    cases entry with
    | none => exact .ok _
    | some aggregate => exact (ofSignal_failsOnly hsignal _).bind fun _ _ => .ok _
  rw [enter_eq aggregates ⟨asset, holding⟩]
  exact (hjoin _ _).bind fun _ _ => .ok _

theorem enterBalance_failsOnly {b : Balance} (hasset : FailsOnly P b.asset.asset)
    (hamount : Amount.FailsReading P b.amount) (accountId : String) (date : Date)
    (aggregates : Keyed AssetId Aggregate) : FailsOnly P (enterBalance accountId date aggregates b) := by
  refine FailsOnly.bind (hasset.map _) fun asset _ => ?_
  exact (hamount.part (by decide)).bind fun amount _ => enter_failsOnly hsignal _ _ _

theorem ofBalances_failsOnly {balances : List EffectiveBalance} (hdate : ∀ e ∈ balances, FailsOnly P e.date)
    (hasset : ∀ e ∈ balances, ∀ b ∈ e.balances, FailsOnly P b.asset.asset)
    (hamount : ∀ e ∈ balances, ∀ b ∈ e.balances, Amount.FailsReading P b.amount) :
    FailsOnly P (ofBalances balances) := by
  refine FailsOnly.foldlM (fun aggregates e he => ?_) []
  refine FailsOnly.bind (hdate e he) fun date _ => ?_
  exact FailsOnly.foldlM (fun m b hb => enterBalance_failsOnly hsignal (hasset e he b hb) (hamount e he b hb) _ _ _) _

end

theorem isDecimal_of_ofBalances {balances : List EffectiveBalance} {aggregates : Keyed AssetId Aggregate}
    (h : ofBalances balances = .ok aggregates) {e : EffectiveBalance} (he : e ∈ balances) {b : Balance}
    (hb : b ∈ e.balances) : Amount.IsDecimal b.amount := by
  obtain ⟨contributions, hcontributions, -⟩ := ofBalances_ok_iff.1 h
  obtain ⟨contribution, hcontribution⟩ := Outcome.exists_of_mapM hcontributions he
  obtain ⟨date, portions, -, hportions, -⟩ := Contribution.ofEffective_ok_iff.1 hcontribution
  obtain ⟨portion, hportion⟩ := Outcome.exists_of_mapM hportions hb
  obtain ⟨asset, amount, -, hamount, -⟩ := Portion.ofBalance_ok_iff.1 hportion
  exact Amount.isDecimal_of_read hamount

theorem exists_aggregate_of_balance {balances : List EffectiveBalance} {aggregates : Keyed AssetId Aggregate}
    (h : ofBalances balances = .ok aggregates) {e : EffectiveBalance} (he : e ∈ balances) {b : Balance}
    (hb : b ∈ e.balances) {id : AssetId} (hid : AssetId.ofRecord b.asset = .ok id) :
    ∃ aggregate, Keyed.get? id aggregates = some aggregate := by
  obtain ⟨contributions, hcontributions, hgather⟩ := ofBalances_ok_iff.1 h
  obtain ⟨contribution, hcontribution⟩ := Outcome.exists_of_mapM hcontributions he
  have hcounted := (Outcome.mem_of_mapM hcontributions).2 ⟨e, he, hcontribution⟩
  obtain ⟨date, portions, -, hportions, rfl⟩ := Contribution.ofEffective_ok_iff.1 hcontribution
  obtain ⟨portion, hportion⟩ := Outcome.exists_of_mapM hportions hb
  have hmem := (Outcome.mem_of_mapM hportions).2 ⟨b, hb, hportion⟩
  obtain rfl := Except.ok.inj (hid.symm.trans (Portion.id_of_ofBalance hportion))
  have hkey : portion.id ∈ Keyed.keys aggregates :=
    ((gather_keys hgather).2 _).2 (List.mem_map_of_mem (List.mem_flatMap.2 ⟨_, hcounted, hmem⟩))
  exact Option.isSome_iff_exists.1 (Keyed.get?_isSome_iff.2 hkey)

end Aggregate

def Resolution.Within (used : Json → Prop) (resolution : Resolution) : Prop :=
  (∀ price, resolution.price = some price → used price.price) ∧
    ∀ rate, resolution.rate = some rate → used rate.rate

theorem Resolution.Within.mono {used used' : Json → Prop} {resolution : Resolution} (h : resolution.Within used)
    (hused : ∀ value, used value → used' value) : resolution.Within used' :=
  ⟨fun price hprice => hused _ (h.1 price hprice), fun rate hrate => hused _ (h.2 rate hrate)⟩

theorem AssetRow.optionally_failsOnly {P : Failure → Prop} {α β : Type} {f : α → Except Failure β}
    {value : Option α} (hf : ∀ a, value = some a → FailsOnly P (f a)) : FailsOnly P (optionally f value) := by
  cases value with
  | none => exact .ok none
  | some a => exact (hf a rfl).map some

theorem AssetRow.resolutionOf_failsOnly {P : Failure → Prop} {resolved : Keyed AssetId Resolution} {id : AssetId}
    (hpresent : ∃ resolution, Keyed.get? id resolved = some resolution) :
    FailsOnly P (resolutionOf resolved id) := by
  obtain ⟨resolution, hget⟩ := hpresent
  rw [resolutionOf_ok_iff.2 hget]
  exact .ok resolution

section

variable {P : Failure → Prop} {places : Option Int} (hformat : ∀ n, FailsOnly P (Amount.format n places))

include hformat

theorem AssetRow.ofAggregate_failsOnly {resolution : Resolution} (hwithin : resolution.Within (Amount.FailsReading P))
    (aggregate : Aggregate) (value : Option Number) (holdings : Option (List HoldingRow)) :
    FailsOnly P (ofAggregate aggregate resolution value holdings places) := by
  refine FailsOnly.bind (optionally_failsOnly fun p hp => (hwithin.1 p hp).shown.map _) fun price _ => ?_
  refine FailsOnly.bind (optionally_failsOnly fun r hr => (hwithin.2 r hr).shown.map _) fun rate _ => ?_
  exact FailsOnly.bind (optionally_failsOnly fun n _ => hformat n) fun text _ => .ok _

variable (hsignal : ∀ signal, P (.arithmetic signal))

include hsignal

/-- Drawing up the rows of assets fails on arithmetic and on the observations that they show only. -/
theorem AssetRow.breakdown_failsOnly {aggregates : Keyed AssetId Aggregate}
    {resolved : Keyed AssetId Resolution}
    (hresolved : ∀ entry ∈ aggregates, ∃ resolution, Keyed.get? entry.1 resolved = some resolution)
    (hwithin : ∀ id resolution, Keyed.get? id resolved = some resolution →
      resolution.Within (Amount.FailsReading P))
    (names : Keyed String String) (detail : Bool) :
    FailsOnly P (breakdown aggregates resolved names detail places) := by
  refine FailsOnly.foldlM (fun state entry hentry => ?_) _
  have hpresent := hresolved entry ((List.mergeSort_perm _ _).mem_iff.1 hentry)
  refine (resolutionOf_failsOnly hpresent).bind fun resolution hresolution => ?_
  refine (Resolution.valueOf_failsOnly hsignal _ _).bind fun value _ => ?_
  refine (addValue_failsOnly hsignal _ _).bind fun total _ => ?_
  have hshown := hwithin _ _ (resolutionOf_ok_iff.1 hresolution)
  exact (ofAggregate_failsOnly hformat hshown _ _ _).bind fun row _ => .ok _

omit hformat in
theorem AccountRow.addBalance_failsOnly {resolved : Keyed AssetId Resolution} {b : Balance}
    (hasset : FailsOnly P b.asset.asset) (hamount : Amount.FailsReading P b.amount)
    (hpresent : ∀ id, AssetId.ofRecord b.asset = .ok id →
      ∃ resolution, Keyed.get? id resolved = some resolution) (sum : Sum) : FailsOnly P (addBalance resolved sum b) := by
  refine FailsOnly.bind (hasset.map _) fun id hid => ?_
  refine (AssetRow.resolutionOf_failsOnly (hpresent id hid)).bind fun resolution _ => ?_
  refine (hamount.part (by decide)).bind fun amount _ => ?_
  refine (Resolution.valueOf_failsOnly hsignal _ _).bind fun value _ => ?_
  cases value with
  | none => exact .ok _
  | some n => exact (ofSignal_failsOnly hsignal _).bind fun _ _ => .ok _

/-- Drawing up the rows of accounts fails on arithmetic and on the balances that they add up only. -/
theorem AccountRow.breakdown_failsOnly {balances : List EffectiveBalance} {resolved : Keyed AssetId Resolution}
    (hasset : ∀ e ∈ balances, ∀ b ∈ e.balances, FailsOnly P b.asset.asset)
    (hamount : ∀ e ∈ balances, ∀ b ∈ e.balances, Amount.FailsReading P b.amount)
    (hpresent : ∀ e ∈ balances, ∀ b ∈ e.balances, ∀ id, AssetId.ofRecord b.asset = .ok id →
      ∃ resolution, Keyed.get? id resolved = some resolution)
    (accounts : Keyed String Account) (connections : Keyed String Connection) :
    FailsOnly P (breakdown balances resolved accounts connections places).outcome := by
  simp only [breakdown, Journaled.outcome_bind, Journaled.outcome_mapM]
  refine FailsOnly.bind (FailsOnly.mapM fun e he => ?_) fun rows _ => .ok _
  unfold ofEffective
  split
  · exact .ok none
  · split
    · exact .ok none
    · simp only [Journaled.outcome_bind, Journaled.outcome_of]
      refine FailsOnly.bind ?_ fun row _ => .ok _
      refine FailsOnly.bind (FailsOnly.foldlM (fun sum b hb => ?_) _) fun sum _ => ?_
      · exact addBalance_failsOnly hsignal (hasset e he b hb) (hamount e he b hb) (hpresent e he b hb) sum
      · split
        · exact .ok _
        · exact ((hformat _).map some).bind fun value _ => .ok _

end

namespace Valuation

variable {ledger : Ledger} {store : MarketStore} {query : ValuationQuery}

/-- What a valuation reads as decimals: the amounts of the balances that count, and the prices and rates
that resolving their assets looks at. -/
inductive Uses (ledger : LedgerReads) (market : MarketReads) (query : ValuationQuery) : Json → Prop
  | amount {balances : List EffectiveBalance} {e : EffectiveBalance} {b : Balance}
    (hcounted : countedBalances ledger query = .ok balances) (he : e ∈ balances) (hb : b ∈ e.balances) :
    Uses ledger market query b.amount
  | observation {balances : List EffectiveBalance} {aggregates : Keyed AssetId Aggregate}
    {entry : AssetId × Aggregate} {value : Json} (hcounted : countedBalances ledger query = .ok balances)
    (hmerged : Aggregate.ofBalances balances = .ok aggregates) (hentry : entry ∈ aggregates)
    (hconsults : market.Consults query.currency query.date entry.2.asset value) :
    Uses ledger market query value

variable {balances : List EffectiveBalance} {aggregates : Keyed AssetId Aggregate}
  {resolved : Keyed AssetId Resolution}

/-- Whatever the rows of assets and of accounts look up was resolved: an asset has one identity before and
after it is brought to normal form. -/
theorem lookups_resolved {market : MarketReads} (hmerged : Aggregate.ofBalances balances = .ok aggregates)
    (hresolved : (resolutions market query aggregates).outcome = .ok resolved) :
    (∀ entry ∈ aggregates, entry.1 ∈ Keyed.keys resolved) ∧
      ∀ e ∈ balances, ∀ b ∈ e.balances, ∀ id, AssetId.ofRecord b.asset = .ok id → id ∈ Keyed.keys resolved := by
  have hkeys : ∀ id aggregate, Keyed.get? id aggregates = some aggregate → id ∈ Keyed.keys resolved := by
    intro id aggregate hget
    obtain ⟨resolution, hfound, -⟩ := get?_resolutions hresolved hget
    exact Keyed.get?_isSome_iff.1 (Option.isSome_iff_exists.2 ⟨resolution, hfound⟩)
  refine ⟨fun entry hentry => ?_, fun e he b hb id hid => ?_⟩
  · have hkey : entry.1 ∈ Keyed.keys aggregates := List.mem_map_of_mem hentry
    obtain ⟨aggregate, hget⟩ := Option.isSome_iff_exists.1 (Keyed.get?_isSome_iff.2 hkey)
    exact hkeys _ aggregate hget
  · obtain ⟨aggregate, hget⟩ := Aggregate.exists_aggregate_of_balance hmerged he hb hid
    exact hkeys id aggregate hget

theorem exists_resolve_of_resolutions {market : MarketReads}
    (hresolved : (resolutions market query aggregates).outcome = .ok resolved) {found : AssetId × Resolution}
    (hfound : found ∈ resolved) :
    ∃ entry ∈ aggregates, (market.resolve entry.2.asset query.currency query.date).outcome = .ok found.2 := by
  rw [resolutions, Journaled.outcome_mapM] at hresolved
  obtain ⟨entry, hentry, hresolve⟩ := (Outcome.mem_of_mapM hresolved).1 hfound
  rw [Journaled.outcome_bind] at hresolve
  obtain ⟨resolution, hresolution, heq⟩ := Outcome.bind_ok_iff.1 hresolve
  obtain rfl := Except.ok.inj heq
  exact ⟨entry, hentry, hresolution⟩

theorem within_of_resolutions (hcounted : countedBalances ledger.reads query = .ok balances)
    (hmerged : Aggregate.ofBalances balances = .ok aggregates)
    (hresolved : (resolutions store.reads query aggregates).outcome = .ok resolved) {id : AssetId}
    {resolution : Resolution} (hget : Keyed.get? id resolved = some resolution) :
    resolution.Within (Uses ledger.reads store.reads query) := by
  obtain ⟨entry, hentry, hresolve⟩ := exists_resolve_of_resolutions hresolved (Keyed.mem_of_get? hget)
  obtain ⟨hprice, hrate⟩ := (MarketReads.resolves hresolve).consults
  exact ⟨fun price h => .observation hcounted hmerged hentry (hprice price h),
    fun rate h => .observation hcounted hmerged hentry (hrate rate h)⟩

theorem read_failsOnly {P : Failure → Prop} (word : Option String) :
    FailsOnly P (Grouping.read word).outcome := by
  cases word with
  | none => exact .ok _
  | some word =>
    rw [Grouping.read]
    split <;> exact .ok _

/-- What the steps of a valuation fail on: choosing balances, dating them, telling their assets, reading what
is used, calculating and rounding. -/
structure StepsFail (P : Failure → Prop) (ledger : Ledger) (store : MarketStore) (query : ValuationQuery) :
    Prop where
  balance : ∀ account, FailsOnly P (effectiveBalance ledger.reads query account).outcome
  date : ∀ balances, countedBalances ledger.reads query = .ok balances → ∀ e ∈ balances, FailsOnly P e.date
  asset : ∀ balances, countedBalances ledger.reads query = .ok balances →
    ∀ e ∈ balances, ∀ b ∈ e.balances, FailsOnly P b.asset.asset
  value : ∀ value, Uses ledger.reads store.reads query value → Amount.FailsReading P value
  signal : ∀ signal, P (.arithmetic signal)
  format : ∀ n, FailsOnly P (Amount.format n query.places)

section

variable {P : Failure → Prop} (hsteps : StepsFail P ledger store query)

include hsteps

theorem StepsFail.effectiveBalances (accounts : List Account) :
    FailsOnly P (Valuation.effectiveBalances ledger.reads query accounts).outcome := by
  simp only [Valuation.effectiveBalances, Journaled.outcome_bind, Journaled.outcome_mapM]
  exact (FailsOnly.mapM fun account _ => hsteps.balance account).bind fun chosen _ => .ok _

theorem StepsFail.resolutions (hcounted : countedBalances ledger.reads query = .ok balances)
    (hmerged : Aggregate.ofBalances balances = .ok aggregates) :
    FailsOnly P (resolutions store.reads query aggregates).outcome := by
  rw [Valuation.resolutions, Journaled.outcome_mapM]
  refine FailsOnly.mapM fun entry hentry => ?_
  rw [Journaled.outcome_bind]
  refine FailsOnly.bind (MarketReads.resolve_failsOnly hsteps.signal entry.2.asset fun value hconsults => ?_)
    fun _ _ => .ok _
  exact hsteps.value value (.observation hcounted hmerged hentry hconsults)

/-- A valuation fails where one of its steps fails: whatever it looks up besides is there. -/
theorem StepsFail.run : FailsOnly P (run ledger.reads store.reads query).outcome := by
  simp only [Valuation.run, Journaled.outcome_bind, Journaled.outcome_of]
  refine (read_failsOnly _).bind fun grouping _ => ?_
  refine (FailsOnly.ok _).bind fun accounts haccounts => ?_
  refine (FailsOnly.ok _).bind fun connections _ => ?_
  refine (hsteps.effectiveBalances accounts).bind fun balances hbalances => ?_
  have hcounted : countedBalances ledger.reads query = .ok balances :=
    Outcome.andThen_ok_iff.2 ⟨accounts, haccounts, hbalances⟩
  have hassets := hsteps.asset balances hcounted
  have hamounts : ∀ e ∈ balances, ∀ b ∈ e.balances, Amount.FailsReading P b.amount :=
    fun e he b hb => hsteps.value _ (.amount hcounted he hb)
  have hmerge := Aggregate.ofBalances_failsOnly hsteps.signal (hsteps.date balances hcounted) hassets hamounts
  refine hmerge.bind fun aggregates hmerged => ?_
  refine (hsteps.resolutions hcounted hmerged).bind fun resolved hresolved => ?_
  -- the rows look resolutions up besides, and each look-up finds what it looks for
  obtain ⟨hentries, hrecorded⟩ := lookups_resolved hmerged hresolved
  have hpresent : ∀ id ∈ Keyed.keys resolved, ∃ resolution, Keyed.get? id resolved = some resolution :=
    fun id hid => Option.isSome_iff_exists.1 (Keyed.get?_isSome_iff.2 hid)
  have hwithin : ∀ id resolution, Keyed.get? id resolved = some resolution →
      resolution.Within (Amount.FailsReading P) :=
    fun id resolution hget => (within_of_resolutions hcounted hmerged hresolved hget).mono hsteps.value
  refine FailsOnly.bind (AssetRow.breakdown_failsOnly hsteps.format hsteps.signal
    (fun entry hentry => hpresent _ (hentries entry hentry)) hwithin _ _) ?_
  rintro ⟨rows, total⟩ -
  have htotal := hsteps.format total
  split
  · simp only [Journaled.outcome_bind, Journaled.outcome_map, Journaled.outcome_note, Journaled.outcome_of]
    refine FailsOnly.bind (FailsOnly.map (AccountRow.breakdown_failsOnly hsteps.format hsteps.signal hassets hamounts
      (fun e he b hb id hid => hpresent id (hrecorded e he b hb id hid)) _ _) _) fun accountRows _ => ?_
    exact (FailsOnly.ok ()).bind fun _ _ => htotal.bind fun _ _ => .ok _
  · simp only [Journaled.outcome_bind, Journaled.outcome_note, Journaled.outcome_of]
    exact (FailsOnly.ok none).bind fun _ _ => (FailsOnly.ok ()).bind fun _ _ => htotal.bind fun _ _ => .ok _

end

/-- In a well-formed ledger balances are found, dated and told without fail. -/
theorem stepsFail_of_wellFormed (hledger : ledger.WellFormed) (store : MarketStore) (hplaces : query.places = none) :
    StepsFail (Failure.DueTo (Uses ledger.reads store.reads query)) ledger store query where
  balance account := .of_exists (exists_effectiveBalance hledger account)
  date balances hcounted e he := .of_exists (date_and_assets_of_counted hledger hcounted he).1
  asset balances hcounted e he b hb := by
    obtain ⟨asset, hasset⟩ := (date_and_assets_of_counted hledger hcounted he).2 b hb
    rw [hasset]
    exact .ok asset
  value value hused field _ := Amount.read_failsOnly hused field
  signal := .arithmetic
  format n := by
    rw [hplaces]
    exact .ok _

theorem run_failsOnly (hledger : ledger.WellFormed) (store : MarketStore) (hplaces : query.places = none) :
    FailsOnly (Failure.DueTo (Uses ledger.reads store.reads query))
      (run ledger.reads store.reads query).outcome :=
  (stepsFail_of_wellFormed hledger store hplaces).run

theorem isDecimal_of_run {valuation : Valuation} {market : MarketReads}
    (h : (run ledger.reads market query).outcome = .ok valuation) {value : Json}
    (hused : Uses ledger.reads market query value) : Amount.IsDecimal value := by
  obtain ⟨w⟩ := nonempty_workings h
  have hcounted : countedBalances ledger.reads query = .ok w.balances :=
    Outcome.andThen_ok_iff.2 ⟨_, w.accounts_eq, w.balances_eq⟩
  have hmerged : Aggregate.ofBalances w.balances = .ok w.aggregates :=
    Aggregate.ofBalances_ok_iff.2 ⟨_, w.contributions_eq, w.aggregates_eq⟩
  cases hused with
  | amount hbalances he hb =>
    obtain rfl := Except.ok.inj (hbalances.symm.trans hcounted)
    exact Aggregate.isDecimal_of_ofBalances hmerged he hb
  | @observation balances aggregates entry value hbalances haggregates hentry hconsults =>
    obtain rfl := Except.ok.inj (hbalances.symm.trans hcounted)
    obtain rfl := Except.ok.inj (haggregates.symm.trans hmerged)
    have hget := (Keyed.mem_iff_get? (Aggregate.gather_keys w.aggregates_eq).1).1 hentry
    obtain ⟨resolution, -, hresolve⟩ := get?_resolutions w.resolved_eq hget
    exact MarketReads.isDecimal_of_resolve hresolve hconsults

/-- A valuation of a well-formed ledger finds every resolution that it looks up, and fails on arithmetic or
on a malformed value that it uses. Unless arithmetic fails it refuses exactly the malformed values, and
answers where there is none, whatever prices and rates are missing. -/
theorem fails_on_malformed_values_only (hledger : ledger.WellFormed) (hplaces : query.places = none) :
    (∀ balances aggregates resolved, countedBalances ledger.reads query = .ok balances →
      Aggregate.ofBalances balances = .ok aggregates →
      (resolutions store.reads query aggregates).outcome = .ok resolved →
      (∀ entry ∈ aggregates, entry.1 ∈ Keyed.keys resolved) ∧
        ∀ e ∈ balances, ∀ b ∈ e.balances, ∃ id ∈ Keyed.keys resolved, AssetId.ofRecord b.asset = .ok id) ∧
    FailsOnly (Failure.DueTo (Uses ledger.reads store.reads query))
      (run ledger.reads store.reads query).outcome ∧
    ((∀ signal, (run ledger.reads store.reads query).outcome ≠ .error (.arithmetic signal)) →
      ((∃ shown field, (run ledger.reads store.reads query).outcome =
          .error (.service (.invalidDecimal shown field))) ↔
        ∃ value, Uses ledger.reads store.reads query value ∧ ¬ Amount.IsDecimal value) ∧
      ((∀ value, Uses ledger.reads store.reads query value → Amount.IsDecimal value) →
        ∃ valuation, (run ledger.reads store.reads query).outcome = .ok valuation)) := by
  have hfails := run_failsOnly hledger store hplaces
  refine ⟨fun balances aggregates resolved hcounted hmerged hresolved => ?_, hfails, fun hsignal => ?_⟩
  · obtain ⟨hentries, hrecorded⟩ := lookups_resolved hmerged hresolved
    refine ⟨hentries, fun e he b hb => ?_⟩
    obtain ⟨asset, hasset⟩ := (date_and_assets_of_counted hledger hcounted he).2 b hb
    have hid : AssetId.ofRecord b.asset = .ok (AssetId.ofAsset asset) := by rw [hasset, AssetId.ofRecord_known]
    exact ⟨_, hrecorded e he b hb _ hid, hid⟩
  cases houtcome : (run ledger.reads store.reads query).outcome with
  | ok valuation =>
    refine ⟨⟨by simp, ?_⟩, fun _ => ⟨valuation, rfl⟩⟩
    rintro ⟨value, hused, hbad⟩
    exact absurd (isDecimal_of_run houtcome hused) hbad
  | error failure =>
    cases hfails failure houtcome with
    | arithmetic signal => exact absurd houtcome (hsignal signal)
    | @malformed value field hused hbad =>
      refine ⟨⟨fun _ => ⟨value, hused, hbad⟩, fun _ => ⟨_, field, rfl⟩⟩, fun hall => ?_⟩
      exact absurd (hall value hused) hbad

open Collection (shareStore shareQuery tradingDay acme)

/-- An account whose shares were not counted. -/
def uncountedLedger : Ledger :=
  ((Ledger.empty.putConnection ⟨"broker", "Broker", "manual"⟩).putAccount
    ⟨"depot", "Depot", "broker", [], true⟩).addSnapshot "depot"
      (.at (.endOfDay tradingDay) [⟨.known acme, .text "many"⟩])

theorem uncountedLedger_wellFormed : uncountedLedger.WellFormed := by
  have hsnapshots : ∀ id, ∀ s ∈ uncountedLedger.snapshotsOf id,
      s = .at (.endOfDay tradingDay) [⟨.known acme, .text "many"⟩] := by
    intro id s hs
    rw [uncountedLedger, Ledger.snapshotsOf_addSnapshot] at hs
    split at hs
    · exact List.mem_singleton.1 hs
    · simp [Ledger.snapshotsOf, Ledger.putAccount, Ledger.putConnection, Ledger.empty] at hs
  refine ⟨fun a _ s hs b hb => ?_, fun id overrides hget => ?_, fun id s hs => ?_⟩
  · obtain rfl := hsnapshots a.id s hs
    obtain rfl := List.mem_singleton.1 hb
    exact ⟨acme, rfl⟩
  · contradiction
  · obtain rfl := hsnapshots id s hs
    decide +kernel

/-- Shares that were not counted make the valuation refuse what stands for their number. -/
theorem uncounted_shares_refused : uncountedLedger.WellFormed ∧ shareQuery.places = none ∧
    (∀ signal, (run uncountedLedger.reads shareStore.reads shareQuery).outcome ≠ .error (.arithmetic signal)) ∧
    (∃ value, Uses uncountedLedger.reads shareStore.reads shareQuery value ∧ ¬ Amount.IsDecimal value) ∧
    ∃ shown field, (run uncountedLedger.reads shareStore.reads shareQuery).outcome =
      .error (.service (.invalidDecimal shown field)) := by
  have hrefused : (run uncountedLedger.reads shareStore.reads shareQuery).outcome =
      .error (.service (.invalidDecimal "'many'" (some "amount"))) := by decide +kernel
  have hsignal : ∀ signal, (run uncountedLedger.reads shareStore.reads shareQuery).outcome ≠
      .error (.arithmetic signal) := by simp [hrefused]
  have hiff := ((fails_on_malformed_values_only uncountedLedger_wellFormed rfl).2.2 hsignal).1
  exact ⟨uncountedLedger_wellFormed, rfl, hsignal, hiff.1 ⟨_, _, hrefused⟩, _, _, hrefused⟩

end Valuation

end NetWorth
