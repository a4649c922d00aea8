import Mathlib
import NetWorth.Proofs.Timeline.Contents

/-! # Balances and prices of one day

Prices and rates are placed at the last whole second of the day they are for, so that the balances of the
day come first. A day has a fraction of a second left after that: a balance recorded in it comes after the
prices of its day, by less than a second. Every other balance of the day comes no later than its prices and
rates, and stands before them where they share a point. -/
namespace NetWorth

namespace Timestamp

/-- No instant of a date is as much as a second after its last whole second. -/
theorem instant_lt_endOfDay {t : Timestamp} {date : Date} (h : t.utcDate? = some date) :
    t.instant < (endOfDay date).instant + microsPerSecond := by
  rw [utcDate?_eq_some_iff] at h
  rw [instant_endOfDay, microsPerSecond]
  omega

end Timestamp

def Trigger.isBalance : Trigger → Bool
  | .balance _ _ => true
  | .price _ | .rate _ _ => false

namespace Collection

variable {ledger : Ledger} {store : MarketStore} {options : CollectOptions}

theorem endOfDay_of_market {event : Event} (h : event ∈ timeline ledger store options)
    (hmarket : event.trigger.isBalance = false) : ∃ date, event.timestamp = .endOfDay date := by
  obtain hbalance | ⟨id, price, rfl⟩ | ⟨code, rate, rfl⟩ := timeline_cases h
  · obtain ⟨a, -, s, -, b, -, asset, -, rfl⟩ := mem_balanceEvents.1 hbalance
    contradiction
  · exact ⟨price.date, rfl⟩
  · exact ⟨rate.date, rfl⟩

theorem timeline_balances_first (ledger : Ledger) (store : MarketStore) (options : CollectOptions) :
    (timeline ledger store options).Pairwise fun e f =>
      f.trigger.isBalance = true → e.trigger.isBalance = true := by
  have hbalances : ∀ e ∈ ledger.balanceEvents options.accountIds, e.trigger.isBalance = true := by
    intro e he
    obtain ⟨a, -, s, -, b, -, asset, -, rfl⟩ := mem_balanceEvents.1 he
    rfl
  have hmarket : ∀ e ∈ priceEvents store options (ledger.balanceEvents options.accountIds) ++
      rateEvents store options (ledger.balanceEvents options.accountIds), e.trigger.isBalance = false := by
    intro e he
    obtain hprice | hrate := List.mem_append.1 he
    · obtain ⟨id, price, rfl⟩ := exists_price hprice
      rfl
    · obtain ⟨code, rate, rfl⟩ := exists_rate hrate
      rfl
  rw [timeline, List.append_assoc, List.pairwise_append]
  refine ⟨?_, ?_, fun e he _ _ _ => hbalances e he⟩
  · exact List.pairwise_of_forall_mem_list fun e he _ _ _ => hbalances e he
  · exact List.pairwise_of_forall_mem_list fun _ _ f hf htrue => by simp [hmarket f hf] at htrue

/-- How the balances of a day stand to its prices and rates. -/
structure DayOrder (points : List ChangePoint) : Prop where
  anchored : ∀ q ∈ points, (∃ t ∈ q.triggers, t.isBalance = false) →
    ∃ date, q.timestamp.utcDate? = some date ∧ q.timestamp.instant = (Timestamp.endOfDay date).instant
  across : ∀ p ∈ points, ∀ q ∈ points, ∀ date,
    p.timestamp.utcDate? = some date → q.timestamp.utcDate? = some date →
    (∃ t ∈ p.triggers, t.isBalance = true) → (∃ t ∈ q.triggers, t.isBalance = false) →
      (p.timestamp.instant ≤ q.timestamp.instant ↔
        p.timestamp.instant ≤ (Timestamp.endOfDay date).instant) ∧
      p.timestamp.instant < q.timestamp.instant + Timestamp.microsPerSecond
  within : ∀ p ∈ points, p.triggers.Pairwise fun s t => t.isBalance = true → s.isBalance = true

/-- In every collection that answers, a balance comes no later than the prices and rates of its day exactly
if it was recorded by the last whole second of the day, and before them where they share a point. -/
theorem balances_before_market {points : List ChangePoint}
    (h : (run ledger.reads store.reads options).outcome = .ok points) : DayOrder points := by
  have hpoints := pointsOf_of_run h
  have hanchored : ∀ q ∈ points, (∃ t ∈ q.triggers, t.isBalance = false) → ∃ date,
      q.timestamp.utcDate? = some date ∧ q.timestamp.instant = (Timestamp.endOfDay date).instant := by
    rintro q hq ⟨t, ht, hmarket⟩
    obtain ⟨event, hevent, hmoment, rfl⟩ := hpoints.exists_event hq ht
    obtain ⟨date, hdate⟩ := endOfDay_of_market hevent hmarket
    have hinstant : q.timestamp.instant = (Timestamp.endOfDay date).instant :=
      hdate ▸ (congrArg Prod.snd hmoment).symm
    exact ⟨date, (Timestamp.utcDate?_congr hinstant).trans (Timestamp.utcDate?_endOfDay date), hinstant⟩
  refine ⟨hanchored, fun p _ q hq date hpdate hqdate _ hmarket => ?_, fun p hp => ?_⟩
  · obtain ⟨day, hday, hinstant⟩ := hanchored q hq hmarket
    obtain rfl : day = date := Option.some.inj (hday.symm.trans hqdate)
    rw [hinstant]
    exact ⟨Iff.rfl, Timestamp.instant_lt_endOfDay hpdate⟩
  · rw [hpoints.triggers p hp, List.pairwise_map]
    exact (timeline_balances_first ledger store options).sublist List.filter_sublist

/-- The shares were recorded at the last whole second of a day: they share a point with their price and with
the rate of its currency, and stand first. -/
theorem shares_before_price : DayOrder sharePoints :=
  balances_before_market shares_collected

def lateTrade : Timestamp := ⟨tradingDay.day * 86400000000 + 86399250000, some 0, by decide⟩

def lateLedger : Ledger :=
  ((Ledger.empty.putConnection ⟨"broker", "Broker", "manual"⟩).putAccount
    ⟨"depot", "Depot", "broker", [], true⟩).addSnapshot "depot"
      (.at lateTrade [⟨.known acme, .text "10"⟩])

/-- The price of the day comes before the shares that were recorded on it. -/
theorem price_before_late_trade :
    (run lateLedger.reads shareStore.reads defaultOptions).outcome =
      .ok [⟨.endOfDay tradingDay, [.price ⟨"equity/ACME"⟩]⟩, ⟨lateTrade, [.balance "depot" acme]⟩] ∧
    lateTrade.utcDate? = (Timestamp.endOfDay tradingDay).utcDate? ∧
    ¬ lateTrade.instant ≤ (Timestamp.endOfDay tradingDay).instant := by
  refine ⟨by cbv, ?_, by decide +kernel⟩
  rw [Timestamp.utcDate?_endOfDay, Timestamp.utcDate?_eq_some_iff]
  decide +kernel

end Collection

end NetWorth
