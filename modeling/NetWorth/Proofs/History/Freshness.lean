import NetWorth.Proofs.History.Points
import NetWorth.Proofs.Timeline.Observations
import NetWorth.Proofs.Valuation.Dependence

/-! # Whether a point includes the balance that fired it

A timeline assigns an instant to its date in universal time, whereas a valuation ends a date with its last
whole second. A point that a balance fired is valued with that balance, or with a later one of the account,
exactly if its instant is not after that second. What is recorded in the fraction of a second that remains
is on the date for the timeline and after it for the valuation. -/
namespace NetWorth

open BalanceSnapshot (takenBy mem_takenBy)

namespace Valuation

variable {ledger : Ledger} {market : MarketReads} {query : ValuationQuery} {valuation : Valuation}

/-- What counts for an account is a snapshot that was recorded for it, not filled in, and taken no earlier
than an instant. -/
def Includes (ledger : Ledger) (query : ValuationQuery) (accountId : String) (instant : Int) : Prop :=
  ∃ balances, countedBalances ledger.reads query = .ok balances ∧
    (∃ effective ∈ balances, effective.accountId = accountId) ∧
    ∀ effective ∈ balances, effective.accountId = accountId →
      ∃ s ∈ ledger.snapshotsOf accountId, effective = .ofSnapshot accountId none s ∧
        instant ≤ s.timestamp.instant

theorem effectiveBalance_of_takenBy {account : Account} (hincluded : ledger.excludes account.id = false)
    {s : BalanceSnapshot} (hs : s ∈ takenBy (ledger.snapshotsOf account.id) query.date)
    {result : Option EffectiveBalance}
    (h : (effectiveBalance ledger.reads query account).outcome = .ok result) :
    ∃ t ∈ ledger.snapshotsOf account.id, s.timestamp.instant ≤ t.timestamp.instant ∧
      result = some (.ofSnapshot account.id none t) := by
  obtain ⟨overrides, hoverrides, hresult⟩ := effectiveBalance_ok_iff.1 h
  obtain rfl := Except.ok.inj hoverrides
  have hincluded : ((Keyed.get? account.id ledger.overrides).getD .default).excluded = false := hincluded
  rw [hincluded] at hresult
  obtain ⟨snapshots, policy, hsnapshots, -, rfl⟩ := hresult
  obtain rfl := Except.ok.inj hsnapshots
  obtain ⟨t, ht, hle, hchoose⟩ := EffectiveBalance.choose_of_takenBy hs account.id policy query.currency
  exact ⟨t, (mem_takenBy.1 ht).1, hle, hchoose⟩

/-- A valuation includes a snapshot of a participating account, or a later one, exactly if the snapshot was
taken by the last whole second of the date. -/
theorem includes_iff {requested : List String} {account : Account}
    (hvalued : (run ledger.reads market query).outcome = .ok valuation)
    (hparticipant : account ∈ ledger.participants requested) {s : BalanceSnapshot}
    (hs : s ∈ ledger.snapshotsOf account.id) :
    Includes ledger query account.id s.timestamp.instant ↔
      s.timestamp.instant ≤ (Timestamp.endOfDay query.date).instant := by
  obtain ⟨w⟩ := nonempty_workings hvalued
  have hcounted : countedBalances ledger.reads query = .ok w.balances :=
    Outcome.andThen_ok_iff.2 ⟨w.accounts, w.accounts_eq, w.balances_eq⟩
  constructor
  · rintro ⟨balances, hbalances, ⟨effective, heffective, hid⟩, hall⟩
    obtain ⟨t, -, hrecorded, hfresh⟩ := hall effective heffective hid
    obtain rfl := Except.ok.inj (hbalances.symm.trans hcounted)
    obtain ⟨owner, -, hchosen⟩ := (mem_effectiveBalances w.balances_eq).1 heffective
    obtain ⟨-, policy, hchoose⟩ := effectiveBalance_some hchosen
    obtain ⟨u, hu, hsame⟩ := EffectiveBalance.takenBy_of_choose hchoose (congrArg (·.backfill) hrecorded)
    have htimes : t.timestamp = u.timestamp := congrArg (·.timestamp) (hrecorded.symm.trans hsame)
    rw [htimes] at hfresh
    exact hfresh.trans (mem_takenBy.1 hu).2
  · intro hby
    have htaken := mem_takenBy.2 ⟨hs, hby⟩
    obtain ⟨hasked, hincluded⟩ := List.mem_filter.1 hparticipant
    have hincluded : ledger.excludes account.id = false := by simpa using hincluded
    have haccount : account ∈ w.accounts :=
      Except.ok.inj w.accounts_eq ▸ (List.mem_filter.1 hasked).1
    refine ⟨w.balances, hcounted, ?_, fun effective heffective hid => ?_⟩
    · obtain ⟨chosen, hchosen, -⟩ := effectiveBalances_ok_iff.1 w.balances_eq
      obtain ⟨result, hresult⟩ := Outcome.exists_of_mapM hchosen haccount
      obtain ⟨t, -, -, rfl⟩ := effectiveBalance_of_takenBy hincluded htaken hresult
      exact ⟨_, (mem_effectiveBalances w.balances_eq).2 ⟨account, haccount, hresult⟩, rfl⟩
    · obtain ⟨owner, -, howner⟩ := (mem_effectiveBalances w.balances_eq).1 heffective
      have hsame : owner.id = account.id := (accountId_of_effectiveBalance howner).symm.trans hid
      rw [← hsame] at hincluded htaken ⊢
      obtain ⟨t, ht, hle, hcounts⟩ := effectiveBalance_of_takenBy hincluded htaken howner
      exact ⟨t, ht, Option.some.inj hcounts, hle⟩

end Valuation

namespace HistoryReport

open Collection (shareStore tradingDay)

theorem snapshot_of_trigger {ledger : Ledger} {store : MarketStore} {options : CollectOptions}
    {points : List ChangePoint} (h : Collector.PointsOf (Collection.timeline ledger store options) points)
    {point : ChangePoint} (hpoint : point ∈ points) {accountId : String} {asset : Asset}
    (htrigger : .balance accountId asset ∈ point.triggers) :
    ∃ account ∈ ledger.participants options.accountIds, account.id = accountId ∧
      ∃ s ∈ ledger.snapshotsOf accountId, s.timestamp.instant = point.timestamp.instant := by
  obtain ⟨event, hmem, hmoment, hfired⟩ := h.exists_event hpoint htrigger
  obtain hbalance | ⟨id, price, rfl⟩ | ⟨code, rate, rfl⟩ := Collection.timeline_cases hmem
  · obtain ⟨account, haccount, s, hs, b, -, held, -, rfl⟩ := Collection.mem_balanceEvents.1 hbalance
    obtain ⟨rfl, -⟩ := Trigger.balance.inj hfired
    have hinstant : s.timestamp.instant = point.timestamp.instant := congrArg Prod.snd hmoment
    exact ⟨account, haccount, rfl, s, hs, hinstant⟩
  · contradiction
  · contradiction

/-- A point values its change point, and includes the balances that fired it exactly if its instant is not
after the last whole second of its date. -/
structure Reflects (ledger : Ledger) (market : MarketReads) (currency : String) (places : Option Int)
    (change : ChangePoint) (point : HistoryPoint) : Prop where
  values : Values ledger.reads market currency places change point
  balances : ∀ accountId asset, .balance accountId asset ∈ change.triggers →
    (Valuation.Includes ledger ⟨point.date, currency, some Grouping.asset.word, false, places⟩ accountId
        point.timestamp.instant ↔
      point.timestamp.instant ≤ (Timestamp.endOfDay point.date).instant)

/-- Where a history answers, its points reflect those of the change report. -/
theorem points_include_balances {ledger : Ledger} {store : MarketStore} {timeline : TimelineQuery}
    {currency : String} {places : Option Int} {report : HistoryReport}
    (h : (run ledger.reads store.reads (.make timeline currency places)).outcome = .ok report) :
    ∃ changes, (ChangeReport.run ledger.reads store.reads
        { timeline with currency := some currency }).outcome = .ok changes ∧
      List.Forall₂ (Reflects ledger store.reads currency places) changes.points report.points := by
  obtain ⟨changes, hchanges, -, hpoints⟩ := changes_of_run h
  obtain ⟨collected, hcollected, hsubset⟩ := ChangeReport.pointsOf_collected hchanges
  refine ⟨changes, hchanges, Outcome.forall₂_of_mapM hpoints fun change hchange point hpoint => ?_⟩
  have hvalues := values_of_valued hpoint (hcollected.nonempty change (hsubset hchange))
  refine ⟨hvalues, fun accountId asset htrigger => ?_⟩
  obtain ⟨valuation, hvaluation, -⟩ := hvalues.worth
  obtain ⟨account, haccount, rfl, s, hs, hinstant⟩ :=
    snapshot_of_trigger hcollected (hsubset hchange) htrigger
  have hincludes := Valuation.includes_iff hvaluation haccount hs
  rwa [hinstant, ← hvalues.timestamp] at hincludes

/-- The share was counted at noon and at the last whole second of a day, and both points of the day include
what had been counted by then. -/
theorem share_point_includes_balance : ∃ changes, (ChangeReport.run shareDay.reads shareStore.reads
      { wholeTimeline with currency := some "USD" }).outcome = .ok changes ∧
    List.Forall₂ (Reflects shareDay shareStore.reads "USD" none) changes.points shareHistory.points :=
  points_include_balances share_history

def lateMoment : Timestamp := ⟨tradingDay.day * 86400000000 + 86399500000, some 0, by decide⟩

def latePurse : Ledger :=
  ((Ledger.empty.putConnection ⟨"home", "Home", "manual"⟩).putAccount
    ⟨"purse", "Purse", "home", [], true⟩).addSnapshot "purse"
      (.at lateMoment [⟨.known (.currency "USD"), .text "250"⟩])

def latePoint : HistoryPoint :=
  ⟨lateMoment, tradingDay, "0", some [(Trigger.balance "purse" (.currency "USD")).text]⟩

/-- The history of the purse has a point at the moment its balance was recorded, which is worth nothing: the
balance is not included. -/
theorem late_balance_is_left_out :
    (run latePurse.reads MarketStore.empty.reads (.make wholeTimeline "USD" none)).outcome =
      .ok ⟨"USD", ⟨none, none⟩, "none", [latePoint], none⟩ ∧
    (ChangeReport.run latePurse.reads MarketStore.empty.reads
      { wholeTimeline with currency := some "USD" }).outcome =
        .ok ⟨⟨none, none⟩, "none", true, [⟨lateMoment, [.balance "purse" (.currency "USD")]⟩]⟩ ∧
    ¬ Valuation.Includes latePurse ⟨latePoint.date, "USD", some Grouping.asset.word, false, none⟩ "purse"
      latePoint.timestamp.instant := by
  refine ⟨Outcome.ok_of_toOption (by decide +kernel), Outcome.ok_of_toOption (by decide +kernel), ?_⟩
  rintro ⟨balances, hbalances, ⟨effective, heffective, -⟩, -⟩
  have hnone : Valuation.countedBalances latePurse.reads
      ⟨latePoint.date, "USD", some Grouping.asset.word, false, none⟩ = .ok [] := rfl
  obtain rfl := Except.ok.inj (hbalances.symm.trans hnone)
  simp at heffective

end HistoryReport

end NetWorth
