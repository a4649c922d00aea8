import Mathlib.Data.Int.ConditionallyCompleteOrder
import Mathlib.Data.List.MinMax
import Mathlib.Order.ConditionallyCompleteLattice.Basic
import NetWorth.Proofs.Outcome
import NetWorth.Valuation

/-! # Which balance counts

An account that is not excluded contributes the latest of its snapshots by the end of the day, or what
its policy puts in place of one. -/
namespace NetWorth

namespace Timestamp

/-- A whole second of a day is over by the end of a date exactly if the day is. -/
theorem instant_le_endOfDay_iff {t : Timestamp} {day date : Date} (hwhole : t.microsecond = 0)
    (hday : t.utcDate? = some day) : t.instant ≤ (endOfDay date).instant ↔ day ≤ date := by
  rw [utcDate?_eq_some_iff] at hday
  rw [instant_endOfDay]
  show t.instant ≤ _ ↔ day.day ≤ date.day
  simp only [instant, microsecond, microsPerSecond] at hwhole hday ⊢
  omega

end Timestamp

namespace BalanceSnapshot

variable {snapshots : List BalanceSnapshot} {s : BalanceSnapshot} {date : Date}

theorem mem_takenBy : s ∈ takenBy snapshots date ↔
    s ∈ snapshots ∧ s.timestamp.instant ≤ (Timestamp.endOfDay date).instant := by
  simp [takenBy]

theorem takenBy_concat (h : s.timestamp.instant ≤ (Timestamp.endOfDay date).instant) :
    takenBy (snapshots ++ [s]) date = takenBy snapshots date ++ [s] := by
  rw [takenBy, List.filter_append, List.filter_cons_of_pos (by simpa using h)]
  rfl

theorem takenBy_concat_after (h : (Timestamp.endOfDay date).instant < s.timestamp.instant) :
    takenBy (snapshots ++ [s]) date = takenBy snapshots date := by
  rw [takenBy, List.filter_append, List.filter_cons_of_neg (by simpa using h)]
  exact List.append_nil _

/-- Of the latest snapshots the first is taken, as the library does. -/
theorem latest_eq_argmax (snapshots : List BalanceSnapshot) :
    latest snapshots = snapshots.argmax (·.timestamp.instant) := by
  induction snapshots with
  | nil => rfl
  | cons s rest ih =>
    rw [latest, List.argmax_cons, ih]
    cases rest.argmax (·.timestamp.instant) <;> rfl

theorem earliest_eq_argmin (snapshots : List BalanceSnapshot) :
    earliest snapshots = snapshots.argmin (·.timestamp.instant) := by
  induction snapshots with
  | nil => rfl
  | cons s rest ih =>
    rw [earliest, List.argmin_cons, ih]
    cases rest.argmin (·.timestamp.instant) <;> rfl

theorem latest_eq_none : latest snapshots = none ↔ snapshots = [] := by
  rw [latest_eq_argmax, List.argmax_eq_none]

theorem mem_of_latest (h : latest snapshots = some s) : s ∈ snapshots := by
  rw [latest_eq_argmax] at h
  exact List.argmax_mem h

theorem le_of_latest (h : latest snapshots = some s) {t : BalanceSnapshot} (ht : t ∈ snapshots) :
    t.timestamp.instant ≤ s.timestamp.instant := by
  rw [latest_eq_argmax] at h
  exact List.le_of_mem_argmax (f := fun s : BalanceSnapshot => s.timestamp.instant) ht h

theorem mem_of_earliest (h : earliest snapshots = some s) : s ∈ snapshots := by
  rw [earliest_eq_argmin] at h
  exact List.argmin_mem h

theorem le_of_earliest (h : earliest snapshots = some s) {t : BalanceSnapshot} (ht : t ∈ snapshots) :
    s.timestamp.instant ≤ t.timestamp.instant := by
  rw [earliest_eq_argmin] at h
  exact List.le_of_mem_argmin (f := fun s : BalanceSnapshot => s.timestamp.instant) ht h

/-- A snapshot behind the others is the latest only if it is later than each of them. -/
theorem latest_concat (h : ∃ t ∈ snapshots, s.timestamp.instant ≤ t.timestamp.instant) :
    latest (snapshots ++ [s]) = latest snapshots := by
  obtain ⟨t, ht, hst⟩ := h
  cases hlatest : latest snapshots with
  | none => simp [latest_eq_none.1 hlatest] at ht
  | some u =>
    have htu := le_of_latest hlatest ht
    rw [latest_eq_argmax] at hlatest ⊢
    rw [List.argmax_concat, hlatest]
    exact if_neg (by omega)

theorem earliest_concat (h : ∃ t ∈ snapshots, t.timestamp.instant ≤ s.timestamp.instant) :
    earliest (snapshots ++ [s]) = earliest snapshots := by
  obtain ⟨t, ht, hts⟩ := h
  cases hearliest : earliest snapshots with
  | none =>
    rw [earliest_eq_argmin, List.argmin_eq_none] at hearliest
    simp [hearliest] at ht
  | some u =>
    have hut := le_of_earliest hearliest ht
    rw [earliest_eq_argmin] at hearliest ⊢
    rw [List.argmin_concat, hearliest]
    exact if_neg (by omega)

end BalanceSnapshot

namespace EffectiveBalance

variable {accountId : String} {snapshots : List BalanceSnapshot} {policy : Backfill} {date : Date}
  {currency : String} {effective : EffectiveBalance}

theorem select_outcome : (select accountId snapshots policy date currency).outcome =
    .ok (choose accountId snapshots policy date currency) := by
  unfold select
  simp only
  split
  · rfl
  · rfl

/-- What is chosen is a recorded snapshot or the zero of the policy. -/
theorem choose_cases (h : choose accountId snapshots policy date currency = some effective) :
    (∃ backfill, ∃ s ∈ snapshots, effective = ofSnapshot accountId backfill s) ∨
      effective = zero accountId date currency := by
  unfold choose at h
  split at h
  · rename_i s hs
    obtain rfl := Option.some.inj h
    exact .inl ⟨_, s, (BalanceSnapshot.mem_takenBy.1 (BalanceSnapshot.mem_of_latest hs)).1, rfl⟩
  · cases policy with
    | none => contradiction
    | zero => exact .inr (Option.some.inj h).symm
    | carryEarliest =>
      obtain ⟨s, hs, rfl⟩ := Option.map_eq_some_iff.1 h
      exact .inl ⟨_, s, BalanceSnapshot.mem_of_earliest hs, rfl⟩

/-- Once an account has a snapshot by the end of a date, one that is no earlier counts, whatever the
policy. -/
theorem choose_of_takenBy {s : BalanceSnapshot} (hs : s ∈ BalanceSnapshot.takenBy snapshots date)
    (accountId : String) (policy : Backfill) (currency : String) :
    ∃ t ∈ BalanceSnapshot.takenBy snapshots date, s.timestamp.instant ≤ t.timestamp.instant ∧
      choose accountId snapshots policy date currency = some (ofSnapshot accountId none t) := by
  unfold choose
  cases hlatest : BalanceSnapshot.latest (BalanceSnapshot.takenBy snapshots date) with
  | none => simp [BalanceSnapshot.latest_eq_none.1 hlatest] at hs
  | some t => exact ⟨t, BalanceSnapshot.mem_of_latest hlatest, BalanceSnapshot.le_of_latest hlatest hs, rfl⟩

/-- What counts and is not filled in was recorded by the end of the date. -/
theorem takenBy_of_choose (h : choose accountId snapshots policy date currency = some effective)
    (hobserved : effective.backfill = none) :
    ∃ t ∈ BalanceSnapshot.takenBy snapshots date, effective = ofSnapshot accountId none t := by
  unfold choose at h
  split at h
  · rename_i t ht
    exact ⟨t, BalanceSnapshot.mem_of_latest ht, (Option.some.inj h).symm⟩
  · cases policy with
    | none => contradiction
    | zero =>
      obtain rfl := Option.some.inj h
      contradiction
    | carryEarliest =>
      obtain ⟨t, -, rfl⟩ := Option.map_eq_some_iff.1 h
      contradiction

theorem choose_accountId (h : choose accountId snapshots policy date currency = some effective) :
    effective.accountId = accountId := by
  obtain ⟨backfill, s, -, rfl⟩ | rfl := choose_cases h <;> rfl

end EffectiveBalance

namespace Valuation

variable {ledger : LedgerReads} {query : ValuationQuery}

/-- What an account contributes follows from what the ledger has under its identifier. -/
theorem effectiveBalance_ok_iff {account : Account} {result : Option EffectiveBalance} :
    (effectiveBalance ledger query account).outcome = .ok result ↔
      ∃ overrides, ledger.overrides account.id = .ok overrides ∧
        if (overrides.getD .default).excluded then result = none
        else ∃ snapshots policy, ledger.snapshots account.id = .ok snapshots ∧
          Backfill.ofWord (overrides.getD .default).backfill = .ok policy ∧
          result = EffectiveBalance.choose account.id snapshots policy query.date query.currency := by
  simp only [effectiveBalance, Journaled.outcome_bind, Journaled.outcome_of, Outcome.bind_ok_iff]
  refine exists_congr fun overrides => and_congr_right fun _ => ?_
  split
  · simp [eq_comm]
  · simp only [Journaled.outcome_bind, Journaled.outcome_of, Outcome.bind_ok_iff,
      EffectiveBalance.select_outcome, Except.ok.injEq]
    constructor
    · rintro ⟨snapshots, hsnapshots, policy, hpolicy, rfl⟩
      exact ⟨snapshots, policy, hsnapshots, hpolicy, rfl⟩
    · rintro ⟨snapshots, policy, hsnapshots, hpolicy, rfl⟩
      exact ⟨snapshots, hsnapshots, policy, hpolicy, rfl⟩

theorem accountId_of_effectiveBalance {account : Account} {effective : EffectiveBalance}
    (h : (effectiveBalance ledger query account).outcome = .ok (some effective)) :
    effective.accountId = account.id := by
  obtain ⟨overrides, -, hresult⟩ := effectiveBalance_ok_iff.1 h
  split at hresult
  · contradiction
  · obtain ⟨snapshots, policy, -, -, hchoose⟩ := hresult
    exact EffectiveBalance.choose_accountId hchoose.symm

theorem effectiveBalances_ok_iff {accounts : List Account} {balances : List EffectiveBalance} :
    (effectiveBalances ledger query accounts).outcome = .ok balances ↔
      ∃ chosen, (accounts.mapM fun a => (effectiveBalance ledger query a).outcome) = .ok chosen ∧
        chosen.filterMap id = balances := by
  simp only [effectiveBalances, Journaled.outcome_bind, Journaled.outcome_mapM,
    Journaled.outcome_pure, Outcome.bind_ok_iff, Except.ok.injEq]

theorem mem_effectiveBalances {accounts : List Account} {balances : List EffectiveBalance}
    (h : (effectiveBalances ledger query accounts).outcome = .ok balances) {effective : EffectiveBalance} :
    effective ∈ balances ↔
      ∃ account ∈ accounts, (effectiveBalance ledger query account).outcome = .ok (some effective) := by
  obtain ⟨chosen, hchosen, rfl⟩ := effectiveBalances_ok_iff.1 h
  rw [← Outcome.mem_of_mapM hchosen]
  simp

end Valuation

end NetWorth
