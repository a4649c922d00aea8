import NetWorth.Proofs.Timeline.Observations
import NetWorth.Proofs.Valuation.Dependence

/-! # Snapshots that are recorded later

Recording one more snapshot changes what a portfolio was worth on a date only if its account takes part
and the snapshot becomes the one that counts there: as the new latest by the end of the date, or as the
new earliest where the policy carries the earliest back. Of snapshots at one instant the first recorded
counts. -/
namespace NetWorth

namespace BalanceSnapshot

variable {snapshots : List BalanceSnapshot} {policy : Backfill} {date : Date} {s : BalanceSnapshot}

/-- A snapshot that is recorded behind others takes the place of the one that counts on a date. -/
inductive Supersedes (snapshots : List BalanceSnapshot) (policy : Backfill) (date : Date)
    (s : BalanceSnapshot) : Prop
  | latest (hby : s.timestamp.instant ≤ (Timestamp.endOfDay date).instant)
    (hlater : ∀ t ∈ takenBy snapshots date, t.timestamp.instant < s.timestamp.instant) :
    Supersedes snapshots policy date s
  | carriedBack (hpolicy : policy = .carryEarliest) (hnone : takenBy snapshots date = [])
    (hafter : (Timestamp.endOfDay date).instant < s.timestamp.instant)
    (hearlier : ∀ t ∈ snapshots, s.timestamp.instant < t.timestamp.instant) :
    Supersedes snapshots policy date s

end BalanceSnapshot

namespace EffectiveBalance

open BalanceSnapshot (takenBy_concat takenBy_concat_after latest_concat earliest_concat latest_eq_none)

variable {snapshots : List BalanceSnapshot} {policy : Backfill} {date : Date} {s : BalanceSnapshot}

theorem choose_concat (accountId currency : String) (h : ¬ s.Supersedes snapshots policy date) :
    choose accountId (snapshots ++ [s]) policy date currency =
      choose accountId snapshots policy date currency := by
  unfold choose
  by_cases hby : s.timestamp.instant ≤ (Timestamp.endOfDay date).instant
  · -- it joins the snapshots of the date, one of which is no earlier
    obtain ⟨t, ht, hst⟩ : ∃ t ∈ BalanceSnapshot.takenBy snapshots date,
        s.timestamp.instant ≤ t.timestamp.instant := by
      by_contra hnone
      exact h (.latest hby fun t ht => Int.not_le.1 fun hst => hnone ⟨t, ht, hst⟩)
    rw [takenBy_concat hby, latest_concat ⟨t, ht, hst⟩]
    cases hlatest : BalanceSnapshot.latest (BalanceSnapshot.takenBy snapshots date) with
    | some u => rfl
    | none => simp [latest_eq_none.1 hlatest] at ht
  · -- it comes after the date, where only carrying back could look at it
    have hafter := Int.not_le.1 hby
    rw [takenBy_concat_after hafter]
    cases hlatest : BalanceSnapshot.latest (BalanceSnapshot.takenBy snapshots date) with
    | some u => rfl
    | none =>
      cases policy with
      | none | zero => rfl
      | carryEarliest =>
        have hearlier : ∃ t ∈ snapshots, t.timestamp.instant ≤ s.timestamp.instant := by
          by_contra hnone
          exact h (.carriedBack rfl (latest_eq_none.1 hlatest) hafter fun t ht =>
            Int.not_le.1 fun hts => hnone ⟨t, ht, hts⟩)
        simp only [earliest_concat hearlier]

end EffectiveBalance

namespace Ledger

def policyOf (ledger : Ledger) (accountId : String) : Except Failure Backfill :=
  Backfill.ofWord ((Keyed.get? accountId ledger.overrides).getD .default).backfill

/-- A further snapshot of an account becomes what the account contributes on a date. -/
structure TakesOver (ledger : Ledger) (date : Date) (accountId : String) (snapshot : BalanceSnapshot) :
    Prop where
  listed : accountId ∈ (Keyed.values ledger.accounts).map Account.id
  included : ledger.excludes accountId = false
  supersedes : ∃ policy, ledger.policyOf accountId = .ok policy ∧
    snapshot.Supersedes (ledger.snapshotsOf accountId) policy date

end Ledger

namespace Valuation

open Collection (shareLedger shareStore shareQuery shareValuation tradingDay)

variable {ledger : Ledger} {market : MarketReads} {query : ValuationQuery} {accountId : String}
  {snapshot : BalanceSnapshot}

theorem effectiveBalance_addSnapshot (h : ¬ ledger.TakesOver query.date accountId snapshot)
    {account : Account} (hlisted : account ∈ Keyed.values ledger.accounts) :
    (effectiveBalance (ledger.addSnapshot accountId snapshot).reads query account).outcome =
      (effectiveBalance ledger.reads query account).outcome := by
  simp only [effectiveBalance, Journaled.outcome_bind]
  refine Outcome.bind_congr rfl fun overrides hoverrides => ?_
  obtain rfl := Except.ok.inj hoverrides
  split
  · rfl
  · rename_i hincluded
    simp only [Journaled.outcome_bind, Journaled.outcome_of, EffectiveBalance.select_outcome,
      Ledger.reads, Ledger.snapshotsOf_addSnapshot]
    split
    · rename_i hid
      subst hid
      simp only [Except.bind]
      refine Outcome.bind_congr rfl fun policy hpolicy => ?_
      have hkept : ¬ snapshot.Supersedes (ledger.snapshotsOf account.id) policy query.date := fun hs =>
        h ⟨List.mem_map_of_mem hlisted, Bool.eq_false_iff.2 hincluded, policy, hpolicy, hs⟩
      rw [EffectiveBalance.choose_concat _ _ hkept]
    · rfl

/-- A valuation has the outcome that it had before a snapshot was recorded, unless the snapshot takes over
in an account that takes part. -/
theorem later_snapshot_leaves_valuation (h : ¬ ledger.TakesOver query.date accountId snapshot) :
    (run (ledger.addSnapshot accountId snapshot).reads market query).outcome =
      (run ledger.reads market query).outcome := by
  refine run_congr rfl rfl (fun accounts haccounts => ?_) fun _ _ => rfl
  obtain rfl := Except.ok.inj haccounts
  simp only [effectiveBalances, Journaled.outcome_bind, Journaled.outcome_mapM]
  exact Outcome.bind_congr (Outcome.mapM_congr fun account hlisted =>
    effectiveBalance_addSnapshot h hlisted) fun _ _ => rfl

def vaultLedger : Ledger :=
  (shareLedger.putAccount ⟨"vault", "Vault", "broker", [], true⟩).putOverrides "vault" ⟨"none", true, none⟩

def unreadable : BalanceSnapshot := .at (.endOfDay tradingDay) [⟨.unrecognised .null, .text "many"⟩]

/-- What cannot be read does no harm where it does not count. -/
theorem unreadable_vault_leaves_shares : ¬ vaultLedger.TakesOver tradingDay "vault" unreadable ∧
    (run (vaultLedger.addSnapshot "vault" unreadable).reads shareStore.reads shareQuery).outcome =
      .ok shareValuation := by
  have hexcluded : ¬ vaultLedger.TakesOver tradingDay "vault" unreadable := fun h =>
    absurd h.included (by decide)
  have hvalued : (run vaultLedger.reads shareStore.reads shareQuery).outcome = .ok shareValuation :=
    Outcome.ok_of_toOption (by decide +kernel)
  exact ⟨hexcluded, (later_snapshot_leaves_valuation hexcluded).trans hvalued⟩

end Valuation

end NetWorth
