import NetWorth.Proofs.Valuation.Portions
import NetWorth.Proofs.Valuation.Selection

/-! # What a valuation depends on

A valuation looks at its ledger through the accounts, the connections and the balances that count, and
at the market through the resolutions of what those balances hold. Where these agree, valuations have one
outcome, be it a result or a failure. -/
namespace NetWorth

namespace Aggregate

/-- An aggregate is of an asset that one of the merged balances holds, in normal form. -/
theorem source_of_ofBalances {balances : List EffectiveBalance} {aggregates : Keyed AssetId Aggregate}
    (h : ofBalances balances = .ok aggregates) {entry : AssetId × Aggregate} (hentry : entry ∈ aggregates) :
    ∃ effective ∈ balances, ∃ b ∈ effective.balances, ∃ asset, b.asset = .known asset ∧
      entry.2.asset = asset.normalize := by
  obtain ⟨contributions, hcontributions, hgather⟩ := ofBalances_ok_iff.1 h
  have hget := (Keyed.mem_iff_get? (gather_keys hgather).1).1 hentry
  obtain ⟨first, hfirst, hmet⟩ := first_of_gather hgather hget
  rw [hmet]
  exact Contribution.source_of_portion hcontributions (List.mem_of_find?_eq_some hfirst)

end Aggregate

namespace Valuation

variable {ledger ledger' : LedgerReads} {market market' : MarketReads} {query : ValuationQuery}

def countedBalances (ledger : LedgerReads) (query : ValuationQuery) :
    Except Failure (List EffectiveBalance) := do
  (effectiveBalances ledger query (← ledger.accounts)).outcome

def Selects (ledger : LedgerReads) (query : ValuationQuery) (asset : Asset) : Prop :=
  ∃ balances, countedBalances ledger query = .ok balances ∧
    ∃ effective ∈ balances, ∃ b ∈ effective.balances, b.asset = .known asset

/-- Valuations of ledgers with the same accounts, connections and balances that count, at markets that
resolve the selected assets alike, have one outcome. -/
theorem run_congr (haccounts : ledger'.accounts = ledger.accounts)
    (hconnections : ledger'.connections = ledger.connections)
    (hbalances : ∀ accounts, ledger.accounts = .ok accounts →
      (effectiveBalances ledger' query accounts).outcome = (effectiveBalances ledger query accounts).outcome)
    (hresolve : ∀ asset, Selects ledger query asset →
      (market'.resolve asset.normalize query.currency query.date).outcome =
        (market.resolve asset.normalize query.currency query.date).outcome) :
    (run ledger' market' query).outcome = (run ledger market query).outcome := by
  simp only [run, Journaled.outcome_bind, Journaled.outcome_of]
  refine Outcome.bind_congr rfl fun grouping _ => ?_
  refine Outcome.bind_congr haccounts fun accounts hlisted => ?_
  refine Outcome.bind_congr hconnections fun connections _ => ?_
  refine Outcome.bind_congr (hbalances accounts hlisted) fun balances hcounted => ?_
  refine Outcome.bind_congr rfl fun aggregates hmerged => ?_
  refine Outcome.bind_congr ?_ fun _ _ => rfl
  rw [resolutions, resolutions, Journaled.outcome_mapM, Journaled.outcome_mapM]
  refine Outcome.mapM_congr fun entry hentry => ?_
  obtain ⟨effective, heffective, b, hb, asset, hasset, hnormal⟩ :=
    Aggregate.source_of_ofBalances hmerged hentry
  have hcountedBalances : countedBalances ledger query = .ok balances :=
    Outcome.andThen_ok_iff.2 ⟨accounts, hlisted, hcounted⟩
  have hselects : Selects ledger query asset :=
    ⟨balances, hcountedBalances, effective, heffective, b, hb, hasset⟩
  rw [Journaled.outcome_bind, Journaled.outcome_bind, hnormal, hresolve asset hselects]

end Valuation

end NetWorth
