import NetWorth.Proofs.Valuation.Workings

/-! # The total of a valuation

The total is due to what counts on the date and to what the market says of it. How a valuation is grouped
and whether it goes into detail shows in its breakdowns only. -/
namespace NetWorth

namespace Valuation

variable {ledger : LedgerReads} {market : MarketReads} {date : Date} {currency : String}
  {places : Option Int} {grouping grouping' : Option String} {detail detail' : Bool}
  {valuation valuation' : Valuation}

/-- Valuations that differ in their breakdowns have one total. -/
theorem totalValue_unique
    (h : (run ledger market ⟨date, currency, grouping, detail, places⟩).outcome = .ok valuation)
    (h' : (run ledger market ⟨date, currency, grouping', detail', places⟩).outcome = .ok valuation') :
    valuation.totalValue = valuation'.totalValue := by
  obtain ⟨w⟩ := nonempty_workings h
  obtain ⟨w'⟩ := nonempty_workings h'
  have haccounts : w'.accounts = w.accounts := Except.ok.inj (w'.accounts_eq.symm.trans w.accounts_eq)
  have hbalances : w'.balances = w.balances :=
    Except.ok.inj (w'.balances_eq.symm.trans (haccounts ▸ w.balances_eq))
  have hcontributions : w'.contributions = w.contributions :=
    Except.ok.inj (w'.contributions_eq.symm.trans (hbalances ▸ w.contributions_eq))
  have haggregates : w'.aggregates = w.aggregates :=
    Except.ok.inj (w'.aggregates_eq.symm.trans (hcontributions ▸ w.aggregates_eq))
  have hresolved : w'.resolved = w.resolved :=
    Except.ok.inj (w'.resolved_eq.symm.trans (haggregates ▸ w.resolved_eq))
  -- the rows differ in their holdings, their values do not
  have hrows : List.Forall₂ (fun row row' => row.2 = row'.2) w.rows w'.rows := by
    refine Outcome.forall₂_of_mapM_mapM w.rows_eq (haggregates ▸ w'.rows_eq) ?_
    intro entry _ row row' hrow hrow'
    obtain ⟨resolution, hfound, hvalue, -⟩ := AssetRow.valued_ok_iff.1 hrow
    obtain ⟨resolution', hfound', hvalue', -⟩ := AssetRow.valued_ok_iff.1 hrow'
    rw [hresolved] at hfound'
    obtain rfl := Option.some.inj (hfound.symm.trans hfound')
    exact Except.ok.inj (hvalue.symm.trans hvalue')
  have hvalues : w'.rows.map Prod.snd = w.rows.map Prod.snd := by
    rw [← List.forall₂_eq_eq_eq, List.forall₂_map_left_iff, List.forall₂_map_right_iff]
    exact hrows.flip.imp fun _ _ h => h.symm
  have htotal : w'.total = w.total :=
    Except.ok.inj (w'.total_eq.symm.trans (hvalues ▸ w.total_eq))
  exact Except.ok.inj (w.totalValue_eq.symm.trans (htotal ▸ w'.totalValue_eq))

end Valuation

end NetWorth
