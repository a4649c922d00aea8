import NetWorth.Proofs.Market.Resolution
import NetWorth.Proofs.Valuation.Portions

/-! # The workings of a valuation

A valuation that answers went through the steps collected here: contributions, aggregates, one
resolution for each of them, one row for each of them, and the rows of the accounts. -/
namespace NetWorth

variable {ledger : LedgerReads} {market : MarketReads} {query : ValuationQuery}

namespace Valuation

/-- Every aggregate has its resolution under the same identity. -/
theorem resolutions_ok_iff {aggregates : Keyed AssetId Aggregate} {resolved : Keyed AssetId Resolution} :
    (resolutions market query aggregates).outcome = .ok resolved ↔
      List.Forall₂ (fun a r => (market.resolve a.2.asset query.currency query.date).outcome = .ok r.2
        ∧ r.1 = a.1) aggregates resolved := by
  rw [resolutions, Journaled.outcome_mapM, Outcome.mapM_ok_iff]
  have hstep : ∀ (a : AssetId × Aggregate) (r : AssetId × Resolution),
      (do return (a.1, ← market.resolve a.2.asset query.currency query.date) :
        Journaled (AssetId × Resolution)).outcome = .ok r ↔
      (market.resolve a.2.asset query.currency query.date).outcome = .ok r.2 ∧ r.1 = a.1 := by
    rintro ⟨id, aggregate⟩ ⟨rid, resolution⟩
    simp only [Journaled.outcome_bind, Journaled.outcome_pure, Outcome.bind_ok_iff, Except.ok.injEq,
      Prod.mk.injEq]
    constructor
    · rintro ⟨found, hfound, rfl, rfl⟩
      exact ⟨hfound, rfl⟩
    · rintro ⟨hfound, rfl⟩
      exact ⟨_, hfound, rfl, rfl⟩
  simp only [hstep]

theorem keys_resolutions {aggregates : Keyed AssetId Aggregate} {resolved : Keyed AssetId Resolution}
    (h : (resolutions market query aggregates).outcome = .ok resolved) :
    Keyed.keys resolved = Keyed.keys aggregates := by
  have hall := resolutions_ok_iff.1 h
  clear h
  induction hall with
  | nil => rfl
  | cons hhead _ ih =>
    simp only [Keyed.keys, List.map_cons] at ih ⊢
    rw [hhead.2, ih]

theorem get?_resolutions {aggregates : Keyed AssetId Aggregate} {resolved : Keyed AssetId Resolution}
    (h : (resolutions market query aggregates).outcome = .ok resolved) {id : AssetId}
    {aggregate : Aggregate} (hget : Keyed.get? id aggregates = some aggregate) :
    ∃ resolution, Keyed.get? id resolved = some resolution ∧
      (market.resolve aggregate.asset query.currency query.date).outcome = .ok resolution := by
  have hall := resolutions_ok_iff.1 h
  clear h
  induction hall with
  | nil => simp at hget
  | @cons a r _ _ hhead _ ih =>
    obtain ⟨aid, other⟩ := a
    obtain ⟨rid, resolution⟩ := r
    obtain ⟨hresolve, rfl⟩ := hhead
    rw [Keyed.get?_cons] at hget ⊢
    split at hget
    · rename_i hid
      obtain rfl := Option.some.inj hget
      exact ⟨resolution, if_pos hid, hresolve⟩
    · rename_i hid
      rw [if_neg hid]
      exact ih hget

end Valuation

namespace AssetRow

theorem value_of_ofAggregate {aggregate : Aggregate} {resolution : Resolution} {value : Option Number}
    {holdings : Option (List HoldingRow)} {row : AssetRow}
    (h : ofAggregate aggregate resolution value holdings none = .ok row) :
    row.value = value.map Number.canonical := by
  simp only [ofAggregate, Outcome.andThen_ok_iff, Outcome.pure_ok_iff] at h
  obtain ⟨price, -, rate, -, text, htext, rfl⟩ := h
  cases value with
  | none => exact (Except.ok.inj htext).symm
  | some n => exact (Except.ok.inj htext).symm

theorem isSome_of_optionally {α β : Type} {f : α → Except Failure β} {given : Option α} {made : Option β}
    (h : optionally f given = .ok made) : made.isSome = given.isSome := by
  cases given with
  | none =>
    obtain rfl := Except.ok.inj h
    rfl
  | some a =>
    obtain ⟨b, -, rfl⟩ := Outcome.map_ok_iff.1 h
    rfl

theorem observations_of_ofAggregate {aggregate : Aggregate} {resolution : Resolution}
    {value : Option Number} {holdings : Option (List HoldingRow)} {places : Option Int} {row : AssetRow}
    (h : ofAggregate aggregate resolution value holdings places = .ok row) :
    row.asset = aggregate.asset ∧ row.price.isSome = resolution.price.isSome ∧
      row.rate.isSome = resolution.rate.isSome := by
  simp only [ofAggregate, Outcome.andThen_ok_iff, Outcome.pure_ok_iff] at h
  obtain ⟨price, hprice, rate, hrate, text, -, rfl⟩ := h
  exact ⟨rfl, isSome_of_optionally hprice, isSome_of_optionally hrate⟩

theorem isSome_value_of_ofAggregate {aggregate : Aggregate} {resolution : Resolution}
    {value : Option Number} {holdings : Option (List HoldingRow)} {places : Option Int} {row : AssetRow}
    (h : ofAggregate aggregate resolution value holdings places = .ok row) :
    row.value.isSome = value.isSome := by
  simp only [ofAggregate, Outcome.andThen_ok_iff, Outcome.pure_ok_iff] at h
  obtain ⟨price, -, rate, -, text, htext, rfl⟩ := h
  exact isSome_of_optionally htext

theorem keys_byIdentity_perm (aggregates : Keyed AssetId Aggregate) :
    (Keyed.keys (byIdentity aggregates)).Perm (Keyed.keys aggregates) :=
  (List.mergeSort_perm _ _).map _

theorem resolutionOf_ok_iff {resolved : Keyed AssetId Resolution} {id : AssetId}
    {resolution : Resolution} :
    resolutionOf resolved id = .ok resolution ↔ Keyed.get? id resolved = some resolution := by
  unfold resolutionOf
  cases Keyed.get? id resolved <;> simp

def valued (resolved : Keyed AssetId Resolution) (names : Keyed String String) (detail : Bool)
    (places : Option Int) (entry : AssetId × Aggregate) : Except Failure (AssetRow × Option Number) := do
  let resolution ← resolutionOf resolved entry.1
  let value ← resolution.valueOf entry.2.total
  let holdings := if detail then some (entry.2.holdings.map (holdingRow names)) else none
  let row ← ofAggregate entry.2 resolution value holdings places
  return (row, value)

variable {resolved : Keyed AssetId Resolution} {names : Keyed String String} {detail : Bool}
  {places : Option Int}

/-- A row and its value come from the resolution under the identity of the aggregate. -/
theorem valued_ok_iff {entry : AssetId × Aggregate} {row : AssetRow × Option Number} :
    valued resolved names detail places entry = .ok row ↔
      ∃ resolution, Keyed.get? entry.1 resolved = some resolution ∧
        resolution.valueOf entry.2.total = .ok row.2 ∧
        ofAggregate entry.2 resolution row.2
          (if detail then some (entry.2.holdings.map (holdingRow names)) else none) places = .ok row.1 := by
  obtain ⟨drawn, value⟩ := row
  simp only [valued, Outcome.andThen_ok_iff, resolutionOf_ok_iff, Outcome.pure_ok_iff, Prod.mk.injEq]
  constructor
  · rintro ⟨resolution, hresolution, value, hvalue, drawn, hdrawn, rfl, rfl⟩
    exact ⟨resolution, hresolution, hvalue, hdrawn⟩
  · rintro ⟨resolution, hresolution, hvalue, hdrawn⟩
    exact ⟨resolution, hresolution, value, hvalue, drawn, hdrawn, rfl, rfl⟩

theorem addRow_ok_iff {state next : List AssetRow × Number} {entry : AssetId × Aggregate} :
    addRow resolved names detail places state entry = .ok next ↔
      ∃ row, valued resolved names detail places entry = .ok row ∧
        (addValue state.2 row.2).map (fun total => (state.1 ++ [row.1], total)) = .ok next := by
  simp only [addRow, valued, Outcome.andThen_ok_iff, Outcome.pure_ok_iff, Outcome.map_ok_iff]
  constructor
  · rintro ⟨resolution, hresolution, value, hvalue, total, htotal, row, hrow, rfl⟩
    exact ⟨(row, value), ⟨resolution, hresolution, value, hvalue, row, hrow, rfl⟩, total, htotal, rfl⟩
  · rintro ⟨-, ⟨resolution, hresolution, value, hvalue, row, hrow, rfl⟩, total, htotal, rfl⟩
    exact ⟨resolution, hresolution, value, hvalue, total, htotal, row, hrow, rfl⟩

theorem foldlM_addValue_ok_iff {rows : List (AssetRow × Option Number)}
    {state next : List AssetRow × Number} :
    rows.foldlM (fun s r => (addValue s.2 r.2).map fun total => (s.1 ++ [r.1], total)) state = .ok next ↔
      next.1 = state.1 ++ rows.map Prod.fst ∧
        (rows.map Prod.snd).foldlM addValue state.2 = .ok next.2 := by
  induction rows generalizing state with
  | nil =>
    obtain ⟨rows, total⟩ := next
    obtain ⟨before, sum⟩ := state
    simp only [Outcome.foldlM_nil_ok_iff, List.map_nil, List.append_nil, Prod.mk.injEq]
    exact and_congr_left' eq_comm
  | cons row rows ih =>
    simp only [Outcome.foldlM_cons_ok_iff, Outcome.map_ok_iff, ih, List.map_cons]
    constructor
    · rintro ⟨-, ⟨total, htotal, rfl⟩, hrows, hrest⟩
      exact ⟨by simp [hrows], total, htotal, hrest⟩
    · rintro ⟨hrows, total, htotal, hrest⟩
      exact ⟨_, ⟨total, htotal, rfl⟩, by simp [hrows], hrest⟩

/-- The breakdown has a row for every aggregate in the order of identities, and the values add up. -/
theorem breakdown_ok_iff {aggregates : Keyed AssetId Aggregate} {rows : List AssetRow} {total : Number} :
    breakdown aggregates resolved names detail places = .ok (rows, total) ↔
      ∃ entries, (byIdentity aggregates).mapM (valued resolved names detail places) = .ok entries ∧
        rows = entries.map Prod.fst ∧
        (entries.map Prod.snd).foldlM addValue (.finite .zero) = .ok total := by
  have hfold : breakdown aggregates resolved names detail places = .ok (rows, total) ↔
      ∃ entries, (byIdentity aggregates).mapM (valued resolved names detail places) = .ok entries ∧
        entries.foldlM (fun s r => (addValue s.2 r.2).map fun t => (s.1 ++ [r.1], t))
          ([], .finite .zero) = .ok (rows, total) := by
    refine Outcome.foldlM_mapM ?_
    exact fun _ _ _ => addRow_ok_iff
  simp only [hfold, foldlM_addValue_ok_iff, List.nil_append]

end AssetRow

namespace AccountRow

variable {resolved : Keyed AssetId Resolution} {accountId : String} {date : Date}

def valued (resolved : Keyed AssetId Resolution) (accountId : String) (date : Date) (balance : Balance) :
    Except Failure (Option Number) := do
  let portion ← Portion.ofBalance accountId date balance
  let resolution ← AssetRow.resolutionOf resolved portion.id
  resolution.valueOf portion.amount

def Sum.add (sum : Sum) (value : Option Number) : Except Failure Sum :=
  (AssetRow.addValue sum.total value).map fun total => ⟨total, sum.missing || value.isNone⟩

theorem addBalance_ok_iff {sum next : Sum} {balance : Balance} :
    addBalance resolved sum balance = .ok next ↔
      ∃ value, valued resolved accountId date balance = .ok value ∧ sum.add value = .ok next := by
  simp only [addBalance, valued, Outcome.andThen_ok_iff]
  constructor
  · rintro ⟨id, hid, resolution, hresolution, amount, hamount, value, hvalue, hnext⟩
    obtain ⟨asset, hasset, rfl⟩ := Outcome.map_ok_iff.1 hid
    cases hrecord : balance.asset with
    | unrecognised json =>
      rw [hrecord] at hasset
      contradiction
    | known known =>
      rw [hrecord] at hasset
      obtain rfl := Except.ok.inj hasset
      refine ⟨value, ⟨_, Portion.ofBalance_ok_iff.2 ⟨known, amount, hrecord, hamount, rfl⟩, resolution,
        ?_, hvalue⟩, ?_⟩
      · simpa [Portion.id] using hresolution
      · cases value with
        | none => simpa [Sum.add, AssetRow.addValue, Except.map, pure, Except.pure] using hnext
        | some n => simpa [Sum.add, AssetRow.addValue] using hnext
  · rintro ⟨value, ⟨portion, hportion, resolution, hresolution, hvalue⟩, hnext⟩
    obtain ⟨asset, amount, hasset, hamount, rfl⟩ := Portion.ofBalance_ok_iff.1 hportion
    refine ⟨_, Portion.id_of_ofBalance hportion, resolution, hresolution, amount, hamount, value, hvalue, ?_⟩
    cases value with
    | none => simpa [Sum.add, AssetRow.addValue, Except.map, pure, Except.pure] using hnext
    | some n => simpa [Sum.add, AssetRow.addValue] using hnext

theorem foldlM_sum_ok_iff {values : List (Option Number)} {sum next : Sum} :
    values.foldlM Sum.add sum = .ok next ↔
      values.foldlM AssetRow.addValue sum.total = .ok next.total ∧
        next.missing = (sum.missing || values.any Option.isNone) := by
  induction values generalizing sum with
  | nil =>
    obtain ⟨total, missing⟩ := sum
    obtain ⟨nextTotal, nextMissing⟩ := next
    simp only [Outcome.foldlM_nil_ok_iff, List.any_nil, Bool.or_false, Sum.mk.injEq]
    exact and_congr_right' eq_comm
  | cons value values ih =>
    simp only [Outcome.foldlM_cons_ok_iff, Sum.add, Outcome.map_ok_iff, ih, List.any_cons,
      ← Bool.or_assoc]
    constructor
    · rintro ⟨-, ⟨total, htotal, rfl⟩, hrest, hmissing⟩
      exact ⟨⟨total, htotal, hrest⟩, hmissing⟩
    · rintro ⟨⟨total, htotal, hrest⟩, hmissing⟩
      exact ⟨_, ⟨total, htotal, rfl⟩, hrest, hmissing⟩

/-- The row of an account sums up the values of its balances, unless one is missing. -/
theorem sum_of_ofBalances (accountId : String) (date : Date) {account : Account} {connection : Connection}
    {places : Option Int} {balances : List Balance} {row : AccountRow}
    (h : ofBalances resolved account connection places balances = .ok row) :
    ∃ values total, balances.mapM (valued resolved accountId date) = .ok values ∧
      values.foldlM AssetRow.addValue (.finite .zero) = .ok total ∧
      (if values.any Option.isNone then .ok none else (Amount.format total places).map some) =
        .ok row.value ∧
      row = ⟨account.id, account.name, connection.name, row.value⟩ := by
  obtain ⟨sum, hsum, hrow⟩ := Outcome.andThen_ok_iff.1 h
  have hfold : balances.foldlM (addBalance resolved) ⟨.finite .zero, false⟩ = .ok sum ↔
      ∃ values, balances.mapM (valued resolved accountId date) = .ok values ∧
        values.foldlM Sum.add ⟨.finite .zero, false⟩ = .ok sum := by
    refine Outcome.foldlM_mapM ?_
    exact fun _ _ _ => addBalance_ok_iff
  obtain ⟨values, hvalues, hsum⟩ := hfold.1 hsum
  obtain ⟨htotal, hmissing⟩ := foldlM_sum_ok_iff.1 hsum
  rw [Bool.false_or] at hmissing
  refine ⟨values, sum.total, hvalues, htotal, ?_⟩
  rw [← hmissing]
  split at hrow <;> rename_i hany
  · obtain rfl := Except.ok.inj hrow
    exact ⟨if_pos hany, rfl⟩
  · obtain ⟨value, hvalue, hrow⟩ := Outcome.andThen_ok_iff.1 hrow
    obtain rfl := Except.ok.inj hrow
    exact ⟨(if_neg hany).trans hvalue, rfl⟩

theorem shown_of_ofBalances {account : Account} {connection : Connection} {places : Option Int}
    {balances : List Balance} {row : AccountRow}
    (h : ofBalances resolved account connection places balances = .ok row) :
    row.accountId = account.id ∧ row.accountName = account.name ∧ row.connectionName = connection.name := by
  obtain ⟨sum, -, hrow⟩ := Outcome.andThen_ok_iff.1 h
  split at hrow
  · obtain rfl := Except.ok.inj hrow
    exact ⟨rfl, rfl, rfl⟩
  · obtain ⟨text, -, hrow⟩ := Outcome.andThen_ok_iff.1 hrow
    obtain rfl := Except.ok.inj hrow
    exact ⟨rfl, rfl, rfl⟩

theorem ofBalances_ok {account : Account} {connection : Connection} {balances : List Balance}
    {row : AccountRow} (h : ofBalances resolved account connection none balances = .ok row) :
    ∃ values total, balances.mapM (valued resolved accountId date) = .ok values ∧
      values.foldlM AssetRow.addValue (.finite .zero) = .ok total ∧
      row = ⟨account.id, account.name, connection.name,
        if values.any Option.isNone then none else some total.canonical⟩ := by
  obtain ⟨values, total, hvalues, htotal, hvalue, hrow⟩ :=
    sum_of_ofBalances accountId date h
  refine ⟨values, total, hvalues, htotal, hrow.trans ?_⟩
  cases hany : values.any Option.isNone with
  | true =>
    rw [hany] at hvalue
    rw [← Except.ok.inj hvalue]
    rfl
  | false =>
    rw [hany] at hvalue
    rw [← Except.ok.inj hvalue]
    rfl

/-- An account has a row exactly if its connection is known. -/
theorem ofEffective_ok {accounts : Keyed String Account} {connections : Keyed String Connection}
    {places : Option Int} {effective : EffectiveBalance} {account : Account} {row : Option AccountRow}
    (haccount : Keyed.get? effective.accountId accounts = some account)
    (h : (ofEffective resolved accounts connections places effective).outcome = .ok row) :
    match Keyed.get? account.connectionId connections with
    | none => row = none
    | some connection =>
      ∃ r, ofBalances resolved account connection places effective.balances = .ok r ∧ row = some r := by
  simp only [ofEffective, haccount] at h
  cases hconnection : Keyed.get? account.connectionId connections with
  | none =>
    rw [hconnection] at h
    exact (Except.ok.inj h).symm
  | some connection =>
    simp only [hconnection, Journaled.outcome_bind, Journaled.outcome_of, Journaled.outcome_pure,
      Outcome.bind_ok_iff, Except.ok.injEq] at h
    obtain ⟨r, hr, rfl⟩ := h
    exact ⟨r, hr, rfl⟩

theorem breakdown_ok {accounts : Keyed String Account} {connections : Keyed String Connection}
    {places : Option Int} {balances : List EffectiveBalance} {rows : List AccountRow}
    (h : (breakdown balances resolved accounts connections places).outcome = .ok rows) :
    ∃ drawn, (balances.mapM fun e => (ofEffective resolved accounts connections places e).outcome) =
      .ok drawn ∧ rows.Perm (drawn.filterMap id) := by
  simp only [breakdown, Journaled.outcome_bind, Journaled.outcome_mapM, Journaled.outcome_pure,
    Outcome.bind_ok_iff, Except.ok.injEq] at h
  obtain ⟨drawn, hdrawn, rfl⟩ := h
  exact ⟨drawn, hdrawn, List.mergeSort_perm _ _⟩

end AccountRow

/-- The intermediate results of a valuation. -/
structure Workings (ledger : LedgerReads) (market : MarketReads) (query : ValuationQuery)
    (valuation : Valuation) where
  grouping : Grouping
  accounts : List Account
  connections : List Connection
  balances : List EffectiveBalance
  contributions : List Contribution
  aggregates : Keyed AssetId Aggregate
  resolved : Keyed AssetId Resolution
  rows : List (AssetRow × Option Number)
  total : Number
  grouping_eq : (Grouping.read query.grouping).outcome = .ok grouping
  accounts_eq : ledger.accounts = .ok accounts
  connections_eq : ledger.connections = .ok connections
  balances_eq : (Valuation.effectiveBalances ledger query accounts).outcome = .ok balances
  contributions_eq : balances.mapM Contribution.ofEffective = .ok contributions
  aggregates_eq : Aggregate.gather (contributions.flatMap (·.portions)) [] = .ok aggregates
  resolved_eq : (Valuation.resolutions market query aggregates).outcome = .ok resolved
  rows_eq : (AssetRow.byIdentity aggregates).mapM (AssetRow.valued resolved
    (Keyed.ofList (accounts.map fun a => (a.id, a.name))) query.detail query.places) = .ok rows
  total_eq : (rows.map Prod.snd).foldlM AssetRow.addValue (.finite .zero) = .ok total
  totalValue_eq : Amount.format total query.places = .ok valuation.totalValue
  byAsset_eq : valuation.byAsset = if grouping.includesAssets then some (rows.map Prod.fst) else none
  byAccount_eq : if grouping.includesAccounts then
      ∃ accountRows, (AccountRow.breakdown balances resolved
        (Keyed.ofList (accounts.map fun a => (a.id, a)))
        (Keyed.ofList (connections.map fun c => (c.id, c))) query.places).outcome = .ok accountRows ∧
        valuation.byAccount = some accountRows
    else valuation.byAccount = none

/-- A row shows what was found for the asset that was first met under its identity. -/
theorem Workings.row_origin {valuation : Valuation} (w : Workings ledger market query valuation)
    {row : AssetRow × Option Number} (hrow : row ∈ w.rows) :
    ∃ p ∈ w.contributions.flatMap (·.portions), ∃ resolution, row.1.asset = p.asset ∧
      (market.resolve p.asset query.currency query.date).outcome = .ok resolution ∧
      row.1.price.isSome = resolution.price.isSome ∧ row.1.rate.isSome = resolution.rate.isSome := by
  obtain ⟨entry, hentry, hvalued⟩ := (Outcome.mem_of_mapM w.rows_eq).1 hrow
  have hget := (Keyed.mem_iff_get? (Aggregate.gather_keys w.aggregates_eq).1).1
    ((List.mergeSort_perm _ _).mem_iff.1 hentry)
  obtain ⟨resolution, hresolution, hresolve⟩ := Valuation.get?_resolutions w.resolved_eq hget
  obtain ⟨found, hfound, -, hdrawn⟩ := AssetRow.valued_ok_iff.1 hvalued
  obtain rfl := Option.some.inj (hresolution.symm.trans hfound)
  obtain ⟨hasset, hprice, hrate⟩ := AssetRow.observations_of_ofAggregate hdrawn
  obtain ⟨first, hfirst, hmet⟩ := Aggregate.first_of_gather w.aggregates_eq hget
  exact ⟨first, List.mem_of_find?_eq_some hfirst, resolution, hasset.trans hmet, hmet ▸ hresolve, hprice,
    hrate⟩

/-- A valuation that answers has workings. -/
theorem nonempty_workings {valuation : Valuation}
    (h : (Valuation.run ledger market query).outcome = .ok valuation) :
    Nonempty (Workings ledger market query valuation) := by
  simp only [Valuation.run, Journaled.outcome_bind, Journaled.outcome_of, Outcome.bind_ok_iff] at h
  obtain ⟨grouping, hgrouping, accounts, haccounts, connections, hconnections, balances, hbalances,
    aggregates, haggregates, resolved, hresolved, ⟨assetRows, total⟩, hbreakdown, h⟩ := h
  obtain ⟨contributions, hcontributions, hgather⟩ := Aggregate.ofBalances_ok_iff.1 haggregates
  obtain ⟨rows, hrows, rfl, htotal⟩ := AssetRow.breakdown_ok_iff.1 hbreakdown
  cases haccounts' : grouping.includesAccounts with
  | false =>
    simp only [haccounts', Bool.false_eq_true, if_false, Journaled.outcome_bind,
      Journaled.outcome_pure, Journaled.outcome_note, Journaled.outcome_of, Outcome.bind_ok_iff,
      Except.ok.injEq] at h
    obtain ⟨-, rfl, -, -, totalValue, htotalValue, rfl⟩ := h
    exact ⟨⟨grouping, accounts, connections, balances, contributions, aggregates, resolved, rows, total,
      hgrouping, haccounts, hconnections, hbalances, hcontributions, hgather, hresolved, hrows, htotal,
      htotalValue, rfl, by simp [haccounts']⟩⟩
  | true =>
    simp only [haccounts', if_true, Journaled.outcome_bind, Journaled.outcome_map,
      Journaled.outcome_pure, Journaled.outcome_note, Journaled.outcome_of, Outcome.bind_ok_iff,
      Outcome.map_ok_iff, Except.ok.injEq] at h
    obtain ⟨-, ⟨accountRows, haccountRows, rfl⟩, -, -, totalValue, htotalValue, rfl⟩ := h
    exact ⟨⟨grouping, accounts, connections, balances, contributions, aggregates, resolved, rows, total,
      hgrouping, haccounts, hconnections, hbalances, hcontributions, hgather, hresolved, hrows, htotal,
      htotalValue, rfl, by simp [haccounts', haccountRows]⟩⟩

end NetWorth
