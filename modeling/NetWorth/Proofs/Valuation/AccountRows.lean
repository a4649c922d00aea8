import NetWorth.Proofs.Valuation.AccountOrder
import NetWorth.Proofs.Valuation.LaterSnapshots

/-! # Every account has its row

An account that takes part, has a balance that counts and belongs to a known connection has one row, and
rows ascend strictly by name and identifier. A row goes without a value exactly if the breakdown by asset
has none for something that the account holds, so a partial sum is never reported. -/
namespace NetWorth

/-- The balance of an account that takes part in a valuation. -/
structure Ledger.Contributes (ledger : Ledger) (query : ValuationQuery) (account : Account)
    (effective : EffectiveBalance) : Prop where
  listed : account ∈ Keyed.values ledger.accounts
  included : ledger.excludes account.id = false
  counted : ∃ policy, ledger.policyOf account.id = .ok policy ∧
    EffectiveBalance.choose account.id (ledger.snapshotsOf account.id) policy query.date query.currency =
      some effective

/-- An account that contributes, with its connection. -/
structure Ledger.Reported (ledger : Ledger) (query : ValuationQuery) (account : Account)
    (connection : Connection) (effective : EffectiveBalance) : Prop where
  contributes : ledger.Contributes query account effective
  known : connection ∈ Keyed.values ledger.connections
  connected : connection.id = account.connectionId

theorem Ledger.contributes_iff {ledger : Ledger} {query : ValuationQuery} {account : Account}
    {effective : EffectiveBalance} : ledger.Contributes query account effective ↔
      account ∈ Keyed.values ledger.accounts ∧
        (Valuation.effectiveBalance ledger.reads query account).outcome = .ok (some effective) := by
  rw [Valuation.effectiveBalance_ok_iff]
  constructor
  · rintro ⟨hlisted, hincluded, policy, hpolicy, hchoose⟩
    refine ⟨hlisted, _, rfl, ?_⟩
    exact (if_neg (Bool.eq_false_iff.1 hincluded)).mpr ⟨_, policy, rfl, hpolicy, hchoose.symm⟩
  · rintro ⟨hlisted, overrides, hoverrides, hresult⟩
    obtain rfl := Except.ok.inj hoverrides
    split at hresult <;> rename_i hexcluded
    · contradiction
    · obtain ⟨snapshots, policy, hsnapshots, hpolicy, hchoose⟩ := hresult
      obtain rfl := Except.ok.inj hsnapshots
      exact ⟨hlisted, Bool.eq_false_iff.2 hexcluded, policy, hpolicy, hchoose.symm⟩

theorem Ledger.Contributes.accountId {ledger : Ledger} {query : ValuationQuery} {account : Account}
    {effective : EffectiveBalance} (h : ledger.Contributes query account effective) :
    effective.accountId = account.id := by
  obtain ⟨policy, -, hchoose⟩ := h.counted
  exact EffectiveBalance.choose_accountId hchoose

theorem Ledger.Recorded.account_eq {ledger : Ledger} (h : ledger.Recorded) {a b : Account}
    (ha : a ∈ Keyed.values ledger.accounts) (hb : b ∈ Keyed.values ledger.accounts) (hid : a.id = b.id) :
    a = b :=
  List.inj_on_of_nodup_map h.selfKeyed.1.nodup_values ha hb hid

namespace Workings

variable {ledger : Ledger} {market : MarketReads} {query : ValuationQuery} {valuation : Valuation}
  (w : Workings ledger.reads market query valuation)

theorem accounts_values : w.accounts = Keyed.values ledger.accounts :=
  (Except.ok.inj w.accounts_eq).symm

theorem connections_values : w.connections = Keyed.values ledger.connections :=
  (Except.ok.inj w.connections_eq).symm

theorem mem_balances {effective : EffectiveBalance} :
    effective ∈ w.balances ↔ ∃ account, ledger.Contributes query account effective := by
  rw [Valuation.mem_effectiveBalances w.balances_eq, w.accounts_values]
  exact exists_congr fun account => Ledger.contributes_iff.symm

theorem nodup_accounts (hrecorded : ledger.Recorded) : (w.accounts.map Account.id).Nodup := by
  rw [w.accounts_values]
  exact hrecorded.selfKeyed.1.nodup_values

theorem nodup_balances (hrecorded : ledger.Recorded) : (w.balances.map (·.accountId)).Nodup := by
  obtain ⟨chosen, hchosen, hbalances⟩ := Valuation.effectiveBalances_ok_iff.1 w.balances_eq
  rw [← hbalances]
  refine List.Nodup.sublist (Outcome.names_sublist_of_mapM hchosen fun account _ effective h => ?_)
    (w.nodup_accounts hrecorded)
  exact Valuation.accountId_of_effectiveBalance h

end Workings

namespace AccountRow

variable {resolved : Keyed AssetId Resolution} {accounts : Keyed String Account}
  {connections : Keyed String Connection} {places : Option Int} {balances : List EffectiveBalance}
  {rows : List AccountRow}

/-- By name, then by identifier. -/
def Before (a b : AccountRow) : Prop :=
  a.accountName < b.accountName ∨ a.accountName = b.accountName ∧ a.accountId < b.accountId

theorem before_of_le {a b : AccountRow} (hle : le a b = true) (hne : a.accountId ≠ b.accountId) :
    Before a b := by
  simp only [le, Bool.or_eq_true, Bool.and_eq_true, decide_eq_true_eq] at hle
  rcases hle with hname | ⟨hname, hid⟩
  · exact .inl hname
  · refine .inr ⟨hname, ?_⟩
    rcases Std.lt_trichotomy a.accountId b.accountId with hlt | heq | hgt
    · exact hlt
    · exact absurd heq hne
    · exact absurd hgt (String.not_lt.2 hid)

theorem Before.asymm {a b : AccountRow} (hab : Before a b) (hba : Before b a) : False := by
  rcases hab with hname | ⟨hname, hid⟩
  · rcases hba with hname' | ⟨hname', -⟩
    · exact String.lt_asymm hname hname'
    · exact String.lt_irrefl _ (hname' ▸ hname)
  · rcases hba with hname' | ⟨-, hid'⟩
    · exact String.lt_irrefl _ (hname ▸ hname')
    · exact String.lt_asymm hid hid'

theorem ofEffective_some_iff {effective : EffectiveBalance} {row : AccountRow} :
    (ofEffective resolved accounts connections places effective).outcome = .ok (some row) ↔
      ∃ account connection, Keyed.get? effective.accountId accounts = some account ∧
        Keyed.get? account.connectionId connections = some connection ∧
        ofBalances resolved account connection places effective.balances = .ok row := by
  unfold ofEffective
  cases haccount : Keyed.get? effective.accountId accounts with
  | none => simp
  | some account =>
    cases hconnection : Keyed.get? account.connectionId connections with
    | none => simp [hconnection]
    | some connection => simp [hconnection]

/-- The row of balances goes without a value exactly if one of them does. -/
theorem missing_iff {account : Account} {connection : Connection} (accountId : String) (date : Date)
    {held : List Balance} {row : AccountRow}
    (h : ofBalances resolved account connection places held = .ok row) :
    ∃ values, held.mapM (valued resolved accountId date) = .ok values ∧
      (row.value = none ↔ none ∈ values) := by
  obtain ⟨values, total, hvalues, -, hvalue, -⟩ := sum_of_ofBalances accountId date h
  refine ⟨values, hvalues, ?_⟩
  split at hvalue <;> rename_i hany
  · obtain ⟨value, hmem, hnone⟩ := List.any_eq_true.1 hany
    rw [Option.isNone_iff_eq_none.1 hnone] at hmem
    exact iff_of_true (Except.ok.inj hvalue).symm hmem
  · obtain ⟨text, -, htext⟩ := Outcome.map_ok_iff.1 hvalue
    refine iff_of_false (by simp [← htext]) fun hmem => hany ?_
    exact List.any_eq_true.2 ⟨none, hmem, rfl⟩

theorem mem_breakdown (h : (breakdown balances resolved accounts connections places).outcome = .ok rows)
    {row : AccountRow} : row ∈ rows ↔ ∃ effective ∈ balances,
      (ofEffective resolved accounts connections places effective).outcome = .ok (some row) := by
  obtain ⟨drawn, hdrawn, hperm⟩ := breakdown_ok h
  rw [hperm.mem_iff, ← Outcome.mem_of_mapM hdrawn]
  simp

theorem breakdown_ascends (h : (breakdown balances resolved accounts connections places).outcome = .ok rows)
    (hnodup : (rows.map (·.accountId)).Nodup) : rows.Pairwise Before := by
  have hsorted : rows.Pairwise fun a b => le a b = true := by
    simp only [breakdown, Journaled.outcome_bind, Journaled.outcome_pure, Outcome.bind_ok_iff,
      Except.ok.injEq] at h
    obtain ⟨drawn, -, rfl⟩ := h
    exact List.pairwise_mergeSort le_trans le_total _
  rw [List.Nodup, List.pairwise_map] at hnodup
  exact (hsorted.and hnodup).imp fun hrows => before_of_le hrows.1 hrows.2

end AccountRow

namespace Workings

variable {ledger : Ledger} {market : MarketReads} {query : ValuationQuery} {valuation : Valuation}
  {w : Workings ledger.reads market query valuation}

theorem get?_account (hrecorded : ledger.Recorded) {id : String} {account : Account} :
    Keyed.get? id (Keyed.ofList (w.accounts.map fun a => (a.id, a))) = some account ↔
      account ∈ Keyed.values ledger.accounts ∧ account.id = id := by
  rw [w.accounts_values]
  exact Keyed.get?_ofList_eq_some hrecorded.selfKeyed.1.nodup_values

theorem get?_connection (hrecorded : ledger.Recorded) {id : String} {connection : Connection} :
    Keyed.get? id (Keyed.ofList (w.connections.map fun c => (c.id, c))) = some connection ↔
      connection ∈ Keyed.values ledger.connections ∧ connection.id = id := by
  rw [w.connections_values]
  exact Keyed.get?_ofList_eq_some hrecorded.selfKeyed.2.nodup_values

def drawn (w : Workings ledger.reads market query valuation) (effective : EffectiveBalance) :
    Except Failure (Option AccountRow) :=
  (AccountRow.ofEffective w.resolved (Keyed.ofList (w.accounts.map fun a => (a.id, a)))
    (Keyed.ofList (w.connections.map fun c => (c.id, c))) query.places effective).outcome

def Draws (w : Workings ledger.reads market query valuation) (rows : List AccountRow) : Prop :=
  (AccountRow.breakdown w.balances w.resolved (Keyed.ofList (w.accounts.map fun a => (a.id, a)))
    (Keyed.ofList (w.connections.map fun c => (c.id, c))) query.places).outcome = .ok rows

theorem draws_of_byAccount {rows : List AccountRow} (h : valuation.byAccount = some rows) : w.Draws rows := by
  have hrows := w.byAccount_eq
  split at hrows
  · obtain ⟨drawn, hdrawn, hshown⟩ := hrows
    obtain rfl := Option.some.inj (h.symm.trans hshown)
    exact hdrawn
  · rw [hrows] at h
    contradiction

theorem Draws.mem_iff {rows : List AccountRow} (h : w.Draws rows) {row : AccountRow} :
    row ∈ rows ↔ ∃ effective ∈ w.balances, w.drawn effective = .ok (some row) :=
  AccountRow.mem_breakdown h

theorem accountId_of_drawn (hrecorded : ledger.Recorded) {effective : EffectiveBalance} {row : AccountRow}
    (h : w.drawn effective = .ok (some row)) : row.accountId = effective.accountId := by
  obtain ⟨account, connection, haccount, -, hrow⟩ := AccountRow.ofEffective_some_iff.1 h
  exact (AccountRow.shown_of_ofBalances hrow).1.trans ((get?_account hrecorded).1 haccount).2

section Rows

variable {rows : List AccountRow} (hrecorded : ledger.Recorded) (hrows : w.Draws rows)

include hrecorded hrows

theorem mem_accountRows {row : AccountRow} : row ∈ rows ↔ ∃ account connection effective,
    ledger.Reported query account connection effective ∧
      AccountRow.ofBalances w.resolved account connection query.places effective.balances = .ok row := by
  simp only [hrows.mem_iff, drawn, AccountRow.ofEffective_some_iff, get?_account hrecorded,
    get?_connection hrecorded, w.mem_balances]
  constructor
  · rintro ⟨effective, ⟨owner, hcontributes⟩, account, connection, haccount, hconnection, hrow⟩
    obtain ⟨hlisted, hid⟩ := haccount
    obtain ⟨hknown, hconnected⟩ := hconnection
    -- the account that is looked up is the one that contributes
    obtain rfl := hrecorded.account_eq hlisted hcontributes.listed (hid.trans hcontributes.accountId)
    exact ⟨account, connection, effective, ⟨hcontributes, hknown, hconnected⟩, hrow⟩
  · rintro ⟨account, connection, effective, ⟨hcontributes, hknown, hconnected⟩, hrow⟩
    exact ⟨effective, ⟨account, hcontributes⟩, account, connection,
      ⟨hcontributes.listed, hcontributes.accountId.symm⟩, ⟨hknown, hconnected⟩, hrow⟩

/-- A known account that contributes has a row. -/
theorem exists_accountRow {account : Account} {connection : Connection} {effective : EffectiveBalance}
    (hreported : ledger.Reported query account connection effective) :
    ∃ row ∈ rows, AccountRow.ofBalances w.resolved account connection query.places effective.balances =
      .ok row := by
  obtain ⟨hcontributes, hknown, hconnected⟩ := hreported
  obtain ⟨drawn, hdrawn, hperm⟩ := AccountRow.breakdown_ok hrows
  have hbalance : effective ∈ w.balances := w.mem_balances.2 ⟨account, hcontributes⟩
  obtain ⟨result, hresult⟩ := Outcome.exists_of_mapM hdrawn hbalance
  have haccount := (get?_account (w := w) hrecorded).2 ⟨hcontributes.listed, hcontributes.accountId.symm⟩
  have hconnection := (get?_connection (w := w) hrecorded).2 ⟨hknown, hconnected⟩
  have hrow := AccountRow.ofEffective_ok haccount hresult
  rw [hconnection] at hrow
  obtain ⟨row, hrow, rfl⟩ := hrow
  exact ⟨row, hrows.mem_iff.2 ⟨effective, hbalance, hresult⟩, hrow⟩

theorem nodup_accountRows : (rows.map (·.accountId)).Nodup := by
  obtain ⟨drawn, hdrawn, hperm⟩ := AccountRow.breakdown_ok hrows
  rw [(hperm.map _).nodup_iff]
  refine (w.nodup_balances hrecorded).sublist (Outcome.names_sublist_of_mapM hdrawn ?_)
  exact fun _ _ _ hrow => accountId_of_drawn hrecorded hrow

/-- The row under the identifier of an account is the one that was drawn for its balance. -/
theorem ofBalances_of_accountRow {account : Account} {connection : Connection} {effective : EffectiveBalance}
    (hreported : ledger.Reported query account connection effective) {row : AccountRow} (hrow : row ∈ rows)
    (hid : row.accountId = account.id) :
    AccountRow.ofBalances w.resolved account connection query.places effective.balances = .ok row := by
  obtain ⟨drawn, hdrawn, hbalances⟩ := exists_accountRow hrecorded hrows hreported
  have hids := hid.trans (AccountRow.shown_of_ofBalances hbalances).1.symm
  obtain rfl := List.inj_on_of_nodup_map (nodup_accountRows hrecorded hrows) hrow hdrawn hids
  exact hbalances

end Rows

variable {reads : LedgerReads} {v : Workings reads market query valuation}

/-- A row is of the asset whose identity its aggregate stands under, and has a value if the asset has one. -/
theorem row_of_entry {entry : AssetId × Aggregate} (hentry : entry ∈ AssetRow.byIdentity v.aggregates)
    {names : Keyed String String} {row : AssetRow × Option Number}
    (hrow : AssetRow.valued v.resolved names query.detail query.places entry = .ok row) :
    AssetId.ofAsset row.1.asset = entry.1 ∧ ∃ resolution,
      Keyed.get? entry.1 v.resolved = some resolution ∧
        row.1.value.isSome = resolution.unitValue.isSome := by
  obtain ⟨resolution, hfound, hvalue, hdrawn⟩ := AssetRow.valued_ok_iff.1 hrow
  obtain ⟨first, hfirst, hasset⟩ := Aggregate.first_of_gather v.aggregates_eq (get?_of_byIdentity hentry)
  have hid : first.id = entry.1 := by simpa using List.find?_some hfirst
  refine ⟨?_, resolution, hfound, ?_⟩
  · rw [(AssetRow.observations_of_ofAggregate hdrawn).1, hasset]
    exact hid
  · rw [AssetRow.isSome_value_of_ofAggregate hdrawn, Resolution.isSome_of_valueOf hvalue]

theorem ids_of_rows : v.rows.map (fun row => AssetId.ofAsset row.1.asset) =
    Keyed.keys (AssetRow.byIdentity v.aggregates) := by
  have hall : List.Forall₂ (fun entry row => AssetId.ofAsset row.1.asset = entry.1)
      (AssetRow.byIdentity v.aggregates) v.rows :=
    Outcome.forall₂_of_mapM v.rows_eq fun entry hentry row hrow => (row_of_entry hentry hrow).1
  rw [Keyed.keys, ← List.forall₂_eq_eq_eq, List.forall₂_map_left_iff, List.forall₂_map_right_iff]
  exact hall.flip

theorem mem_keys_of_resolved {id : AssetId} {resolution : Resolution}
    (hget : Keyed.get? id v.resolved = some resolution) : id ∈ Keyed.keys v.aggregates := by
  rw [← Valuation.keys_resolutions v.resolved_eq, ← Keyed.get?_isSome_iff, hget]
  rfl

theorem exists_row_of_resolved {id : AssetId} {resolution : Resolution}
    (hget : Keyed.get? id v.resolved = some resolution) :
    ∃ row ∈ v.rows, AssetId.ofAsset row.1.asset = id ∧
      row.1.value.isSome = resolution.unitValue.isSome := by
  have hkey := (AssetRow.keys_byIdentity_perm _).mem_iff.2 (mem_keys_of_resolved hget)
  obtain ⟨entry, hentry, rfl⟩ := List.mem_map.1 hkey
  obtain ⟨row, hrow⟩ := Outcome.exists_of_mapM v.rows_eq hentry
  obtain ⟨hid, found, hfound, hvalue⟩ := row_of_entry hentry hrow
  obtain rfl := Option.some.inj (hget.symm.trans hfound)
  exact ⟨row, (Outcome.mem_of_mapM v.rows_eq).2 ⟨entry, hentry, hrow⟩, hid, hvalue⟩

theorem row_unique {row row' : AssetRow × Option Number} (hrow : row ∈ v.rows) (hrow' : row' ∈ v.rows)
    (hid : AssetId.ofAsset row.1.asset = AssetId.ofAsset row'.1.asset) : row = row' := by
  have hnodup : (v.rows.map fun row => AssetId.ofAsset row.1.asset).Nodup := by
    rw [ids_of_rows]
    exact v.row_identities.1
  exact List.inj_on_of_nodup_map hnodup hrow hrow' hid

/-- A balance that is valued has a row for its asset, with a value exactly if the balance has one. -/
theorem row_of_balance {accountId : String} {date : Date} {balance : Balance} {value : Option Number}
    (h : AccountRow.valued v.resolved accountId date balance = .ok value) :
    ∃ row ∈ v.rows, AssetId.ofRecord balance.asset = .ok (AssetId.ofAsset row.1.asset) ∧
      row.1.value.isSome = value.isSome := by
  simp only [AccountRow.valued, Outcome.andThen_ok_iff, AssetRow.resolutionOf_ok_iff] at h
  obtain ⟨portion, hportion, resolution, hresolution, hvalue⟩ := h
  obtain ⟨row, hrow, hid, hsome⟩ := exists_row_of_resolved hresolution
  refine ⟨row, hrow, ?_, ?_⟩
  · rw [hid, Portion.id_of_ofBalance hportion]
  · rw [hsome, Resolution.isSome_of_valueOf hvalue]

/-- Everything that an account with a row holds has one row of its own. -/
theorem existsUnique_row_of_balance {account : Account} {connection : Connection} {places : Option Int}
    {balances : List Balance} {row : AccountRow}
    (h : AccountRow.ofBalances v.resolved account connection places balances = .ok row) {b : Balance}
    (hb : b ∈ balances) : ∃! r, r ∈ v.rows.map Prod.fst ∧
      AssetId.ofRecord b.asset = .ok (AssetId.ofAsset r.asset) := by
  obtain ⟨values, total, hvalues, -, -, -⟩ :=
    AccountRow.sum_of_ofBalances account.id query.date h
  obtain ⟨value, hvalue⟩ := Outcome.exists_of_mapM hvalues hb
  obtain ⟨r, hr, hid, -⟩ := row_of_balance hvalue
  refine ⟨r.1, ⟨List.mem_map_of_mem hr, hid⟩, fun other ⟨hother, hid'⟩ => ?_⟩
  obtain ⟨found, hfound, rfl⟩ := List.mem_map.1 hother
  rw [row_unique hfound hr (Except.ok.inj (hid'.symm.trans hid))]

/-- The row of an account goes without a value exactly if the row of something that it holds does. -/
theorem missing_of_ofBalances {account : Account} {connection : Connection} {places : Option Int}
    {balances : List Balance} {row : AccountRow}
    (h : AccountRow.ofBalances v.resolved account connection places balances = .ok row) :
    row.value = none ↔ ∃ b ∈ balances, ∃ r ∈ v.rows.map Prod.fst,
      AssetId.ofRecord b.asset = .ok (AssetId.ofAsset r.asset) ∧ r.value = none := by
  obtain ⟨values, hvalues, hmissing⟩ := AccountRow.missing_iff account.id query.date h
  rw [hmissing, Outcome.mem_of_mapM hvalues]
  refine exists_congr fun b => and_congr_right fun hb => ?_
  obtain ⟨value, hbalance⟩ := Outcome.exists_of_mapM hvalues hb
  obtain ⟨r, hr, hid, hsome⟩ := row_of_balance hbalance
  rw [hbalance, Except.ok.injEq]
  constructor
  · rintro rfl
    exact ⟨r.1, List.mem_map_of_mem hr, hid, Option.not_isSome_iff_eq_none.1 (by simp [hsome])⟩
  · rintro ⟨r', hr', hid', hnone⟩
    obtain ⟨found, hfound, rfl⟩ := List.mem_map.1 hr'
    obtain rfl := row_unique hfound hr (Except.ok.inj (hid'.symm.trans hid))
    exact Option.not_isSome_iff_eq_none.1 (by simp [← hsome, hnone])

end Workings

namespace Valuation

variable {ledger : Ledger} {market : MarketReads} {query : ValuationQuery}

/-- The rows of accounts are complete, and each goes without a value exactly if it has to. -/
structure RowsComplete (ledger : Ledger) (query : ValuationQuery) (assetRows : List AssetRow)
    (accountRows : List AccountRow) : Prop where
  ascending : accountRows.Pairwise AccountRow.Before
  drawn : ∀ row ∈ accountRows, ∃ account connection effective,
    ledger.Reported query account connection effective ∧ row.accountId = account.id ∧
      row.accountName = account.name ∧ row.connectionName = connection.name
  unique : ∀ account connection effective, ledger.Reported query account connection effective →
    ∃! row, row ∈ accountRows ∧ row.accountId = account.id
  holdings : ∀ account connection effective, ledger.Reported query account connection effective →
    ∀ b ∈ effective.balances, ∃! r, r ∈ assetRows ∧
      AssetId.ofRecord b.asset = .ok (AssetId.ofAsset r.asset)
  missing : ∀ account connection effective, ledger.Reported query account connection effective →
    ∀ row ∈ accountRows, row.accountId = account.id →
      (row.value = none ↔ ∃ b ∈ effective.balances, ∃ r ∈ assetRows,
        AssetId.ofRecord b.asset = .ok (AssetId.ofAsset r.asset) ∧ r.value = none)

/-- With both breakdowns asked for, every account to report has one row, in strictly ascending order, and
its value is missing exactly if the value of something that it holds is. -/
theorem account_rows_complete (hrecorded : ledger.Recorded) {valuation : Valuation}
    (hrun : (run ledger.reads market query).outcome = .ok valuation)
    (hgrouping : (Grouping.read query.grouping).outcome = .ok .both) :
    ∃ assetRows accountRows, valuation.byAsset = some assetRows ∧ valuation.byAccount = some accountRows ∧
      RowsComplete ledger query assetRows accountRows := by
  obtain ⟨w⟩ := nonempty_workings hrun
  have hboth : w.grouping = .both := Except.ok.inj (w.grouping_eq.symm.trans hgrouping)
  have hassets := w.byAsset_eq
  have haccounts := w.byAccount_eq
  rw [hboth] at hassets haccounts
  obtain ⟨accountRows, hrows, haccountRows⟩ := haccounts
  have hnodup := Workings.nodup_accountRows hrecorded hrows
  refine ⟨w.rows.map Prod.fst, accountRows, hassets, haccountRows, ?_, ?_, ?_, ?_, ?_⟩
  · exact AccountRow.breakdown_ascends hrows hnodup
  · intro row hrow
    obtain ⟨account, connection, effective, hreported, hbalances⟩ :=
      (Workings.mem_accountRows hrecorded hrows).1 hrow
    exact ⟨account, connection, effective, hreported, AccountRow.shown_of_ofBalances hbalances⟩
  · intro account connection effective hreported
    obtain ⟨row, hrow, hbalances⟩ := Workings.exists_accountRow hrecorded hrows hreported
    have hid := (AccountRow.shown_of_ofBalances hbalances).1
    refine ⟨row, ⟨hrow, hid⟩, fun other ⟨hother, hid'⟩ => ?_⟩
    exact List.inj_on_of_nodup_map hnodup hother hrow (hid'.trans hid.symm)
  · intro account connection effective hreported b hb
    obtain ⟨row, -, hbalances⟩ := Workings.exists_accountRow hrecorded hrows hreported
    exact Workings.existsUnique_row_of_balance hbalances hb
  · intro account connection effective hreported row hrow hid
    exact Workings.missing_of_ofBalances
      (Workings.ofBalances_of_accountRow hrecorded hrows hreported hrow hid)

open Collection (shareStore shareQuery tradingDay)

def gold : BalanceSnapshot := .at (.endOfDay tradingDay) [⟨.known (.equity "gold" none), .text "1"⟩]

/-- A safe with gold that nobody prices, and some more in an account whose connection is not known. -/
def goldLedger : Ledger :=
  ((((Ledger.empty.putConnection ⟨"bank", "Bank", "manual"⟩).putAccount
    ⟨"safe", "Safe", "bank", [], true⟩).addSnapshot "safe" gold).putAccount
      ⟨"stray", "Stray", "nobody", [], true⟩).addSnapshot "stray" gold

theorem goldLedger_recorded : goldLedger.Recorded :=
  .snapshot "stray" (.endOfDay tradingDay) _ (.account _
    (.snapshot "safe" (.endOfDay tradingDay) _ (.account _ (.connection _ .empty))))

/-- The safe has a row without a value, and the stray account has no row. -/
theorem safe_without_value : goldLedger.Recorded ∧
    ∃ valuation, (run goldLedger.reads shareStore.reads shareQuery).outcome = .ok valuation ∧
      (Grouping.read shareQuery.grouping).outcome = .ok .both ∧ ∃ assetRows,
        valuation.byAsset = some assetRows ∧ valuation.byAccount = some [⟨"safe", "Safe", "Bank", none⟩] ∧
        RowsComplete goldLedger shareQuery assetRows [⟨"safe", "Safe", "Bank", none⟩] := by
  have hvalued : (run goldLedger.reads shareStore.reads shareQuery).outcome.toOption.bind
      (·.byAccount) = some [⟨"safe", "Safe", "Bank", none⟩] := by
    decide +kernel
  obtain ⟨valuation, hvaluation, hshown⟩ := Option.bind_eq_some_iff.1 hvalued
  have hrun := Outcome.ok_of_toOption hvaluation
  obtain ⟨assetRows, accountRows, hassets, haccounts, hcomplete⟩ :=
    account_rows_complete goldLedger_recorded hrun rfl
  obtain rfl := Option.some.inj (haccounts.symm.trans hshown)
  exact ⟨goldLedger_recorded, valuation, hrun, rfl, assetRows, hassets, hshown, hcomplete⟩

end Valuation

end NetWorth
