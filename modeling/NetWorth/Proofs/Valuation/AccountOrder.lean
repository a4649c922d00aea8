import NetWorth.Proofs.Decimal.OneText
import NetWorth.Proofs.Recording
import NetWorth.Proofs.Timeline.Order
import NetWorth.Proofs.Valuation.Breakdowns

/-! # The order of accounts

Ledgers with the same records that list their accounts in different orders are valued alike where the
decimals lose nothing: the holdings of an asset are met in another order, their sum is the same number, and
equal numbers have one text. Rows are ordered by what they are, not by what came first. -/
namespace NetWorth

open Decimal (precision)

/-- The same records; accounts and connections may be listed in another order. -/
structure Ledger.Reordered (ledger ledger' : Ledger) : Prop where
  accounts : (Keyed.values ledger'.accounts).Perm (Keyed.values ledger.accounts)
  connections : (Keyed.values ledger'.connections).Perm (Keyed.values ledger.connections)
  overrides : ∀ id, Keyed.get? id ledger'.overrides = Keyed.get? id ledger.overrides
  snapshots : ∀ id, ledger'.snapshotsOf id = ledger.snapshotsOf id

/-- The same sum and dates of an asset, from holdings in another order. -/
structure Aggregate.Reordered (aggregate aggregate' : Aggregate) : Prop where
  asset : aggregate'.asset = aggregate.asset
  total : aggregate'.total.toRat = aggregate.total.toRat
  latestDate : aggregate'.latestDate = aggregate.latestDate
  holdings : aggregate'.holdings.Perm aggregate.holdings

/-- The same row, the order of its holdings apart. -/
structure AssetRow.Reordered (row row' : AssetRow) : Prop where
  holdings : Option.Rel List.Perm row.holdings row'.holdings
  rest : row' = { row with holdings := row'.holdings }

namespace Valuation

variable {market : MarketReads} {query : ValuationQuery} {portions portions' : List Portion}

/-- What has one identity has one normal form. -/
def OneForm (portions : List Portion) : Prop :=
  ∀ p ∈ portions, ∀ q ∈ portions, p.id = q.id → p.asset = q.asset

/-- The portion that is met first decides how an asset is spelled. -/
theorem find?_of_perm (hperm : portions'.Perm portions) (hforms : OneForm portions) (id : AssetId) :
    (portions'.find? fun p => p.id = id).map (·.asset) = (portions.find? fun p => p.id = id).map (·.asset) := by
  cases hfirst : portions.find? fun p => p.id = id with
  | none =>
    have hnone : (portions'.find? fun p => p.id = id) = none := by
      rw [List.find?_eq_none] at hfirst ⊢
      exact fun p hp => hfirst p (hperm.mem_iff.1 hp)
    rw [hnone]
  | some first =>
    have hmem := List.mem_of_find?_eq_some hfirst
    have hid := List.find?_some hfirst
    obtain ⟨first', hfirst'⟩ : ∃ first', (portions'.find? fun p => p.id = id) = some first' := by
      rw [← Option.isSome_iff_exists, List.find?_isSome]
      exact ⟨first, hperm.mem_iff.2 hmem, hid⟩
    have hmem' := hperm.mem_iff.1 (List.mem_of_find?_eq_some hfirst')
    have hid' := List.find?_some hfirst'
    rw [decide_eq_true_eq] at hid hid'
    rw [hfirst', Option.map_some, Option.map_some, hforms first' hmem' first hmem (hid'.trans hid.symm)]

theorem unitOf_of_perm (hperm : portions'.Perm portions) (hforms : OneForm portions) :
    unitOf market query portions' = unitOf market query portions := by
  funext id
  have hfind := find?_of_perm hperm hforms id
  rw [unitOf, unitOf]
  generalize (portions'.find? fun p => p.id = id) = found' at hfind ⊢
  generalize (portions.find? fun p => p.id = id) = found at hfind ⊢
  cases found with
  | none =>
    obtain rfl := Option.map_eq_none_iff.1 hfind
    rfl
  | some first =>
    obtain ⟨first', rfl, hasset⟩ := Option.map_eq_some_iff.1 hfind
    simp only [Option.bind_eq_bind, Option.bind_some, hasset]

theorem worth_of_perm (unit : AssetId → Option Decimal) (hperm : portions'.Perm portions) :
    worth unit portions' = worth unit portions := (hperm.map _).sum_eq

theorem ExactWithin.of_perm {k : Nat} {unit : AssetId → Option Decimal} (h : ExactWithin k unit portions)
    (hperm : portions'.Perm portions) : ExactWithin k unit portions' where
  amounts := fun p hp => h.amounts p (hperm.mem_iff.1 hp)
  values := fun p hp => h.values p (hperm.mem_iff.1 hp)
  amountSize := fun id => by
    rw [((hperm.filter _).map _).sum_eq]
    exact h.amountSize id
  valueSize := by
    rw [(hperm.map _).sum_eq]
    exact h.valueSize

/-- Both values are unknown, or both are known and the same number. -/
def SameValue (value value' : Option Number) : Prop :=
  Option.Rel (fun n n' => ∃ x, n.Holds x ∧ n'.Holds x) value value'

theorem sameValue_of_counts {value value' : Option Number} {x : ℚ} (h : Counts value x)
    (h' : Counts value' x) (hsome : value'.isSome = value.isSome) : SameValue value value' := by
  cases value with
  | none =>
    obtain rfl := Option.isNone_iff_eq_none.1 (Option.isSome_eq_false_iff.1 hsome)
    exact .none
  | some n =>
    obtain ⟨n', rfl⟩ := Option.isSome_iff_exists.1 hsome
    exact .some ⟨x, h, h'⟩

theorem format_of_holds {n n' : Number} {x : ℚ} (h : n.Holds x) (h' : n'.Holds x) (places : Option Int) :
    Amount.format n' places = Amount.format n places := by
  obtain ⟨d, rfl, -, hd⟩ := h
  obtain ⟨d', rfl, -, hd'⟩ := h'
  exact Amount.format_eq_of_toRat_eq (hd'.trans hd.symm) places

end Valuation

theorem Resolution.isSome_of_valueOf {resolution : Resolution} {amount : Decimal} {value : Option Number}
    (h : resolution.valueOf amount = .ok value) : value.isSome = resolution.unitValue.isSome := by
  unfold valueOf at h
  split at h
  · rename_i hunit
    obtain rfl := Except.ok.inj h
    rw [hunit]
  · rename_i unit hunit
    obtain ⟨n, -, rfl⟩ := Outcome.map_ok_iff.1 h
    rw [hunit]
    rfl

namespace AssetRow

variable {resolved resolved' : Keyed AssetId Resolution} {names names' : Keyed String String}
  {detail : Bool} {places : Option Int} {entry entry' : AssetId × Aggregate}
  {row row' : AssetRow × Option Number}

theorem byIdentity_sorted (aggregates : Keyed AssetId Aggregate) :
    (Keyed.keys (byIdentity aggregates)).Pairwise fun a b => AssetId.le a b = true := by
  rw [Keyed.keys, List.pairwise_map]
  exact AssetId.pairwise_mergeSort Prod.fst aggregates

/-- The row of an asset depends on the order of its holdings where it lists them. -/
theorem valued_reordered (hid : entry'.1 = entry.1) (haggregate : entry.2.Reordered entry'.2)
    (hresolved : ∀ id, Keyed.get? id resolved' = Keyed.get? id resolved)
    (hnames : ∀ id, Keyed.get? id names' = Keyed.get? id names) (hvalue : Valuation.SameValue row.2 row'.2)
    (h : valued resolved names detail places entry = .ok row)
    (h' : valued resolved' names' detail places entry' = .ok row') : row.1.Reordered row'.1 := by
  obtain ⟨drawn, value⟩ := row
  obtain ⟨drawn', value'⟩ := row'
  obtain ⟨resolution, hfound, -, hdrawn⟩ := valued_ok_iff.1 h
  obtain ⟨resolution', hfound', -, hdrawn'⟩ := valued_ok_iff.1 h'
  rw [hresolved, hid] at hfound'
  obtain rfl := Option.some.inj (hfound.symm.trans hfound')
  simp only [ofAggregate, Outcome.andThen_ok_iff, Outcome.pure_ok_iff] at hdrawn hdrawn'
  obtain ⟨price, hprice, rate, hrate, text, htext, rfl⟩ := hdrawn
  obtain ⟨price', hprice', rate', hrate', text', htext', rfl⟩ := hdrawn'
  have htexts : optionally (Amount.format · places) value' = optionally (Amount.format · places) value := by
    cases hvalue with
    | none => rfl
    | some hsame =>
      obtain ⟨x, hx, hx'⟩ := hsame
      simp only [optionally, Valuation.format_of_holds hx hx']
  obtain rfl := Except.ok.inj (hprice.symm.trans hprice')
  obtain rfl := Except.ok.inj (hrate.symm.trans hrate')
  obtain rfl := Except.ok.inj (htext.symm.trans (htexts ▸ htext'))
  have hholding : holdingRow names' = holdingRow names := by
    funext holding
    rw [holdingRow, holdingRow, hnames]
  refine ⟨?_, ?_⟩
  · rw [hholding]
    cases detail with
    | false => exact .none
    | true => exact .some (haggregate.holdings.symm.map _)
  · simp only [haggregate.asset, haggregate.latestDate, Decimal.canonical_eq_of_toRat_eq haggregate.total]

end AssetRow

namespace AccountRow

variable {resolved resolved' : Keyed AssetId Resolution} {accounts accounts' : Keyed String Account}
  {connections connections' : Keyed String Connection} {places : Option Int}

theorem ofEffective_congr (hresolved : ∀ id, Keyed.get? id resolved' = Keyed.get? id resolved)
    (haccounts : ∀ id, Keyed.get? id accounts' = Keyed.get? id accounts)
    (hconnections : ∀ id, Keyed.get? id connections' = Keyed.get? id connections) :
    ofEffective resolved' accounts' connections' places = ofEffective resolved accounts connections places := by
  have hlookup : AssetRow.resolutionOf resolved' = AssetRow.resolutionOf resolved := by
    funext id
    rw [AssetRow.resolutionOf, AssetRow.resolutionOf, hresolved]
  have hadd : addBalance resolved' = addBalance resolved := by
    funext sum balance
    rw [addBalance, addBalance, hlookup]
  funext effective
  simp only [ofEffective, ofBalances, hadd, haccounts, hconnections]

theorem breakdown_congr (balances : List EffectiveBalance) (places : Option Int)
    (hresolved : ∀ id, Keyed.get? id resolved' = Keyed.get? id resolved)
    (haccounts : ∀ id, Keyed.get? id accounts' = Keyed.get? id accounts)
    (hconnections : ∀ id, Keyed.get? id connections' = Keyed.get? id connections) :
    breakdown balances resolved' accounts' connections' places =
      breakdown balances resolved accounts connections places := by
  rw [breakdown, breakdown, ofEffective_congr hresolved haccounts hconnections]

theorem le_trans (a b c : AccountRow) (hab : le a b = true) (hbc : le b c = true) : le a c = true := by
  simp only [le, Bool.or_eq_true, Bool.and_eq_true, decide_eq_true_eq] at *
  obtain hab | ⟨hab, hid⟩ := hab
  · obtain hbc | ⟨hbc, -⟩ := hbc
    · exact .inl (String.lt_trans hab hbc)
    · exact .inl (hbc ▸ hab)
  · obtain hbc | ⟨hbc, hid'⟩ := hbc
    · exact .inl (hab ▸ hbc)
    · exact .inr ⟨hab.trans hbc, String.le_trans hid hid'⟩

theorem le_total (a b : AccountRow) : (le a b || le b a) = true := by
  simp only [le, Bool.or_eq_true, Bool.and_eq_true, decide_eq_true_eq]
  obtain hlt | heq | hgt := Std.lt_trichotomy a.accountName b.accountName
  · exact .inl (.inl hlt)
  · obtain hle | hle := String.le_total a.accountId b.accountId
    · exact .inl (.inr ⟨heq, hle⟩)
    · exact .inr (.inr ⟨heq.symm, hle⟩)
  · exact .inr (.inl hgt)

theorem accountId_of_le {a b : AccountRow} (hab : le a b = true) (hba : le b a = true) :
    a.accountId = b.accountId := by
  simp only [le, Bool.or_eq_true, Bool.and_eq_true, decide_eq_true_eq] at hab hba
  obtain hab | ⟨hname, hle⟩ := hab
  · obtain hba | ⟨hname, -⟩ := hba
    · exact absurd hba (String.lt_asymm hab)
    · exact absurd (hname ▸ hab) (String.lt_irrefl _)
  · obtain hba | ⟨-, hge⟩ := hba
    · exact absurd (hname ▸ hba) (String.lt_irrefl _)
    · exact String.le_antisymm hle hge

/-- Rows in the order of names do not depend on the order of the balances. -/
theorem breakdown_of_perm {balances balances' : List EffectiveBalance} {rows rows' : List AccountRow}
    (hperm : balances'.Perm balances)
    (hunique : ∀ r ∈ rows, ∀ r' ∈ rows, r.accountId = r'.accountId → r = r')
    (h : (breakdown balances resolved accounts connections places).outcome = .ok rows)
    (h' : (breakdown balances' resolved accounts connections places).outcome = .ok rows') : rows' = rows := by
  simp only [breakdown, Journaled.outcome_bind, Journaled.outcome_mapM, Journaled.outcome_pure,
    Outcome.bind_ok_iff, Except.ok.injEq] at h h'
  obtain ⟨drawn, hdrawn, rfl⟩ := h
  obtain ⟨drawn', hdrawn', rfl⟩ := h'
  have hrows : ((drawn'.filterMap id).mergeSort le).Perm ((drawn.filterMap id).mergeSort le) :=
    (List.mergeSort_perm _ _).trans
      (((Outcome.perm_of_mapM hperm hdrawn hdrawn').filterMap id).trans (List.mergeSort_perm _ _).symm)
  -- names may be shared, so the order is strict only because no account has two rows
  refine List.Perm.eq_of_pairwise (fun r r' hr hr' hle hge => ?_)
    (List.pairwise_mergeSort le_trans le_total _) (List.pairwise_mergeSort le_trans le_total _) hrows
  exact hunique r (hrows.mem_iff.1 hr) r' hr' (accountId_of_le hle hge)

end AccountRow

namespace Workings

variable {ledger ledger' : LedgerReads} {market : MarketReads} {query : ValuationQuery}
  {valuation valuation' : Valuation} {w : Workings ledger market query valuation}
  {w' : Workings ledger' market query valuation'} {k : Nat}

theorem unit_of_perm (hperm : w'.portions.Perm w.portions) (hforms : Valuation.OneForm w.portions) :
    w'.unit = w.unit :=
  Valuation.unitOf_of_perm hperm hforms

theorem exactWithin_of_perm (hexact : Valuation.ExactWithin k w.unit w.portions)
    (hperm : w'.portions.Perm w.portions) (hforms : Valuation.OneForm w.portions) :
    Valuation.ExactWithin k w'.unit w'.portions :=
  unit_of_perm hperm hforms ▸ hexact.of_perm hperm

theorem mem_aggregates (hperm : w'.portions.Perm w.portions) (id : AssetId) :
    id ∈ Keyed.keys w'.aggregates ↔ id ∈ Keyed.keys w.aggregates := by
  rw [(Aggregate.gather_keys w'.aggregates_eq).2, (Aggregate.gather_keys w.aggregates_eq).2]
  exact (hperm.map Portion.id).mem_iff

theorem asset_of_perm (hperm : w'.portions.Perm w.portions) (hforms : Valuation.OneForm w.portions)
    {id : AssetId} {aggregate aggregate' : Aggregate} (hget : Keyed.get? id w.aggregates = some aggregate)
    (hget' : Keyed.get? id w'.aggregates = some aggregate') : aggregate'.asset = aggregate.asset := by
  obtain ⟨first, hfirst, hasset⟩ := Aggregate.first_of_gather w.aggregates_eq hget
  obtain ⟨first', hfirst', hasset'⟩ := Aggregate.first_of_gather w'.aggregates_eq hget'
  have hfind := Valuation.find?_of_perm hperm hforms id
  simp only [portions] at hfind
  rw [hfirst, hfirst'] at hfind
  rw [hasset, hasset']
  exact Option.some.inj hfind

/-- The aggregates of an identity differ in the order of their holdings only. -/
theorem aggregate_reordered (hk : k ≤ precision) (hexact : Valuation.ExactWithin k w.unit w.portions)
    (hperm : w'.portions.Perm w.portions) (hforms : Valuation.OneForm w.portions) {id : AssetId}
    {aggregate aggregate' : Aggregate} (hget : Keyed.get? id w.aggregates = some aggregate)
    (hget' : Keyed.get? id w'.aggregates = some aggregate') : aggregate.Reordered aggregate' := by
  have hexact' := exactWithin_of_perm hexact hperm hforms
  have hmerged := hperm.filter fun p => p.id = id
  have hholdings : aggregate'.holdings.Perm aggregate.holdings := by
    rw [(Aggregate.gather_merges w.aggregates_eq hget).holdings,
      (Aggregate.gather_merges w'.aggregates_eq hget').holdings]
    exact hmerged.map _
  have hdated := Aggregate.gather_dated w.aggregates_eq _ (Keyed.mem_of_get? hget)
  have hdated' := Aggregate.gather_dated w'.aggregates_eq _ (Keyed.mem_of_get? hget')
  refine ⟨asset_of_perm hperm hforms hget hget', ?_, hdated.latestDate_eq hdated' hholdings, hholdings⟩
  rw [total_exact hk hexact hget, total_exact hk hexact' hget']
  exact (hmerged.map _).sum_eq

theorem resolved_of_perm (hperm : w'.portions.Perm w.portions) (hforms : Valuation.OneForm w.portions)
    (id : AssetId) : Keyed.get? id w'.resolved = Keyed.get? id w.resolved := by
  cases hget : Keyed.get? id w.aggregates with
  | none =>
    rw [Keyed.get?_eq_none] at hget
    have hnone : Keyed.get? id w.resolved = none := by
      rwa [Keyed.get?_eq_none, Valuation.keys_resolutions w.resolved_eq]
    rw [hnone, Keyed.get?_eq_none, Valuation.keys_resolutions w'.resolved_eq, mem_aggregates hperm]
    exact hget
  | some aggregate =>
    have hkey : id ∈ Keyed.keys w'.aggregates := by
      rw [mem_aggregates hperm, ← Keyed.get?_isSome_iff, hget]
      rfl
    obtain ⟨aggregate', hget'⟩ := Option.isSome_iff_exists.1 (Keyed.get?_isSome_iff.2 hkey)
    obtain ⟨resolution, hfound, hresolve⟩ := Valuation.get?_resolutions w.resolved_eq hget
    obtain ⟨resolution', hfound', hresolve'⟩ := Valuation.get?_resolutions w'.resolved_eq hget'
    rw [asset_of_perm hperm hforms hget hget'] at hresolve'
    rw [hfound, hfound', Except.ok.inj (hresolve.symm.trans hresolve')]

theorem byIdentity_of_perm (hperm : w'.portions.Perm w.portions) :
    Keyed.keys (AssetRow.byIdentity w'.aggregates) = Keyed.keys (AssetRow.byIdentity w.aggregates) := by
  have hsame : (Keyed.keys w'.aggregates).Perm (Keyed.keys w.aggregates) :=
    (List.perm_ext_iff_of_nodup (Aggregate.gather_keys w'.aggregates_eq).1
      (Aggregate.gather_keys w.aggregates_eq).1).2 (mem_aggregates hperm)
  refine List.Perm.eq_of_pairwise (fun a b _ _ hab hba => AssetId.le_antisymm hab hba)
    (AssetRow.byIdentity_sorted _) (AssetRow.byIdentity_sorted _) ?_
  exact (AssetRow.keys_byIdentity_perm _).trans (hsame.trans (AssetRow.keys_byIdentity_perm _).symm)

/-- The rows of assets differ in the order of their holdings only. -/
theorem rows_reordered (hk : k ≤ precision) (hexact : Valuation.ExactWithin k w.unit w.portions)
    (hperm : w'.portions.Perm w.portions) (hforms : Valuation.OneForm w.portions)
    (hnames : ∀ id, Keyed.get? id (Keyed.ofList (w'.accounts.map fun a => (a.id, a.name))) =
      Keyed.get? id (Keyed.ofList (w.accounts.map fun a => (a.id, a.name)))) :
    List.Forall₂ AssetRow.Reordered (w.rows.map Prod.fst) (w'.rows.map Prod.fst) := by
  have hexact' := exactWithin_of_perm hexact hperm hforms
  rw [List.forall₂_map_left_iff, List.forall₂_map_right_iff]
  refine Outcome.forall₂_of_mapM₂ (Keyed.forall₂_of_keys_eq (byIdentity_of_perm hperm)) w.rows_eq w'.rows_eq ?_
  rintro entry entry' row row' ⟨hid, hentry, hentry'⟩ hrow hrow'
  have hget := get?_of_byIdentity hentry
  have hget' := get?_of_byIdentity hentry'
  have haggregate := aggregate_reordered hk hexact hperm hforms hget (hid ▸ hget')
  have hworth : Valuation.worth w'.unit (w'.portions.filter fun p => p.id = entry'.1) =
      Valuation.worth w.unit (w.portions.filter fun p => p.id = entry.1) := by
    rw [hid, unit_of_perm hperm hforms]
    exact Valuation.worth_of_perm _ (hperm.filter _)
  have hsome : row'.2.isSome = row.2.isSome := by
    obtain ⟨resolution, hfound, hvalue, -⟩ := AssetRow.valued_ok_iff.1 hrow
    obtain ⟨resolution', hfound', hvalue', -⟩ := AssetRow.valued_ok_iff.1 hrow'
    rw [resolved_of_perm hperm hforms, hid] at hfound'
    obtain rfl := Option.some.inj (hfound.symm.trans hfound')
    rw [Resolution.isSome_of_valueOf hvalue, Resolution.isSome_of_valueOf hvalue']
  -- the two values need not be one decimal, but they are one number
  have hvalue := Valuation.sameValue_of_counts (value_exact hk hexact hget hrow)
    (hworth ▸ value_exact hk hexact' hget' hrow') hsome
  exact AssetRow.valued_reordered hid haggregate (resolved_of_perm hperm hforms) hnames hvalue hrow hrow'

/-- The total is the same number, so it has the same text. -/
theorem totalValue_of_perm (hk : k ≤ precision) (hexact : Valuation.ExactWithin k w.unit w.portions)
    (hperm : w'.portions.Perm w.portions) (hforms : Valuation.OneForm w.portions) :
    valuation'.totalValue = valuation.totalValue := by
  have hunit := unit_of_perm hperm hforms
  have hexact' := exactWithin_of_perm hexact hperm hforms
  have hworth : Valuation.worth w'.unit w'.portions = Valuation.worth w.unit w.portions := by
    rw [hunit]
    exact Valuation.worth_of_perm _ hperm
  have hformat := Valuation.format_of_holds (w.total_holds hk hexact) (hworth ▸ w'.total_holds hk hexact')
    query.places
  exact Except.ok.inj (w'.totalValue_eq.symm.trans (hformat.trans w.totalValue_eq))

theorem accountRow_unique {rows : List AccountRow}
    (h : (AccountRow.breakdown w.balances w.resolved (Keyed.ofList (w.accounts.map fun a => (a.id, a)))
      (Keyed.ofList (w.connections.map fun c => (c.id, c))) query.places).outcome = .ok rows) :
    ∀ r ∈ rows, ∀ r' ∈ rows, r.accountId = r'.accountId → r = r' := by
  obtain ⟨drawn, hdrawn, hrows⟩ := AccountRow.breakdown_ok h
  -- a row has the identifier of the balance that it was drawn for
  have hsource : ∀ r ∈ rows, ∃ e ∈ w.balances, e.accountId = r.accountId ∧
      (AccountRow.ofEffective w.resolved (Keyed.ofList (w.accounts.map fun a => (a.id, a)))
        (Keyed.ofList (w.connections.map fun c => (c.id, c))) query.places e).outcome = .ok (some r) := by
    intro r hr
    have hmem : some r ∈ drawn := by simpa using hrows.mem_iff.1 hr
    obtain ⟨e, he, her⟩ := (Outcome.mem_of_mapM hdrawn).1 hmem
    obtain ⟨account, -, hid, hget⟩ := w.account_of_effective he
    have hconnection := AccountRow.ofEffective_ok hget her
    refine ⟨e, he, ?_, her⟩
    split at hconnection
    · contradiction
    · obtain ⟨row, hrow, heq⟩ := hconnection
      obtain rfl := Option.some.inj heq
      rw [(AccountRow.shown_of_ofBalances hrow).1, hid]
  intro r hr r' hr' hid
  obtain ⟨e, he, hes, her⟩ := hsource r hr
  obtain ⟨f, hf, hfs, hfr⟩ := hsource r' hr'
  obtain rfl := balance_unique he hf (hes.trans (hid.trans hfs.symm))
  exact Option.some.inj (Except.ok.inj (her.symm.trans hfr))

end Workings

namespace Valuation

variable {ledger ledger' : Ledger} {market : MarketReads} {query : ValuationQuery}
  {valuation valuation' : Valuation}

theorem effectiveBalance_reordered (h : ledger.Reordered ledger') (account : Account) :
    effectiveBalance ledger'.reads query account = effectiveBalance ledger.reads query account := by
  simp only [effectiveBalance, Ledger.reads, h.overrides, h.snapshots]

theorem balances_reordered (h : ledger.Reordered ledger') (w : Workings ledger.reads market query valuation)
    (w' : Workings ledger'.reads market query valuation') :
    w'.accounts.Perm w.accounts ∧ w'.balances.Perm w.balances ∧ w'.portions.Perm w.portions := by
  have haccounts : w'.accounts.Perm w.accounts := by
    rw [← Except.ok.inj w.accounts_eq, ← Except.ok.inj w'.accounts_eq]
    exact h.accounts
  obtain ⟨chosen, hchosen, hbalances⟩ := effectiveBalances_ok_iff.1 w.balances_eq
  obtain ⟨chosen', hchosen', hbalances'⟩ := effectiveBalances_ok_iff.1 w'.balances_eq
  simp only [effectiveBalance_reordered h] at hchosen'
  have hcounted : w'.balances.Perm w.balances := by
    rw [← hbalances, ← hbalances']
    exact (Outcome.perm_of_mapM haccounts hchosen hchosen').filterMap id
  have hcontributions := Outcome.perm_of_mapM hcounted w.contributions_eq w'.contributions_eq
  exact ⟨haccounts, hcounted, hcontributions.flatMap_right _⟩

/-- Ledgers with the same records are valued alike, whichever account was recorded first: where the decimals
lose nothing, and assets of one identity have one normal form, valuations differ in the order of the
holdings of an asset only. -/
theorem account_order_leaves_valuation (hrecorded : ledger.Recorded) (hsame : ledger.Reordered ledger')
    (hrun : (run ledger.reads market query).outcome = .ok valuation)
    (hrun' : (run ledger'.reads market query).outcome = .ok valuation') {contributions : List Contribution}
    (hcontributions : Valuation.contributions ledger.reads query = .ok contributions)
    (hforms : OneForm (contributions.flatMap (·.portions))) {k : Nat} (hk : k ≤ precision)
    (hexact : ExactWithin k (unitOf market query (contributions.flatMap (·.portions)))
      (contributions.flatMap (·.portions))) :
    valuation'.totalValue = valuation.totalValue ∧ valuation'.byAccount = valuation.byAccount ∧
      Option.Rel (List.Forall₂ AssetRow.Reordered) valuation.byAsset valuation'.byAsset := by
  obtain ⟨w⟩ := nonempty_workings hrun
  obtain ⟨w'⟩ := nonempty_workings hrun'
  obtain rfl := Except.ok.inj (w.contributions_of.symm.trans hcontributions)
  obtain ⟨haccounts, hbalances, hperm⟩ := balances_reordered hsame w w'
  have hgrouping : w'.grouping = w.grouping := Except.ok.inj (w'.grouping_eq.symm.trans w.grouping_eq)
  have hconnections : w'.connections.Perm w.connections := by
    rw [← Except.ok.inj w.connections_eq, ← Except.ok.inj w'.connections_eq]
    exact hsame.connections
  -- accounts and connections are told apart by their identifiers, so look-ups find the same in any order
  have haccountIds : (w.accounts.map Account.id).Nodup := by
    rw [← Except.ok.inj w.accounts_eq]
    exact hrecorded.selfKeyed.1.nodup_values
  have hconnectionIds : (w.connections.map Connection.id).Nodup := by
    rw [← Except.ok.inj w.connections_eq]
    exact hrecorded.selfKeyed.2.nodup_values
  refine ⟨Workings.totalValue_of_perm hk hexact hperm hforms, ?_, ?_⟩
  · have hrows := w.byAccount_eq
    have hrows' := w'.byAccount_eq
    rw [hgrouping] at hrows'
    split at hrows
    · rename_i hincluded
      rw [if_pos hincluded] at hrows'
      obtain ⟨rows, hdrawn, heq⟩ := hrows
      obtain ⟨rows', hdrawn', heq'⟩ := hrows'
      rw [AccountRow.breakdown_congr _ _ (Workings.resolved_of_perm hperm hforms)
        (Keyed.get?_ofList_of_perm haccounts haccountIds)
        (Keyed.get?_ofList_of_perm hconnections hconnectionIds)] at hdrawn'
      rw [heq, heq', AccountRow.breakdown_of_perm hbalances (Workings.accountRow_unique hdrawn) hdrawn hdrawn']
    · rename_i hexcluded
      rw [if_neg hexcluded] at hrows'
      rw [hrows, hrows']
  · rw [w.byAsset_eq, w'.byAsset_eq, hgrouping]
    split
    · exact .some (Workings.rows_reordered hk hexact hperm hforms
        (Keyed.get?_ofList_of_perm haccounts haccountIds))
    · exact .none

/-- The euros of a bank account and a purse, the purse being listed first. -/
def purseFirst : Ledger :=
  ((((Ledger.empty.putConnection ⟨"bank", "Bank", "manual"⟩).putAccount
    ⟨"purse", "Purse", "bank", [], true⟩).putAccount ⟨"checking", "Checking", "bank", [], true⟩).addSnapshot
      "checking" ⟨.endOfDay dollarQuery.date, [⟨.known (.currency "EUR"), .text "10.5"⟩]⟩).addSnapshot
      "purse" ⟨.endOfDay dollarQuery.date, [⟨.known (.currency "eur"), .text "2.25"⟩]⟩

def detailedQuery : ValuationQuery := { dollarQuery with detail := true, places := some 1 }

theorem euroLedger_recorded : euroLedger.Recorded :=
  .snapshot "purse" (.endOfDay dollarQuery.date) _
    (.snapshot "checking" (.endOfDay dollarQuery.date) _ (.account _ (.account _ (.connection _ .empty))))

theorem euroLedger_reordered : euroLedger.Reordered purseFirst where
  accounts := by decide +kernel
  connections := .refl _
  overrides := fun _ => rfl
  snapshots := fun _ => rfl

/-- The euros are worth the same, in detail and rounded to a place, whichever account comes first. -/
theorem purse_first_valued_alike : euroLedger.Recorded ∧ euroLedger.Reordered purseFirst ∧
    contributions euroLedger.reads detailedQuery = .ok euroContributions ∧
    OneForm (euroContributions.flatMap (·.portions)) ∧
    ExactWithin 2 (unitOf euroMarket detailedQuery (euroContributions.flatMap (·.portions)))
      (euroContributions.flatMap (·.portions)) ∧
    ∃ valuation valuation', (run euroLedger.reads euroMarket detailedQuery).outcome = .ok valuation ∧
      (run purseFirst.reads euroMarket detailedQuery).outcome = .ok valuation' ∧
      valuation'.totalValue = valuation.totalValue ∧ valuation'.byAccount = valuation.byAccount ∧
      Option.Rel (List.Forall₂ AssetRow.Reordered) valuation.byAsset valuation'.byAsset := by
  have hcontributions : contributions euroLedger.reads detailedQuery = .ok euroContributions := by
    decide +kernel
  have hforms : OneForm (euroContributions.flatMap (·.portions)) := by
    unfold OneForm
    decide +kernel
  have hexact : ExactWithin 2 (unitOf euroMarket detailedQuery (euroContributions.flatMap (·.portions)))
      (euroContributions.flatMap (·.portions)) := euros_exactWithin
  have hsome : (run euroLedger.reads euroMarket detailedQuery).outcome.toOption.isSome = true ∧
      (run purseFirst.reads euroMarket detailedQuery).outcome.toOption.isSome = true := by
    decide +kernel
  obtain ⟨valuation, hvaluation⟩ := Option.isSome_iff_exists.1 hsome.1
  obtain ⟨valuation', hvaluation'⟩ := Option.isSome_iff_exists.1 hsome.2
  have hrun := Outcome.ok_of_toOption hvaluation
  have hrun' := Outcome.ok_of_toOption hvaluation'
  exact ⟨euroLedger_recorded, euroLedger_reordered, hcontributions, hforms, hexact, valuation, valuation', hrun,
    hrun', account_order_leaves_valuation euroLedger_recorded euroLedger_reordered hrun hrun' hcontributions
      hforms (by decide) hexact⟩

end Valuation

end NetWorth
