import Mathlib.Algebra.BigOperators.Ring.List
import NetWorth.Proofs.Valuation.ExactSums
import NetWorth.Proofs.Valuation.Selection
import NetWorth.Proofs.Valuation.Workings

/-! # The breakdowns agree

Summing amounts by asset before valuing them, and valuing amounts before summing them by account, come
to the same where the decimals lose nothing: total, rows of assets and rows of accounts all report the
exact sums of amount times unit value. -/
namespace NetWorth

open Decimal (HasPlaces precision)

variable {ledger : LedgerReads} {market : MarketReads} {query : ValuationQuery}

/-- What a portion is worth at given unit values; one whose asset has none counts nothing. -/
def Portion.worth (unit : AssetId → Option Decimal) (portion : Portion) : ℚ :=
  ((unit portion.id).map fun u => portion.amount.toRat * u.toRat).getD 0

namespace Valuation

/-- What the accounts contribute to a valuation, in the order of accounts. -/
def contributions (ledger : LedgerReads) (query : ValuationQuery) : Except Failure (List Contribution) := do
  let accounts ← ledger.accounts
  let balances ← (effectiveBalances ledger query accounts).outcome
  balances.mapM Contribution.ofEffective

/-- What one unit of an asset is worth, the asset taken in the spelling in which it is first met. -/
def unitOf (market : MarketReads) (query : ValuationQuery) (portions : List Portion) (id : AssetId) :
    Option Decimal := do
  let first ← portions.find? fun p => p.id = id
  match (market.resolve first.asset query.currency query.date).outcome with
  | .ok resolution => resolution.unitValue.bind Number.finite?
  | .error _ => none

/-- The exact worth of portions. -/
def worth (unit : AssetId → Option Decimal) (portions : List Portion) : ℚ :=
  (portions.map (Portion.worth unit)).sum

/-- Amounts and values have at most `k` places, and 28 digits hold the sums of their sizes. -/
structure ExactWithin (k : Nat) (unit : AssetId → Option Decimal) (portions : List Portion) : Prop where
  amounts : ∀ p ∈ portions, HasPlaces k p.amount.toRat
  values : ∀ p ∈ portions, HasPlaces k (p.worth unit)
  amountSize : ∀ id, ((portions.filter fun p => p.id = id).map fun p => |p.amount.toRat|).sum <
    10 ^ (precision - k)
  valueSize : (portions.map fun p => |p.worth unit|).sum < 10 ^ (precision - k)

/-- Every account that contributes has a known connection. -/
def ConnectionsKnown (ledger : LedgerReads) (contributions : List Contribution) : Prop :=
  ∀ accounts connections, ledger.accounts = .ok accounts → ledger.connections = .ok connections →
    ∀ a ∈ accounts, a.id ∈ contributions.map (·.accountId) → a.connectionId ∈ connections.map (·.id)

/-- Sums under distinct identities that cover all portions add up to the sum of all portions. -/
theorem sum_by_identity {ids : List AssetId} (hids : ids.Nodup) {portions : List Portion}
    (hcover : ∀ p ∈ portions, p.id ∈ ids) (f : Portion → ℚ) :
    (ids.map fun id => ((portions.filter fun p => p.id = id).map f).sum).sum =
      (portions.map f).sum := by
  have hperm := Keyed.flatMap_filter_perm hids hcover
  rw [← (hperm.map f).sum_eq, List.map_flatMap]
  generalize ids = ks
  induction ks with
  | nil => rfl
  | cons id ks ih =>
    rw [List.map_cons, List.sum_cons, ih, List.flatMap_cons, List.sum_append]

end Valuation

namespace Workings

variable {valuation : Valuation} (w : Workings ledger market query valuation)

def portions : List Portion := w.contributions.flatMap (·.portions)

def unit : AssetId → Option Decimal := Valuation.unitOf market query w.portions

theorem contributions_of : Valuation.contributions ledger query = .ok w.contributions := by
  simp only [Valuation.contributions, Outcome.andThen_ok_iff]
  exact ⟨_, w.accounts_eq, _, w.balances_eq, w.contributions_eq⟩

/-- An aggregated identity has one resolution, and unit values are those of resolutions. -/
theorem resolution_of_aggregate {id : AssetId} {aggregate : Aggregate}
    (hget : Keyed.get? id w.aggregates = some aggregate) :
    ∃ resolution, Keyed.get? id w.resolved = some resolution ∧
      market.Resolves query.currency query.date aggregate.asset resolution ∧
      w.unit id = resolution.unitValue.bind Number.finite? := by
  obtain ⟨resolution, hresolution, hresolve⟩ := Valuation.get?_resolutions w.resolved_eq hget
  obtain ⟨first, hfirst, hasset⟩ := Aggregate.first_of_gather w.aggregates_eq hget
  have hfind : w.portions.find? (fun p => p.id = id) = some first := hfirst
  refine ⟨resolution, hresolution, MarketReads.resolves hresolve, ?_⟩
  simp [unit, Valuation.unitOf, hfind, ← hasset, hresolve]

theorem aggregate_of_portion {p : Portion} (hp : p ∈ w.portions) :
    ∃ aggregate, Keyed.get? p.id w.aggregates = some aggregate := by
  have hkeys := (Aggregate.gather_keys w.aggregates_eq).2 p.id
  rw [← Option.isSome_iff_exists, Keyed.get?_isSome_iff, hkeys]
  exact List.mem_map_of_mem hp

theorem worth_of_identity {id : AssetId} {u : Decimal} (hu : w.unit id = some u) (portions : List Portion) :
    Valuation.worth w.unit (portions.filter fun p => p.id = id) =
      ((portions.filter fun p => p.id = id).map fun p => p.amount.toRat).sum * u.toRat := by
  rw [← List.sum_map_mul_right, Valuation.worth]
  congr 1
  refine List.map_congr_left fun p hp => ?_
  have hid : p.id = id := by simpa using (List.mem_filter.1 hp).2
  simp [Portion.worth, hid, hu]

theorem worth_of_unresolved {id : AssetId} (hu : w.unit id = none) (portions : List Portion) :
    Valuation.worth w.unit (portions.filter fun p => p.id = id) = 0 := by
  refine List.sum_eq_zero fun x hx => ?_
  obtain ⟨p, hp, rfl⟩ := List.mem_map.1 hx
  have hid : p.id = id := by simpa using (List.mem_filter.1 hp).2
  simp [Portion.worth, hid, hu]

variable {k : Nat} {w}

theorem total_exact (hk : k ≤ precision) (hexact : Valuation.ExactWithin k w.unit w.portions)
    {id : AssetId} {aggregate : Aggregate} (hget : Keyed.get? id w.aggregates = some aggregate) :
    aggregate.total.toRat = ((w.portions.filter fun p => p.id = id).map fun p => p.amount.toRat).sum := by
  have hmerges : Aggregate.Merges (w.portions.filter fun p => p.id = id) aggregate :=
    Aggregate.gather_merges w.aggregates_eq hget
  exact hmerges.total_exact hk (fun p hp => hexact.amounts p (List.mem_of_mem_filter hp))
    (hexact.amountSize id)

theorem value_exact (hk : k ≤ precision) (hexact : Valuation.ExactWithin k w.unit w.portions)
    {names : Keyed String String} {detail : Bool} {places : Option Int} {entry : AssetId × Aggregate}
    {row : AssetRow × Option Number} (hget : Keyed.get? entry.1 w.aggregates = some entry.2)
    (h : AssetRow.valued w.resolved names detail places entry = .ok row) :
    Valuation.Counts row.2 (Valuation.worth w.unit (w.portions.filter fun p => p.id = entry.1)) := by
  obtain ⟨resolution, hresolution, hresolves, hunit⟩ := w.resolution_of_aggregate hget
  obtain ⟨found, hfound, hvalue, -⟩ := AssetRow.valued_ok_iff.1 h
  obtain rfl := Option.some.inj (hresolution.symm.trans hfound)
  have htotal := total_exact hk hexact hget
  have hworth : (((resolution.unitValue.bind Number.finite?).map
      fun u => entry.2.total.toRat * u.toRat).getD 0) =
      Valuation.worth w.unit (w.portions.filter fun p => p.id = entry.1) := by
    rw [← hunit]
    cases hu : w.unit entry.1 with
    | none => exact (worth_of_unresolved w hu w.portions).symm
    | some u => rw [worth_of_identity w hu, ← htotal]; rfl
  have hcounts := (Valuation.valueOf_exact hk (fun u => hresolves.finite) ?_ hvalue).1
  · exact hworth ▸ hcounts
  · intro u hu
    have hproduct : entry.2.total.toRat * u.toRat =
        Valuation.worth w.unit (w.portions.filter fun p => p.id = entry.1) := by
      rw [← hworth, hu]
      rfl
    rw [hproduct]
    refine ⟨HasPlaces.sum fun x hx => ?_, (Valuation.abs_sum_le _ _).trans_lt
      ((Valuation.sum_filter_le _ _ _).trans_lt hexact.valueSize)⟩
    obtain ⟨p, hp, rfl⟩ := List.mem_map.1 hx
    exact hexact.values p (List.mem_of_mem_filter hp)

theorem get?_of_byIdentity {entry : AssetId × Aggregate} (h : entry ∈ AssetRow.byIdentity w.aggregates) :
    Keyed.get? entry.1 w.aggregates = some entry.2 :=
  (Keyed.mem_iff_get? (Aggregate.gather_keys w.aggregates_eq).1).1 ((List.mergeSort_perm _ _).mem_iff.1 h)

theorem rows_count (hk : k ≤ precision) (hexact : Valuation.ExactWithin k w.unit w.portions) :
    List.Forall₂ Valuation.Counts (w.rows.map Prod.snd)
      ((AssetRow.byIdentity w.aggregates).map fun entry =>
        Valuation.worth w.unit (w.portions.filter fun p => p.id = entry.1)) := by
  rw [List.forall₂_map_left_iff, List.forall₂_map_right_iff]
  refine (Outcome.forall₂_of_mapM w.rows_eq fun entry hentry row hrow => ?_).flip
  exact value_exact hk hexact (get?_of_byIdentity hentry) hrow

theorem row_texts (hplaces : query.places = none) :
    ∀ row ∈ w.rows, row.1.value = row.2.map Number.canonical := by
  intro row hrow
  have hrows := w.rows_eq
  rw [hplaces] at hrows
  obtain ⟨entry, -, hvalued⟩ := (Outcome.mem_of_mapM hrows).1 hrow
  obtain ⟨resolution, -, -, hdrawn⟩ := AssetRow.valued_ok_iff.1 hvalued
  exact AssetRow.value_of_ofAggregate hdrawn

theorem row_identities : ((AssetRow.byIdentity w.aggregates).map Prod.fst).Nodup ∧
    ∀ p ∈ w.portions, p.id ∈ (AssetRow.byIdentity w.aggregates).map Prod.fst := by
  obtain ⟨hnodup, hkeys⟩ := Aggregate.gather_keys w.aggregates_eq
  have hperm := AssetRow.keys_byIdentity_perm w.aggregates
  refine ⟨hperm.nodup_iff.2 hnodup, fun p hp => hperm.mem_iff.2 ?_⟩
  rw [hkeys]
  exact List.mem_map_of_mem hp

theorem sum_row_worths : ((AssetRow.byIdentity w.aggregates).map fun entry =>
    Valuation.worth w.unit (w.portions.filter fun p => p.id = entry.1)).sum =
      Valuation.worth w.unit w.portions := by
  obtain ⟨hnodup, hcover⟩ := w.row_identities
  have hsum := Valuation.sum_by_identity hnodup hcover (Portion.worth w.unit)
  rwa [List.map_map] at hsum

theorem total_holds (hk : k ≤ precision) (hexact : Valuation.ExactWithin k w.unit w.portions) :
    w.total.Holds (Valuation.worth w.unit w.portions) := by
  have hxs : ∀ x ∈ (AssetRow.byIdentity w.aggregates).map fun entry =>
      Valuation.worth w.unit (w.portions.filter fun p => p.id = entry.1), HasPlaces k x := by
    intro x hx
    obtain ⟨entry, -, rfl⟩ := List.mem_map.1 hx
    refine HasPlaces.sum fun y hy => ?_
    obtain ⟨p, hp, rfl⟩ := List.mem_map.1 hy
    exact hexact.values p (List.mem_of_mem_filter hp)
  have hsize : (((AssetRow.byIdentity w.aggregates).map fun entry =>
      Valuation.worth w.unit (w.portions.filter fun p => p.id = entry.1)).map abs).sum <
      10 ^ (precision - k) := by
    refine lt_of_le_of_lt ?_ hexact.valueSize
    obtain ⟨hnodup, hcover⟩ := w.row_identities
    rw [← Valuation.sum_by_identity hnodup hcover, List.map_map, List.map_map]
    refine List.sum_le_sum fun entry _ => ?_
    exact Valuation.abs_sum_le _ _
  have hzero : |(0 : ℚ)| = 0 := abs_zero
  have htotal := Valuation.addValues_exact hk (rows_count hk hexact) hxs Number.holds_zero HasPlaces.zero
    (by rwa [hzero, zero_add]) w.total_eq
  rwa [zero_add, sum_row_worths] at htotal

theorem rows_exact (hplaces : query.places = none) (hk : k ≤ precision)
    (hexact : Valuation.ExactWithin k w.unit w.portions) :
    Valuation.sumOf? ((w.rows.map Prod.fst).filterMap (·.value)) =
      some (Valuation.worth w.unit w.portions) := by
  have hsum := Valuation.sumOf?_of_counts (rows_count hk hexact)
  rw [sum_row_worths, List.filterMap_map] at hsum
  rw [← hsum, List.filterMap_map]
  exact congrArg Valuation.sumOf? (List.filterMap_congr (row_texts hplaces))

theorem mem_portions {contribution : Contribution} (hc : contribution ∈ w.contributions) {p : Portion}
    (hp : p ∈ contribution.portions) : p ∈ w.portions :=
  List.mem_flatMap.2 ⟨contribution, hc, hp⟩

theorem portion_value_exact (hk : k ≤ precision) (hexact : Valuation.ExactWithin k w.unit w.portions)
    {p : Portion} (hp : p ∈ w.portions) {value : Option Number}
    (h : (do let resolution ← AssetRow.resolutionOf w.resolved p.id; resolution.valueOf p.amount) =
      .ok value) :
    Valuation.Counts value (p.worth w.unit) ∧ value.isSome = (w.unit p.id).isSome := by
  obtain ⟨aggregate, haggregate⟩ := w.aggregate_of_portion hp
  obtain ⟨resolution, hresolution, hresolves, hunit⟩ := w.resolution_of_aggregate haggregate
  simp only [Outcome.andThen_ok_iff, AssetRow.resolutionOf_ok_iff] at h
  obtain ⟨found, hfound, hvalue⟩ := h
  obtain rfl := Option.some.inj (hresolution.symm.trans hfound)
  rw [Portion.worth, hunit]
  refine Valuation.valueOf_exact hk (fun u => hresolves.finite) (fun u hu => ?_) hvalue
  have hworth : p.amount.toRat * u.toRat = p.worth w.unit := by
    rw [Portion.worth, hunit, hu]
    rfl
  rw [hworth]
  refine ⟨hexact.values p hp, lt_of_le_of_lt ?_ hexact.valueSize⟩
  have hmem : |p.worth w.unit| ∈ w.portions.map fun q => |q.worth w.unit| :=
    List.mem_map.2 ⟨p, hp, rfl⟩
  refine List.single_le_sum (fun x hx => ?_) _ hmem
  obtain ⟨q, -, rfl⟩ := List.mem_map.1 hx
  exact abs_nonneg _

theorem contribution_size (hexact : Valuation.ExactWithin k w.unit w.portions)
    {contribution : Contribution} (hc : contribution ∈ w.contributions) :
    (contribution.portions.map fun p => |p.worth w.unit|).sum < 10 ^ (precision - k) := by
  refine lt_of_le_of_lt ?_ hexact.valueSize
  obtain ⟨before, after, hsplit⟩ := List.append_of_mem hc
  have hbefore := Valuation.sum_abs_nonneg (Portion.worth w.unit) (before.flatMap (·.portions))
  have hafter := Valuation.sum_abs_nonneg (Portion.worth w.unit) (after.flatMap (·.portions))
  rw [portions, hsplit]
  simp only [List.flatMap_append, List.flatMap_cons, List.map_append, List.sum_append]
  linarith

/-- A row reports the exact worth of what an account contributes, unless some of it is unresolved. -/
structure Reports (unit : AssetId → Option Decimal) (row : AccountRow) (contribution : Contribution) :
    Prop where
  accountId : row.accountId = contribution.accountId
  known : (∃ text, row.value = some text) ↔ ∀ p ∈ contribution.portions, (unit p.id).isSome
  value : ∀ text, row.value = some text →
    Decimal.valueOf? text = some (Valuation.worth unit contribution.portions)

theorem row_reports (hk : k ≤ precision) (hexact : Valuation.ExactWithin k w.unit w.portions)
    {effective : EffectiveBalance} {contribution : Contribution}
    (hc : contribution ∈ w.contributions) (heffective : Contribution.ofEffective effective = .ok contribution)
    {account : Account} (haccount : account.id = effective.accountId) {connection : Connection}
    {row : AccountRow}
    (hrow : AccountRow.ofBalances w.resolved account connection none effective.balances = .ok row) :
    Reports w.unit row contribution := by
  obtain ⟨date, portions, -, hportions, rfl⟩ := Contribution.ofEffective_ok_iff.1 heffective
  obtain ⟨values, total, hvalues, htotal, rfl⟩ := AccountRow.ofBalances_ok hrow
  have hvalued := Outcome.mapM_of_mapM_andThen hportions hvalues
  have hcounts := Outcome.forall₂_of_mapM hvalued fun p hp value hvalue =>
    portion_value_exact hk hexact (mem_portions hc hp) hvalue
  have hresolved : values.any Option.isNone = false ↔ ∀ p ∈ portions, (w.unit p.id).isSome := by
    have hsome := hcounts.imp fun _ _ h => h.2
    clear hcounts hvalued htotal hvalues hportions heffective hrow hc
    induction hsome with
    | nil => simp
    | @cons p value _ _ hvalue _ ih =>
      simp only [List.any_cons, Bool.or_eq_false_iff, List.mem_cons, forall_eq_or_imp, ih, ← hvalue]
      cases value <;> simp
  refine ⟨haccount, ?_, fun text htext => ?_⟩
  · rw [← hresolved]
    cases values.any Option.isNone <;> simp
  · have hvalues : List.Forall₂ Valuation.Counts values (portions.map (Portion.worth w.unit)) := by
      rw [List.forall₂_map_right_iff]
      exact (hcounts.imp fun _ _ h => h.1).flip
    have hplaces : ∀ x ∈ portions.map (Portion.worth w.unit), HasPlaces k x := by
      intro x hx
      obtain ⟨p, hp, rfl⟩ := List.mem_map.1 hx
      exact hexact.values p (mem_portions hc hp)
    have hzero : |(0 : ℚ)| = 0 := abs_zero
    have hsize := contribution_size hexact hc
    have hholds := Valuation.addValues_exact hk hvalues hplaces Number.holds_zero HasPlaces.zero
      (by rwa [hzero, zero_add, List.map_map]) htotal
    cases hmissing : values.any Option.isNone with
    | true => simp [hmissing] at htext
    | false =>
      simp only [hmissing, Bool.false_eq_true, if_false, Option.some.injEq] at htext
      rw [← htext, hholds.valueOf?, zero_add]
      rfl

theorem account_of_effective {effective : EffectiveBalance} (he : effective ∈ w.balances) :
    ∃ account ∈ w.accounts, account.id = effective.accountId ∧
      Keyed.get? effective.accountId (Keyed.ofList (w.accounts.map fun a => (a.id, a))) = some account := by
  obtain ⟨account, haccount, hbalance⟩ := (Valuation.mem_effectiveBalances w.balances_eq).1 he
  have hkey : effective.accountId ∈ Keyed.keys (Keyed.ofList (w.accounts.map fun a => (a.id, a))) := by
    rw [Keyed.keys_ofList, List.map_map, Valuation.accountId_of_effectiveBalance hbalance]
    exact List.mem_map.2 ⟨account, haccount, rfl⟩
  obtain ⟨found, hfound⟩ := Option.isSome_iff_exists.1 (Keyed.get?_isSome_iff.2 hkey)
  obtain ⟨other, hother, heq⟩ := List.mem_map.1 (Keyed.mem_of_mem_ofList (Keyed.mem_of_get? hfound))
  obtain ⟨hid, rfl⟩ := Prod.mk.inj heq
  exact ⟨other, hother, hid, hfound⟩

/-- An account has one balance that counts, wherever the list of accounts has it. -/
theorem balance_unique {e f : EffectiveBalance} (he : e ∈ w.balances) (hf : f ∈ w.balances)
    (h : e.accountId = f.accountId) : e = f := by
  obtain ⟨a, -, ha⟩ := (Valuation.mem_effectiveBalances w.balances_eq).1 he
  obtain ⟨b, -, hb⟩ := (Valuation.mem_effectiveBalances w.balances_eq).1 hf
  have hid : a.id = b.id := by
    rw [← Valuation.accountId_of_effectiveBalance ha, ← Valuation.accountId_of_effectiveBalance hb, h]
  have heffective : (Valuation.effectiveBalance ledger query b).outcome = .ok (some e) := by
    rw [← ha]
    simp only [Valuation.effectiveBalance, hid]
  exact Option.some.inj (Except.ok.inj (heffective.symm.trans hb))

theorem contribution_unique {c d : Contribution} (hc : c ∈ w.contributions) (hd : d ∈ w.contributions)
    (h : c.accountId = d.accountId) : c = d := by
  obtain ⟨e, he, hec⟩ := (Outcome.mem_of_mapM w.contributions_eq).1 hc
  obtain ⟨f, hf, hfd⟩ := (Outcome.mem_of_mapM w.contributions_eq).1 hd
  have hid : e.accountId = f.accountId := by
    obtain ⟨_, _, -, -, rfl⟩ := Contribution.ofEffective_ok_iff.1 hec
    obtain ⟨_, _, -, -, rfl⟩ := Contribution.ofEffective_ok_iff.1 hfd
    exact h
  obtain rfl := balance_unique he hf hid
  exact Except.ok.inj (hec.symm.trans hfd)

/-- What is drawn for a contribution reports it, and a row is drawn if its connection is known. -/
theorem drawn_reports (hk : k ≤ precision) (hexact : Valuation.ExactWithin k w.unit w.portions)
    {effective : EffectiveBalance} (he : effective ∈ w.balances) {contribution : Contribution}
    (hcontribution : Contribution.ofEffective effective = .ok contribution) {row : Option AccountRow}
    (hrow : (AccountRow.ofEffective w.resolved (Keyed.ofList (w.accounts.map fun a => (a.id, a)))
      (Keyed.ofList (w.connections.map fun c => (c.id, c))) none effective).outcome = .ok row) :
    (∀ r, row = some r → Reports w.unit r contribution) ∧
      (Valuation.ConnectionsKnown ledger w.contributions → row.isSome) := by
  have hc := (Outcome.mem_of_mapM w.contributions_eq).2 ⟨effective, he, hcontribution⟩
  obtain ⟨account, hmem, hid, hget⟩ := w.account_of_effective he
  have hconnection := AccountRow.ofEffective_ok hget hrow
  cases hfound : Keyed.get? account.connectionId
      (Keyed.ofList (w.connections.map fun c => (c.id, c))) with
  | none =>
    rw [hfound] at hconnection
    obtain rfl : row = none := hconnection
    refine ⟨by simp, fun hknown => ?_⟩
    have hcid : contribution.accountId = account.id := by
      obtain ⟨_, _, -, -, rfl⟩ := Contribution.ofEffective_ok_iff.1 hcontribution
      exact hid.symm
    have hids := hknown _ _ w.accounts_eq w.connections_eq account hmem
      (List.mem_map.2 ⟨contribution, hc, hcid⟩)
    rw [Keyed.get?_eq_none, Keyed.keys_ofList, List.map_map] at hfound
    exact absurd hids hfound
  | some connection =>
    rw [hfound] at hconnection
    obtain ⟨r, hr, rfl⟩ := hconnection
    refine ⟨fun r' hr' => ?_, fun _ => rfl⟩
    obtain rfl := Option.some.inj hr'
    exact row_reports hk hexact hc hcontribution hid hr

end Workings

namespace Valuation

/-- Total and breakdowns report exact sums of amount times unit value. -/
structure BreakdownsAgree (ledger : LedgerReads) (unit : AssetId → Option Decimal)
    (contributions : List Contribution) (valuation : Valuation) (assetRows : List AssetRow)
    (accountRows : List AccountRow) : Prop where
  total : Decimal.valueOf? valuation.totalValue =
    some (worth unit (contributions.flatMap (·.portions)))
  assets : sumOf? (assetRows.filterMap (·.value)) = Decimal.valueOf? valuation.totalValue
  participants : ∀ row ∈ accountRows, ∃ c ∈ contributions, c.accountId = row.accountId
  accounts : ∀ row ∈ accountRows, ∀ text, row.value = some text →
    ∀ c ∈ contributions, c.accountId = row.accountId →
      (∀ p ∈ c.portions, (unit p.id).isSome) ∧ Decimal.valueOf? text = some (worth unit c.portions)
  complete : (∀ p ∈ contributions.flatMap (·.portions), (unit p.id).isSome) →
    ConnectionsKnown ledger contributions →
      sumOf? (accountRows.filterMap (·.value)) = Decimal.valueOf? valuation.totalValue

theorem sumOf?_of_rows {unit : AssetId → Option Decimal} {drawn : List (Option AccountRow)}
    {contributions : List Contribution}
    (h : List.Forall₂ (fun row c => ∃ r text, row = some r ∧ r.value = some text ∧
      Decimal.valueOf? text = some (worth unit c.portions)) drawn contributions) :
    sumOf? ((drawn.filterMap id).filterMap (·.value)) =
      some (worth unit (contributions.flatMap (·.portions))) := by
  induction h with
  | nil => rfl
  | @cons row c _ _ hrow _ ih =>
    obtain ⟨r, text, rfl, htext, hvalue⟩ := hrow
    simp only [List.filterMap_cons, id_eq, htext, sumOf?, hvalue, worth, List.flatMap_cons,
      List.map_append, List.sum_append] at ih ⊢
    rw [ih]
    rfl

/-- Where the decimals lose nothing, both breakdowns of a valuation agree with its total. -/
theorem breakdowns_agree_with_total {valuation : Valuation}
    (hrun : (run ledger market query).outcome = .ok valuation)
    (hgrouping : (Grouping.read query.grouping).outcome = .ok .both) (hplaces : query.places = none) :
    ∃ contributions assetRows accountRows,
      Valuation.contributions ledger query = .ok contributions ∧
      valuation.byAsset = some assetRows ∧ valuation.byAccount = some accountRows ∧
      ∀ k ≤ precision,
        ExactWithin k (unitOf market query (contributions.flatMap (·.portions)))
          (contributions.flatMap (·.portions)) →
        BreakdownsAgree ledger (unitOf market query (contributions.flatMap (·.portions))) contributions
          valuation assetRows accountRows := by
  obtain ⟨w⟩ := nonempty_workings hrun
  have hboth : w.grouping = .both := Except.ok.inj (w.grouping_eq.symm.trans hgrouping)
  have hassets := w.byAsset_eq
  have haccounts := w.byAccount_eq
  rw [hboth] at hassets haccounts
  obtain ⟨accountRows, hbreakdown, haccountRows⟩ := haccounts
  refine ⟨w.contributions, w.rows.map Prod.fst, accountRows, w.contributions_of, hassets, haccountRows,
    fun k hk hexact => ?_⟩
  rw [hplaces] at hbreakdown
  obtain ⟨drawn, hdrawn, hperm⟩ := AccountRow.breakdown_ok hbreakdown
  have hholds := w.total_holds hk hexact
  have hrows := w.rows_exact hplaces hk hexact
  have htotal : Decimal.valueOf? valuation.totalValue = some (worth w.unit w.portions) := by
    have htext := w.totalValue_eq
    rw [hplaces, Amount.format_none] at htext
    rw [← Except.ok.inj htext, hholds.valueOf?]
  have hreported : ∀ r ∈ accountRows, ∃ c ∈ w.contributions, Workings.Reports w.unit r c := by
    intro r hr
    have hsome : some r ∈ drawn := by simpa using hperm.mem_iff.1 hr
    obtain ⟨e, he, her⟩ := (Outcome.mem_of_mapM hdrawn).1 hsome
    obtain ⟨c, hc⟩ := Outcome.exists_of_mapM w.contributions_eq he
    exact ⟨c, (Outcome.mem_of_mapM w.contributions_eq).2 ⟨e, he, hc⟩,
      (Workings.drawn_reports hk hexact he hc her).1 r rfl⟩
  refine ⟨htotal, hrows.trans htotal.symm, fun r hr => ?_, fun r hr text htext c hc hid => ?_,
    fun hresolved hknown => ?_⟩
  · obtain ⟨c, hc, hreports⟩ := hreported r hr
    exact ⟨c, hc, hreports.accountId.symm⟩
  · obtain ⟨d, hd, hreports⟩ := hreported r hr
    obtain rfl := w.contribution_unique hc hd (hid.trans hreports.accountId)
    exact ⟨hreports.known.1 ⟨text, htext⟩, hreports.value text htext⟩
  · rw [htotal, sumOf?_perm (hperm.filterMap _)]
    refine sumOf?_of_rows (Outcome.forall₂_of_mapM_mapM hdrawn w.contributions_eq fun e he row c hrow hc => ?_)
    obtain ⟨hreports, hsome⟩ := Workings.drawn_reports hk hexact he hc hrow
    obtain ⟨r, rfl⟩ := Option.isSome_iff_exists.1 (hsome hknown)
    have hmem := (Outcome.mem_of_mapM w.contributions_eq).2 ⟨e, he, hc⟩
    obtain ⟨text, htext⟩ :=
      (hreports r rfl).known.2 fun p hp => hresolved p (Workings.mem_portions hmem hp)
    exact ⟨r, text, rfl, htext, (hreports r rfl).value text htext⟩

def euroLedger : Ledger :=
  ((((Ledger.empty.putConnection ⟨"bank", "Bank", "manual"⟩).putAccount
    ⟨"checking", "Checking", "bank", [], true⟩).putAccount ⟨"purse", "Purse", "bank", [], true⟩).addSnapshot
      "checking" ⟨.endOfDay ⟨737790, by decide⟩, [⟨.known (.currency "EUR"), .text "10.5"⟩]⟩).addSnapshot
      "purse" ⟨.endOfDay ⟨737790, by decide⟩, [⟨.known (.currency "eur"), .text "2.25"⟩]⟩

def euroMarket : MarketReads where
  price := fun _ _ _ => .ok none
  prices := fun _ => .ok []
  rate := fun _ _ date _ => .ok (some ⟨"EUR", "USD", date, .endOfDay date, .text "1.2", "close", "feed"⟩)
  rates := fun _ _ => .ok []

def dollarQuery : ValuationQuery := ⟨⟨737790, by decide⟩, "USD", none, false, none⟩

def euroContributions : List Contribution :=
  [⟨"checking", [⟨.currency "EUR", "checking", ⟨false, 105, -1⟩, ⟨737790, by decide⟩⟩]⟩,
   ⟨"purse", [⟨.currency "EUR", "purse", ⟨false, 225, -2⟩, ⟨737790, by decide⟩⟩]⟩]

def euroUnit : AssetId → Option Decimal :=
  unitOf euroMarket dollarQuery (euroContributions.flatMap (·.portions))

theorem euroUnit_eq : euroUnit ⟨"currency/EUR"⟩ = some ⟨false, 12, -1⟩ := by decide +kernel

theorem euros_exactWithin : ExactWithin 2 euroUnit (euroContributions.flatMap (·.portions)) := by
  have hid : AssetId.ofAsset (.currency "EUR") = ⟨"currency/EUR"⟩ := by decide +kernel
  have hamounts : ∀ p ∈ euroContributions.flatMap (·.portions),
      p.id = ⟨"currency/EUR"⟩ ∧ (p.amount = ⟨false, 105, -1⟩ ∨ p.amount = ⟨false, 225, -2⟩) := by
    simp [euroContributions, Portion.id, Portion.amount, hid]
  have hten : Decimal.toRat ⟨false, 105, -1⟩ = 21 / 2 := by norm_num [Decimal.toRat, Decimal.signed]
  have htwo : Decimal.toRat ⟨false, 225, -2⟩ = 9 / 4 := by norm_num [Decimal.toRat, Decimal.signed]
  have hrate : Decimal.toRat ⟨false, 12, -1⟩ = 6 / 5 := by norm_num [Decimal.toRat, Decimal.signed]
  refine ⟨fun p hp => ?_, fun p hp => ?_, fun id => ?_, ?_⟩
  · rcases (hamounts p hp).2 with h | h
    · exact ⟨1050, by rw [h, hten]; norm_num⟩
    · exact ⟨225, by rw [h, htwo]; norm_num⟩
  · rw [Portion.worth, (hamounts p hp).1, euroUnit_eq, Option.map_some, Option.getD_some, hrate]
    rcases (hamounts p hp).2 with h | h
    · exact ⟨1260, by rw [h, hten]; norm_num⟩
    · exact ⟨270, by rw [h, htwo]; norm_num⟩
  · refine (sum_filter_le _ _ _).trans_lt ?_
    simp only [euroContributions, List.flatMap_cons, List.flatMap_nil, List.append_nil,
      List.singleton_append, List.map_cons, List.map_nil, List.sum_cons, List.sum_nil, Portion.amount,
      hten, htwo, precision]
    norm_num
  · simp only [euroContributions, List.flatMap_cons, List.flatMap_nil, List.append_nil,
      List.singleton_append, List.map_cons, List.map_nil, List.sum_cons, List.sum_nil, Portion.worth,
      Portion.id, hid, euroUnit_eq, Option.map_some, Option.getD_some, Portion.amount, hten, htwo, hrate,
      precision]
    norm_num

/-- The euros of two accounts, valued in dollars. -/
theorem breakdowns_agree_on_euros : ∃ valuation assetRows accountRows,
    (run euroLedger.reads euroMarket dollarQuery).outcome = .ok valuation ∧
      BreakdownsAgree euroLedger.reads euroUnit euroContributions valuation assetRows accountRows := by
  have hsome : (run euroLedger.reads euroMarket dollarQuery).outcome.toOption.isSome = true := by
    decide +kernel
  have hcontributions : contributions euroLedger.reads dollarQuery = .ok euroContributions := by
    decide +kernel
  cases hrun : (run euroLedger.reads euroMarket dollarQuery).outcome with
  | error failure =>
    rw [hrun] at hsome
    contradiction
  | ok valuation =>
    obtain ⟨found, assetRows, accountRows, hfound, -, -, hagree⟩ :=
      breakdowns_agree_with_total hrun rfl rfl
    obtain rfl := Except.ok.inj (hcontributions.symm.trans hfound)
    exact ⟨valuation, assetRows, accountRows, rfl, hagree 2 (by decide) euros_exactWithin⟩

end Valuation

end NetWorth
