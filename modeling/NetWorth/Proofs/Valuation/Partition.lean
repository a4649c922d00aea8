import NetWorth.Proofs.Valuation.Portions

/-! # Holdings divided up by asset

Merging balances divides them up by the identities of their assets: each balance is a holding under one
identity, in the order of the balances, and the identities stand in the order in which they are first met.
An identity has the asset of its first balance, the latest of the dates of its holdings and their sum. -/
namespace NetWorth

open Decimal (HasPlaces precision)

namespace Aggregate

deriving instance DecidableEq for Aggregate

/-- A balance, with the contribution of the account that it is part of. -/
structure Entry where
  effective : EffectiveBalance
  balance : Balance

namespace Entry

def all (balances : List EffectiveBalance) : List Entry :=
  balances.flatMap fun effective => effective.balances.map (Entry.mk effective)

def asset? (entry : Entry) : Option Asset :=
  match entry.balance.asset with
  | .known asset => some asset
  | .unrecognised _ => none

def identity? (entry : Entry) : Option AssetId := entry.asset?.map AssetId.ofAsset

/-- A holding has the account of the balance, the amount that its text states, and its date in universal
time. -/
structure Reads (entry : Entry) (holding : Holding) : Prop where
  account : holding.accountId = entry.effective.accountId
  amount : Amount.read entry.balance.amount (some "amount") = .ok holding.amount
  date : entry.effective.timestamp.utcDate? = some holding.date

/-- A portion is what is read of a balance, with its asset in normal form. -/
structure Yields (entry : Entry) (portion : Portion) : Prop where
  reads : entry.Reads portion.holding
  asset : entry.asset?.map Asset.normalize = some portion.asset

theorem Yields.identity {entry : Entry} {portion : Portion} (h : entry.Yields portion) :
    entry.identity? = some portion.id := by
  obtain ⟨asset, hasset, hnormal⟩ := Option.map_eq_some_iff.1 h.asset
  rw [identity?, hasset, Option.map_some, Portion.id, ← hnormal, AssetId.ofAsset_normalize]

theorem yields_of_ofBalance {effective : EffectiveBalance} {date : Date} {balance : Balance}
    {portion : Portion} (hdate : effective.date = .ok date)
    (h : Portion.ofBalance effective.accountId date balance = .ok portion) :
    (Entry.mk effective balance).Yields portion := by
  obtain ⟨asset, amount, hasset, hamount, rfl⟩ := Portion.ofBalance_ok_iff.1 h
  refine ⟨⟨rfl, hamount, ?_⟩, ?_⟩
  · unfold EffectiveBalance.date at hdate
    split at hdate
    · rename_i utc hutc
      obtain rfl := Except.ok.inj hdate
      exact hutc
    · contradiction
  · simp only [asset?, hasset, Option.map_some]

theorem yields_of_mapM {balances : List EffectiveBalance} {contributions : List Contribution}
    (h : balances.mapM Contribution.ofEffective = .ok contributions) :
    List.Forall₂ Yields (all balances) (contributions.flatMap (·.portions)) := by
  have hread := Outcome.mapM_ok_iff.1 h
  clear h
  induction hread with
  | nil => exact .nil
  | @cons effective contribution balances contributions hread _ ih =>
    obtain ⟨date, portions, hdate, hportions, rfl⟩ := Contribution.ofEffective_ok_iff.1 hread
    have hfirst : List.Forall₂ Yields (effective.balances.map (Entry.mk effective)) portions := by
      rw [List.forall₂_map_left_iff]
      exact Outcome.forall₂_of_mapM hportions fun balance _ portion hportion =>
        yields_of_ofBalance hdate hportion
    rw [all, List.flatMap_cons, List.flatMap_cons]
    exact List.rel_append hfirst ih

variable {entries : List Entry} {portions : List Portion}

theorem filterMap_identity? (h : List.Forall₂ Yields entries portions) :
    entries.filterMap identity? = portions.map Portion.id := by
  induction h with
  | nil => rfl
  | cons hfirst _ ih => rw [List.filterMap_cons, hfirst.identity, List.map_cons, ih]

theorem isSome_identity? (h : List.Forall₂ Yields entries portions) :
    ∀ e ∈ entries, e.identity?.isSome := by
  induction h with
  | nil => simp
  | cons hfirst _ ih => exact List.forall_mem_cons.2 ⟨by simp [hfirst.identity], ih⟩

/-- The balances of an identity yield the portions of the identity. -/
theorem yields_filter (h : List.Forall₂ Yields entries portions) (id : AssetId) :
    List.Forall₂ Yields (entries.filter fun e => e.identity? = some id)
      (portions.filter fun p => p.id = id) := by
  induction h with
  | nil => exact .nil
  | @cons entry portion _ _ hfirst _ ih =>
    have hsame : (entry.identity? = some id) = (portion.id = id) := by
      rw [hfirst.identity, Option.some_inj]
    simp only [List.filter_cons, hsame]
    split
    · exact .cons hfirst ih
    · exact ih

end Entry

/-- An aggregate of the balances of one identity: their holdings in their order, the asset of the first of
them, the latest of their dates, and their sum where 28 digits hold the sizes of all of them together. -/
structure Groups (entries : List Entry) (id : AssetId) (aggregate : Aggregate) : Prop where
  holdings : List.Forall₂ Entry.Reads (entries.filter fun e => e.identity? = some id) aggregate.holdings
  first : ∃ first, entries.find? (fun e => e.identity? = some id) = some first ∧
    first.asset?.map Asset.normalize = some aggregate.asset
  identity : AssetId.ofAsset aggregate.asset = id
  latest : aggregate.Dated
  total : ∀ k ≤ precision, (∀ h ∈ aggregate.holdings, HasPlaces k h.amount.toRat) →
    (aggregate.holdings.map fun h => |h.amount.toRat|).sum < 10 ^ (precision - k) →
    aggregate.total.toRat = (aggregate.holdings.map fun h => h.amount.toRat).sum

/-- The balances are divided up by identity, and each of them is a holding of one aggregate. -/
structure Divides (balances : List EffectiveBalance) (m : Keyed AssetId Aggregate) : Prop where
  identified : ∀ e ∈ Entry.all balances, e.identity?.isSome
  keys : Keyed.keys m = ((Entry.all balances).filterMap Entry.identity?).eraseDups
  groups : ∀ id aggregate, (id, aggregate) ∈ m → Groups (Entry.all balances) id aggregate
  complete : ∃ holdings, List.Forall₂ Entry.Reads (Entry.all balances) holdings ∧
    (m.flatMap fun e => e.2.holdings).Perm holdings

variable {entries : List Entry} {portions : List Portion} {m : Keyed AssetId Aggregate}

theorem groups_of_merges (hyields : List.Forall₂ Entry.Yields entries portions) {id : AssetId}
    {aggregate : Aggregate} (hmerges : Merges (portions.filter fun p => p.id = id) aggregate)
    (hdated : aggregate.Dated) : Groups entries id aggregate := by
  have hfilter := Entry.yields_filter hyields id
  have hid : ∀ p ∈ portions.filter (fun p => p.id = id), p.id = id := fun p hp => by
    simpa using (List.mem_filter.1 hp).2
  generalize hgroup : portions.filter (fun p => p.id = id) = group at hfilter hmerges hid
  obtain ⟨first, rest, rfl⟩ := List.exists_cons_of_ne_nil hmerges.nonempty
  have hasset : aggregate.asset = first.asset := hmerges.asset first rfl
  refine ⟨?_, ?_, ?_, hdated, fun k hk hplaces hsize => ?_⟩
  · rw [hmerges.holdings, List.forall₂_map_right_iff]
    exact hfilter.imp fun _ _ h => h.reads
  · generalize hentries : entries.filter (fun e => e.identity? = some id) = chosen at hfilter
    obtain _ | ⟨hfirst, -⟩ := hfilter
    refine ⟨_, ?_, hasset ▸ hfirst.asset⟩
    rw [← List.head?_filter, hentries, List.head?_cons]
  · rw [hasset]
    exact hid first List.mem_cons_self
  · rw [hmerges.holdings, List.map_map] at hsize ⊢
    rw [hmerges.holdings] at hplaces
    exact hmerges.total_exact hk (fun p hp => hplaces _ (List.mem_map_of_mem hp)) hsize

theorem holdings_perm (h : gather portions [] = .ok m) :
    (m.flatMap fun e => e.2.holdings).Perm (portions.map (·.holding)) := by
  have hkeys := gather_keys h
  have hgroups : (m.flatMap fun e => e.2.holdings) =
      ((Keyed.keys m).flatMap fun id => portions.filter fun p => p.id = id).map (·.holding) := by
    rw [Keyed.keys, List.flatMap_map, List.map_flatMap]
    refine List.flatMap_congr fun e he => ?_
    exact (gather_merges h ((Keyed.mem_iff_get? hkeys.1).1 he)).holdings
  rw [hgroups]
  refine (Keyed.flatMap_filter_perm hkeys.1 fun p hp => ?_).map _
  exact (hkeys.2 p.id).2 (List.mem_map_of_mem hp)

/-- Merging divides the balances up by the identities of their assets. -/
theorem divides_balances {balances : List EffectiveBalance} (h : ofBalances balances = .ok m) :
    Divides balances m := by
  obtain ⟨contributions, hcontributions, hgather⟩ := ofBalances_ok_iff.1 h
  have hyields := Entry.yields_of_mapM hcontributions
  refine ⟨Entry.isSome_identity? hyields, ?_, fun id aggregate hmem => ?_, ?_⟩
  · rw [gather_keys_eq hgather, Entry.filterMap_identity? hyields]
  · have hget := (Keyed.mem_iff_get? (gather_keys hgather).1).1 hmem
    exact groups_of_merges hyields (gather_merges hgather hget) (gather_dated hgather _ hmem)
  · refine ⟨_, ?_, holdings_perm hgather⟩
    rw [List.forall₂_map_right_iff]
    exact hyields.imp fun _ _ h => h.reads

def newYear : Date := ⟨Date.yearStart 2022, by decide⟩

def dayAfter : Date := ⟨Date.yearStart 2022 + 1, by decide⟩

def pettyCash : EffectiveBalance :=
  ⟨"purse", .endOfDay newYear,
    [⟨.known (.currency " usd"), .text "1.50"⟩, ⟨.known (.equity "acme" none), .text "10"⟩], none⟩

def deposit : EffectiveBalance :=
  ⟨"safe", .endOfDay dayAfter, [⟨.known (.currency "USD"), .text "2.250"⟩], none⟩

def dollarsAndShares : Keyed AssetId Aggregate :=
  [(⟨"currency/USD"⟩, ⟨.currency "USD", ⟨false, 3750, -3⟩, dayAfter,
      [⟨"purse", ⟨false, 150, -2⟩, newYear⟩, ⟨"safe", ⟨false, 2250, -3⟩, dayAfter⟩]⟩),
    (⟨"equity/ACME"⟩, ⟨.equity "ACME" none, ⟨false, 10, 0⟩, newYear, [⟨"purse", ⟨false, 10, 0⟩, newYear⟩]⟩)]

/-- The dollars of both accounts stand under one identity, before the shares. -/
theorem dollars_divided : ofBalances [pettyCash, deposit] = .ok dollarsAndShares ∧
    Divides [pettyCash, deposit] dollarsAndShares := by
  have hmerged : ofBalances [pettyCash, deposit] = .ok dollarsAndShares :=
    Outcome.ok_of_toOption (by decide +kernel)
  exact ⟨hmerged, divides_balances hmerged⟩

end Aggregate

end NetWorth
