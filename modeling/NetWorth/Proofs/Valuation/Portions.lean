import NetWorth.Proofs.Asset.Normalization
import NetWorth.Proofs.Decimal.Exact
import NetWorth.Proofs.Keyed
import NetWorth.Valuation

/-! # Portions

The amounts that take part in a valuation, account by account, before anything is merged. Merging them
leaves, under each identity, the asset as it was first met, every holding in its order, and the sum of
the amounts. -/
namespace NetWorth

deriving instance DecidableEq for Holding

structure Portion where
  asset : Asset
  holding : Holding
deriving DecidableEq

namespace Portion

def id (portion : Portion) : AssetId := AssetId.ofAsset portion.asset

def amount (portion : Portion) : Decimal := portion.holding.amount

def ofBalance (accountId : String) (date : Date) (balance : Balance) : Except Failure Portion := do
  let asset ← balance.asset.normalize
  let amount ← Amount.read balance.amount (some "amount")
  return ⟨asset, accountId, amount, date⟩

/-- What the aggregate of its asset becomes. -/
def join (portion : Portion) : Option Aggregate → Except Failure Aggregate
  | none => .ok (.single portion.asset portion.holding)
  | some aggregate => aggregate.addHolding portion.holding

theorem ofBalance_ok_iff {accountId : String} {date : Date} {balance : Balance} {portion : Portion} :
    ofBalance accountId date balance = .ok portion ↔
      ∃ asset amount, balance.asset = .known asset ∧
        Amount.read balance.amount (some "amount") = .ok amount ∧
        portion = ⟨asset.normalize, accountId, amount, date⟩ := by
  simp only [ofBalance, Outcome.andThen_ok_iff, Outcome.pure_ok_iff]
  constructor
  · rintro ⟨normal, hnormal, amount, hamount, rfl⟩
    obtain ⟨asset, hasset, rfl⟩ := Outcome.map_ok_iff.1 hnormal
    cases hrecord : balance.asset with
    | known known =>
      rw [hrecord] at hasset
      obtain rfl := Except.ok.inj hasset
      exact ⟨_, amount, rfl, hamount, rfl⟩
    | unrecognised value =>
      rw [hrecord] at hasset
      contradiction
  · rintro ⟨asset, amount, hasset, hamount, rfl⟩
    exact ⟨asset.normalize, by rw [hasset]; rfl, amount, hamount, rfl⟩

theorem id_of_ofBalance {accountId : String} {date : Date} {balance : Balance} {portion : Portion}
    (h : ofBalance accountId date balance = .ok portion) :
    AssetId.ofRecord balance.asset = .ok portion.id := by
  obtain ⟨asset, amount, hasset, -, rfl⟩ := ofBalance_ok_iff.1 h
  simp [hasset, id]

end Portion

/-- What one account contributes to a valuation. -/
structure Contribution where
  accountId : String
  portions : List Portion
deriving DecidableEq

namespace Contribution

def ofEffective (effective : EffectiveBalance) : Except Failure Contribution := do
  let date ← effective.date
  let portions ← effective.balances.mapM (Portion.ofBalance effective.accountId date)
  return ⟨effective.accountId, portions⟩

theorem ofEffective_ok_iff {effective : EffectiveBalance} {contribution : Contribution} :
    ofEffective effective = .ok contribution ↔
      ∃ date portions, effective.date = .ok date ∧
        effective.balances.mapM (Portion.ofBalance effective.accountId date) = .ok portions ∧
        contribution = ⟨effective.accountId, portions⟩ := by
  simp only [ofEffective, Outcome.andThen_ok_iff, Outcome.pure_ok_iff]
  constructor
  · rintro ⟨date, hdate, portions, hportions, rfl⟩
    exact ⟨date, portions, hdate, hportions, rfl⟩
  · rintro ⟨date, portions, hdate, hportions, rfl⟩
    exact ⟨date, hdate, portions, hportions, rfl⟩

/-- A portion is of an asset that one of the balances holds, in normal form. -/
theorem source_of_portion {balances : List EffectiveBalance} {contributions : List Contribution}
    (h : balances.mapM ofEffective = .ok contributions) {p : Portion}
    (hp : p ∈ contributions.flatMap (·.portions)) :
    ∃ effective ∈ balances, ∃ b ∈ effective.balances, ∃ asset, b.asset = .known asset ∧
      p.asset = asset.normalize := by
  obtain ⟨contribution, hcontribution, hp⟩ := List.mem_flatMap.1 hp
  obtain ⟨effective, heffective, hread⟩ := (Outcome.mem_of_mapM h).1 hcontribution
  obtain ⟨date, portions, -, hportions, rfl⟩ := ofEffective_ok_iff.1 hread
  obtain ⟨b, hb, hportion⟩ := (Outcome.mem_of_mapM hportions).1 hp
  obtain ⟨asset, amount, hasset, -, rfl⟩ := Portion.ofBalance_ok_iff.1 hportion
  exact ⟨effective, heffective, b, hb, asset, hasset, rfl⟩

end Contribution

namespace Aggregate

theorem enter_eq (aggregates : Keyed AssetId Aggregate) (portion : Portion) :
    enter aggregates portion.asset portion.holding = Keyed.alterM portion.id portion.join aggregates := by
  unfold enter Keyed.alterM Portion.join Portion.id
  cases hget : Keyed.get? (AssetId.ofAsset portion.asset) aggregates <;> simp only [hget]

def gather (portions : List Portion) (aggregates : Keyed AssetId Aggregate) :
    Except Failure (Keyed AssetId Aggregate) :=
  portions.foldlM (fun m p => Keyed.alterM p.id p.join m) aggregates

theorem gather_append {ps qs : List Portion} {m m' : Keyed AssetId Aggregate} :
    gather (ps ++ qs) m = .ok m' ↔ ∃ t, gather ps m = .ok t ∧ gather qs t = .ok m' := by
  simp [gather]

theorem enterBalance_ok_iff {accountId : String} {date : Date} {m m' : Keyed AssetId Aggregate}
    {balance : Balance} :
    enterBalance accountId date m balance = .ok m' ↔
      ∃ p, Portion.ofBalance accountId date balance = .ok p ∧ Keyed.alterM p.id p.join m = .ok m' := by
  simp only [enterBalance, Portion.ofBalance, Outcome.andThen_ok_iff, Outcome.pure_ok_iff, ← enter_eq]
  constructor
  · rintro ⟨asset, hasset, amount, hamount, henter⟩
    exact ⟨⟨asset, accountId, amount, date⟩, ⟨asset, hasset, amount, hamount, rfl⟩, henter⟩
  · rintro ⟨-, ⟨asset, hasset, amount, hamount, rfl⟩, henter⟩
    exact ⟨asset, hasset, amount, hamount, henter⟩

theorem enterEffective_ok_iff {m m' : Keyed AssetId Aggregate} {effective : EffectiveBalance} :
    enterEffective m effective = .ok m' ↔
      ∃ c, Contribution.ofEffective effective = .ok c ∧ gather c.portions m = .ok m' := by
  have hfold : ∀ date, effective.balances.foldlM (enterBalance effective.accountId date) m = .ok m' ↔
      ∃ ps, effective.balances.mapM (Portion.ofBalance effective.accountId date) = .ok ps ∧
        gather ps m = .ok m' := by
    intro date
    refine Outcome.foldlM_mapM ?_
    exact fun _ _ _ => enterBalance_ok_iff
  simp only [enterEffective, Outcome.andThen_ok_iff, Contribution.ofEffective_ok_iff, hfold]
  constructor
  · rintro ⟨date, hdate, portions, hportions, hgather⟩
    exact ⟨_, ⟨date, portions, hdate, hportions, rfl⟩, hgather⟩
  · rintro ⟨-, ⟨date, portions, hdate, hportions, rfl⟩, hgather⟩
    exact ⟨date, hdate, portions, hportions, hgather⟩

theorem foldlM_gather {cs : List Contribution} {m m' : Keyed AssetId Aggregate} :
    cs.foldlM (fun m c => gather c.portions m) m = .ok m' ↔
      gather (cs.flatMap (·.portions)) m = .ok m' := by
  induction cs generalizing m with
  | nil => simp [gather]
  | cons c cs ih => simp only [Outcome.foldlM_cons_ok_iff, ih, List.flatMap_cons, gather_append]

/-- Merging balances is merging the portions that they hold. -/
theorem ofBalances_ok_iff {balances : List EffectiveBalance} {m : Keyed AssetId Aggregate} :
    ofBalances balances = .ok m ↔
      ∃ cs, balances.mapM Contribution.ofEffective = .ok cs ∧
        gather (cs.flatMap (·.portions)) [] = .ok m := by
  have hfold : ofBalances balances = .ok m ↔
      ∃ cs, balances.mapM Contribution.ofEffective = .ok cs ∧
        cs.foldlM (fun m c => gather c.portions m) [] = .ok m := by
    refine Outcome.foldlM_mapM ?_
    exact fun _ _ _ => enterEffective_ok_iff
  simp only [hfold, foldlM_gather]

/-- An aggregate holds what the portions of one identity bring, the asset as the first of them has it. -/
structure Merges (portions : List Portion) (aggregate : Aggregate) : Prop where
  nonempty : portions ≠ []
  asset : ∀ p ∈ portions.head?, aggregate.asset = p.asset
  holdings : aggregate.holdings = portions.map (·.holding)
  total : (portions.tail.map (·.amount)).foldlM Decimal.add
    ((portions.head?.map (·.amount)).getD .zero) = .ok aggregate.total

theorem Merges.addHolding {portions : List Portion} {aggregate next : Aggregate} {portion : Portion}
    (h : Merges portions aggregate) (hnext : aggregate.addHolding portion.holding = .ok next) :
    Merges (portions ++ [portion]) next := by
  obtain ⟨first, rest, rfl⟩ := List.exists_cons_of_ne_nil h.nonempty
  simp only [Aggregate.addHolding, Outcome.andThen_ok_iff, Outcome.ofSignal_ok_iff,
    Outcome.pure_ok_iff] at hnext
  obtain ⟨total, htotal, rfl⟩ := hnext
  refine ⟨by simp, ?_, ?_, ?_⟩
  · simpa using h.asset
  · simp [h.holdings]
  · have hold := h.total
    simp only [List.tail_cons, List.head?_cons, Option.map_some, Option.getD_some] at hold
    simp only [List.cons_append, List.tail_cons, List.head?_cons, Option.map_some, Option.getD_some,
      List.map_append, List.foldlM_append, Outcome.andThen_ok_iff]
    exact ⟨_, hold, by simpa [Portion.amount] using htotal⟩

/-- The total of an aggregate is the sum of its amounts where 28 digits hold the sizes of all of them
together. -/
theorem Merges.total_exact {portions : List Portion} {aggregate : Aggregate} (h : Merges portions aggregate)
    {k : Nat} (hk : k ≤ Decimal.precision) (hplaces : ∀ p ∈ portions, Decimal.HasPlaces k p.amount.toRat)
    (hsize : (portions.map fun p => |p.amount.toRat|).sum < 10 ^ (Decimal.precision - k)) :
    aggregate.total.toRat = (portions.map fun p => p.amount.toRat).sum := by
  obtain ⟨first, rest, rfl⟩ := List.exists_cons_of_ne_nil h.nonempty
  have htotal := h.total
  simp only [List.tail_cons, List.head?_cons, Option.map_some, Option.getD_some] at htotal
  simp only [List.map_cons, List.sum_cons] at hsize
  have hrest : ∀ d ∈ rest.map (·.amount), Decimal.HasPlaces k d.toRat := by
    simpa using fun p hp => hplaces p (by simp [hp])
  obtain ⟨r, hr, hvalue⟩ :=
    Decimal.addAll_exact hk (hplaces first (by simp)) hrest (by rwa [List.map_map])
  obtain rfl := Except.ok.inj (hr.symm.trans htotal)
  rw [hvalue, List.map_map]
  rfl

/-- Joining portions to what others left keeps account of all of them. -/
theorem merges_of_foldlM {before portions : List Portion} {entry : Option Aggregate}
    {aggregate : Aggregate}
    (hentry : entry = none ∧ before = [] ∨ ∃ a, entry = some a ∧ Merges before a)
    (h : portions.foldlM (fun e p => (p.join e).map some) entry = .ok (some aggregate)) :
    Merges (before ++ portions) aggregate := by
  induction portions generalizing before entry with
  | nil =>
    rw [Outcome.foldlM_nil_ok_iff] at h
    subst h
    obtain ⟨hnone, -⟩ | ⟨a, ha, hmerges⟩ := hentry
    · contradiction
    · obtain rfl := Option.some.inj ha
      simpa using hmerges
  | cons p portions ih =>
    obtain ⟨next, hnext, hrest⟩ := Outcome.foldlM_cons_ok_iff.1 h
    obtain ⟨a, ha, rfl⟩ := Outcome.map_ok_iff.1 hnext
    have hmerges : Merges (before ++ [p]) a := by
      obtain ⟨rfl, rfl⟩ | ⟨b, rfl, hb⟩ := hentry
      · obtain rfl : Aggregate.single p.asset p.holding = a := Except.ok.inj ha
        refine ⟨by simp, by simp [single], by simp [single], ?_⟩
        simp [single, Portion.amount, pure, Except.pure]
      · exact hb.addHolding ha
    simpa using ih (.inr ⟨a, rfl, hmerges⟩) hrest

variable {portions : List Portion} {m : Keyed AssetId Aggregate}

theorem gather_keys (h : gather portions [] = .ok m) :
    (Keyed.keys m).Nodup ∧ ∀ id, id ∈ Keyed.keys m ↔ id ∈ portions.map Portion.id := by
  have hkeys := Keyed.keys_foldlM_alterM h (by simp [Keyed.keys])
  refine ⟨hkeys.1, fun id => ?_⟩
  rw [hkeys.2]
  simp [Keyed.keys]

theorem gather_keys_eq (h : gather portions [] = .ok m) :
    Keyed.keys m = (portions.map Portion.id).eraseDups :=
  Keyed.keys_eq_of_foldlM_alterM h

theorem gather_merges (h : gather portions [] = .ok m) {id : AssetId} {aggregate : Aggregate}
    (hget : Keyed.get? id m = some aggregate) : Merges (portions.filter (·.id = id)) aggregate := by
  have hfold := Keyed.get?_foldlM_alterM h id
  rw [hget] at hfold
  simpa using merges_of_foldlM (.inl ⟨rfl, rfl⟩) hfold

/-- An aggregate is of the asset of the first portion of its identity. -/
theorem first_of_gather (h : gather portions [] = .ok m) {id : AssetId} {aggregate : Aggregate}
    (hget : Keyed.get? id m = some aggregate) :
    ∃ first, portions.find? (fun p => p.id = id) = some first ∧ aggregate.asset = first.asset := by
  have hmerges := gather_merges h hget
  obtain ⟨first, rest, hfirst⟩ := List.exists_cons_of_ne_nil hmerges.nonempty
  refine ⟨first, ?_, hmerges.asset first (by rw [hfirst]; rfl)⟩
  rw [← List.head?_filter]
  exact (congrArg List.head? hfirst).trans rfl

/-- The latest date of an aggregate is the greatest of the dates of its holdings. -/
structure Dated (aggregate : Aggregate) : Prop where
  bound : ∀ h ∈ aggregate.holdings, h.date ≤ aggregate.latestDate
  attained : ∃ h ∈ aggregate.holdings, h.date = aggregate.latestDate

theorem Dated.addHolding {aggregate next : Aggregate} (hdated : aggregate.Dated) {holding : Holding}
    (h : aggregate.addHolding holding = .ok next) : next.Dated := by
  simp only [Aggregate.addHolding, Outcome.andThen_ok_iff, Outcome.pure_ok_iff] at h
  obtain ⟨total, -, rfl⟩ := h
  obtain ⟨latest, hlatest, hdate⟩ := hdated.attained
  by_cases hlater : aggregate.latestDate < holding.date
  · refine ⟨fun other hother => ?_, holding, by simp, by simp only [if_pos hlater]⟩
    simp only [if_pos hlater]
    rcases List.mem_append.1 hother with hold | hnew
    · exact Nat.le_trans (hdated.bound other hold) (Nat.le_of_lt hlater)
    · obtain rfl := List.mem_singleton.1 hnew
      exact Nat.le_refl _
  · refine ⟨fun other hother => ?_, latest, List.mem_append_left _ hlatest, by simpa only [if_neg hlater]⟩
    simp only [if_neg hlater]
    rcases List.mem_append.1 hother with hold | hnew
    · exact hdated.bound other hold
    · obtain rfl := List.mem_singleton.1 hnew
      exact Nat.le_of_not_lt hlater

theorem Dated.join {portion : Portion} {entry : Option Aggregate} {next : Aggregate}
    (hdated : ∀ aggregate, entry = some aggregate → aggregate.Dated) (h : portion.join entry = .ok next) :
    next.Dated := by
  cases entry with
  | none =>
    obtain rfl := Except.ok.inj h
    refine ⟨fun other hother => ?_, portion.holding, List.mem_singleton_self _, rfl⟩
    obtain rfl := List.mem_singleton.1 hother
    exact Nat.le_refl _
  | some aggregate => exact (hdated aggregate rfl).addHolding h

theorem gather_dated (h : gather portions [] = .ok m) : ∀ entry ∈ m, entry.2.Dated := by
  refine Outcome.foldlM_keeps (P := fun m : Keyed AssetId Aggregate => ∀ entry ∈ m, entry.2.Dated) h
    (by simp) fun m portion _ next hm hnext => ?_
  obtain ⟨value, hvalue, rfl⟩ := Keyed.alterM_ok_iff.1 hnext
  intro entry hentry
  rcases Keyed.mem_of_mem_put hentry with rfl | hold
  · exact Dated.join (fun aggregate hget => hm _ (Keyed.mem_of_get? hget)) hvalue
  · exact hm entry hold

/-- Aggregates of the same holdings in any order have one latest date. -/
theorem Dated.latestDate_eq {aggregate other : Aggregate} (h : aggregate.Dated) (h' : other.Dated)
    (hperm : other.holdings.Perm aggregate.holdings) : other.latestDate = aggregate.latestDate := by
  obtain ⟨latest, hlatest, hdate⟩ := h.attained
  obtain ⟨latest', hlatest', hdate'⟩ := h'.attained
  have hle : latest.date.day ≤ other.latestDate.day := h'.bound latest (hperm.mem_iff.2 hlatest)
  have hge : latest'.date.day ≤ aggregate.latestDate.day := h.bound latest' (hperm.mem_iff.1 hlatest')
  refine Date.ext_day ?_
  rw [hdate] at hle
  rw [hdate'] at hge
  omega

end Aggregate

end NetWorth
