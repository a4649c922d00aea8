import Mathlib.Data.List.Sort
import NetWorth.Proofs.Decimal.EqualSums
import NetWorth.Proofs.Valuation.AccountRows

/-! # A zero among the portions

A valuation with one more portion, of amount zero and of an asset that has one form only, has the total
that it had without. The zero may be the first holding of its asset, stand between others or be the only
one: sums stay the same numbers, resolutions stay as they are, and a row that comes in adds nothing. -/
namespace NetWorth

open Decimal (Held Padded)

theorem Portion.padded_amounts {portions : List Portion} (h : ∀ p ∈ portions, p.amount.Held) :
    Padded (portions.map (·.amount)) (portions.map (·.amount)) := by
  apply Padded.refl
  intro d hd
  obtain ⟨p, hp, rfl⟩ := List.mem_map.1 hd
  exact h p hp

namespace Aggregate

variable {before after : List Portion} {z : Portion} {aggregate aggregate' : Aggregate}

/-- A zero among the portions of an asset leaves their sum the same number. -/
theorem Merges.total_inserted (h : Merges (before ++ after) aggregate)
    (h' : Merges (before ++ z :: after) aggregate') (hheld : ∀ p ∈ before ++ z :: after, p.amount.Held)
    (hzero : z.amount.toRat = 0) : aggregate.total.toRat = aggregate'.total.toRat := by
  have hz : z.amount.Held := hheld z (by simp)
  have htotal := h.total
  have htotal' := h'.total
  cases before with
  | nil =>
    -- the zero comes first, and what came first is added to it
    obtain ⟨first, rest, rfl⟩ := List.exists_cons_of_ne_nil h.nonempty
    have hfirst : first.amount.Held := hheld first (by simp)
    simp only [List.nil_append, List.tail_cons, List.head?_cons, Option.map_some, Option.getD_some,
      List.map_cons] at htotal htotal'
    obtain ⟨sum, hsum, hrest⟩ := Outcome.foldlM_cons_ok_iff.1 htotal'
    have hpadded := Portion.padded_amounts fun p (hp : p ∈ rest) => hheld p (by simp [hp])
    have hsame := Decimal.zero_add_toRat hfirst hzero hsum
    exact hpadded.sum_eq hfirst (Decimal.finish_held hsum) hsame.symm htotal hrest
  | cons first before =>
    have hfirst : first.amount.Held := hheld first (by simp)
    simp only [List.cons_append, List.tail_cons, List.head?_cons, Option.map_some, Option.getD_some,
      List.map_append, List.map_cons] at htotal htotal'
    have hbefore := Portion.padded_amounts fun p (hp : p ∈ before) => hheld p (by simp [hp])
    have hafter := Portion.padded_amounts fun p (hp : p ∈ after) => hheld p (by simp [hp])
    exact (hbefore.append (.zero hz hzero hafter)).sum_eq hfirst hfirst rfl htotal htotal'

end Aggregate

namespace Valuation

/-- A value that is not known, or a decimal with all its digits. -/
def HeldValue (value : Option Number) : Prop := ∀ n, value = some n → ∃ d, n = .finite d ∧ d.Held

def known (values : List (Option Number)) : List Decimal := values.filterMap fun v => v.bind Number.finite?

/-- Adding up values is adding up the decimals among them. -/
theorem addValues_known {values : List (Option Number)} (hheld : ∀ v ∈ values, HeldValue v)
    {start : Decimal} {total : Number} (h : values.foldlM AssetRow.addValue (.finite start) = .ok total) :
    ∃ sum, total = .finite sum ∧ (known values).foldlM Decimal.add start = .ok sum := by
  induction values generalizing start with
  | nil => exact ⟨start, (Outcome.foldlM_nil_ok_iff.1 h).symm, rfl⟩
  | cons value values ih =>
    obtain ⟨next, hnext, hrest⟩ := Outcome.foldlM_cons_ok_iff.1 h
    have hvalues := fun v hv => hheld v (List.mem_cons_of_mem value hv)
    cases value with
    | none =>
      obtain rfl := Except.ok.inj hnext
      exact ih hvalues hrest
    | some n =>
      obtain ⟨d, rfl, -⟩ := hheld _ List.mem_cons_self n rfl
      obtain ⟨sum, hsum, rfl⟩ := Outcome.map_ok_iff.1 (Outcome.ofSignal_ok_iff.1 hnext)
      obtain ⟨total, rfl, htotal⟩ := ih hvalues hrest
      exact ⟨total, rfl, Outcome.foldlM_cons_ok_iff.2 ⟨sum, hsum, htotal⟩⟩

variable {resolution : Resolution} {amount amount' : Decimal} {value value' : Option Number}

/-- The value of an amount is a product with a finite unit value. -/
theorem valueOf_cases (hfinite : ∀ u, resolution.unitValue = some u → ∃ d, u = .finite d)
    (h : resolution.valueOf amount = .ok value) :
    resolution.unitValue = none ∧ value = none ∨ ∃ unit product, resolution.unitValue = some (.finite unit) ∧
      amount.mul unit = .ok product ∧ value = some (.finite product) := by
  unfold Resolution.valueOf at h
  cases hunit : resolution.unitValue with
  | none =>
    rw [hunit] at h
    exact .inl ⟨rfl, (Except.ok.inj h).symm⟩
  | some u =>
    obtain ⟨unit, rfl⟩ := hfinite u hunit
    simp only [hunit] at h
    obtain ⟨n, hn, rfl⟩ := Outcome.map_ok_iff.1 h
    obtain ⟨product, hproduct, rfl⟩ := Outcome.map_ok_iff.1 (Outcome.ofSignal_ok_iff.1 hn)
    exact .inr ⟨unit, product, rfl, hproduct, rfl⟩

theorem heldValue_of_valueOf (hfinite : ∀ u, resolution.unitValue = some u → ∃ d, u = .finite d)
    (h : resolution.valueOf amount = .ok value) : HeldValue value := by
  intro n hn
  rcases valueOf_cases hfinite h with ⟨-, rfl⟩ | ⟨unit, product, -, hproduct, rfl⟩
  · contradiction
  · obtain rfl := Option.some.inj hn
    exact ⟨product, rfl, Decimal.finish_held hproduct⟩

theorem valueOf_congr (hfinite : ∀ u, resolution.unitValue = some u → ∃ d, u = .finite d)
    (hamounts : amount.toRat = amount'.toRat) (h : resolution.valueOf amount = .ok value)
    (h' : resolution.valueOf amount' = .ok value') : SameValue value value' := by
  rcases valueOf_cases hfinite h with ⟨hnone, rfl⟩ | ⟨unit, product, hunit, hproduct, rfl⟩
  · rcases valueOf_cases hfinite h' with ⟨-, rfl⟩ | ⟨unit', product', hunit', -, -⟩
    · exact .none
    · rw [hnone] at hunit'
      contradiction
  · rcases valueOf_cases hfinite h' with ⟨hnone, -⟩ | ⟨unit', product', hunit', hproduct', rfl⟩
    · rw [hnone] at hunit
      contradiction
    · obtain rfl := Number.finite.inj (Option.some.inj (hunit.symm.trans hunit'))
      have hsame := Decimal.mul_congr hamounts rfl hproduct hproduct'
      exact .some ⟨_, ⟨product, rfl, Decimal.finish_inContext hproduct, rfl⟩,
        ⟨product', rfl, Decimal.finish_inContext hproduct', hsame.symm⟩⟩

theorem valueOf_zero (hfinite : ∀ u, resolution.unitValue = some u → ∃ d, u = .finite d)
    (hamount : amount.toRat = 0) (h : resolution.valueOf amount = .ok value) :
    ∀ n, value = some n → n.Holds 0 := by
  intro n hn
  rcases valueOf_cases hfinite h with ⟨-, rfl⟩ | ⟨unit, product, -, hproduct, rfl⟩
  · contradiction
  · obtain rfl := Option.some.inj hn
    exact ⟨product, rfl, Decimal.finish_inContext hproduct, Decimal.mul_zero_toRat hamount hproduct⟩

/-- Values under identities to which some with zeros were added are padded with zeros. -/
theorem padded_of_sublist {R R' : AssetId → Option Number → Prop} {ids ids' : List AssetId}
    {values values' : List (Option Number)} (hids : ids.Sublist ids') (hnodup : ids'.Nodup)
    (hvalues : List.Forall₂ R ids values) (hvalues' : List.Forall₂ R' ids' values')
    (hheld : ∀ id v, R id v → HeldValue v) (hheld' : ∀ id v, R' id v → HeldValue v)
    (hsame : ∀ id v v', R id v → R' id v' → SameValue v v')
    (hnew : ∀ id ∈ ids', id ∉ ids → ∀ v', R' id v' → ∀ n, v' = some n → n.Holds 0) :
    Padded (known values) (known values') := by
  induction hids generalizing values values' with
  | slnil =>
    cases hvalues
    cases hvalues'
    exact .nil
  | @cons ids ids' id hids ih =>
    obtain ⟨hfresh, hnodup⟩ := List.nodup_cons.1 hnodup
    cases hvalues' with
    | @cons _ v' _ values' hv' hrest' =>
      have hrest := ih hnodup hvalues hrest' fun other hother => hnew other (List.mem_cons_of_mem id hother)
      have hzero := hnew id List.mem_cons_self (fun hmem => hfresh (hids.subset hmem)) v' hv'
      cases v' with
      | none => exact hrest
      | some n =>
        obtain ⟨d, rfl, hd⟩ := hheld' id _ hv' n rfl
        obtain ⟨e, he, -, hvalue⟩ := hzero _ rfl
        obtain rfl := Number.finite.inj he
        exact .zero hd hvalue hrest
  | @cons_cons ids ids' id hids ih =>
    obtain ⟨hfresh, hnodup⟩ := List.nodup_cons.1 hnodup
    cases hvalues with
    | @cons _ v _ values hv hrest =>
      cases hvalues' with
      | @cons _ v' _ values' hv' hrest' =>
        have hpadded := ih hnodup hrest hrest' fun other hother hmem =>
          hnew other (List.mem_cons_of_mem id hother) fun hcons => by
            rcases List.mem_cons.1 hcons with rfl | hin
            · exact hfresh hother
            · exact hmem hin
        have hheldv := hheld id v hv
        have hheldv' := hheld' id v' hv'
        cases hsame id v v' hv hv' with
        | none => exact hpadded
        | some hboth =>
          obtain ⟨x, ⟨d, rfl, -, hd⟩, ⟨d', rfl, -, hd'⟩⟩ := hboth
          obtain ⟨e, he, hheldd⟩ := hheldv _ rfl
          obtain ⟨e', he', hheldd'⟩ := hheldv' _ rfl
          obtain rfl := Number.finite.inj he
          obtain rfl := Number.finite.inj he'
          exact .cons hheldd hheldd' (hd.trans hd'.symm) hpadded

end Valuation

/-- Portions among which a zero was put, of an asset that is spelled in one way. -/
structure WithZero (z : Portion) (portions portions' : List Portion) : Prop where
  split : ∃ before after, portions = before ++ after ∧ portions' = before ++ z :: after
  zero : z.amount.toRat = 0
  held : ∀ p ∈ portions', p.amount.Held
  form : ∀ p ∈ portions', p.id = z.id → p.asset = z.asset

namespace WithZero

variable {z : Portion} {portions portions' : List Portion}

theorem mem_iff (h : WithZero z portions portions') {p : Portion} :
    p ∈ portions' ↔ p = z ∨ p ∈ portions := by
  obtain ⟨before, after, rfl, rfl⟩ := h.split
  simp only [List.mem_append, List.mem_cons]
  tauto

theorem filter_eq (h : WithZero z portions portions') {id : AssetId} (hid : z.id ≠ id) :
    portions'.filter (·.id = id) = portions.filter (·.id = id) := by
  obtain ⟨before, after, rfl, rfl⟩ := h.split
  rw [List.filter_append, List.filter_append, List.filter_cons_of_neg (by simpa using hid)]

theorem find?_asset (h : WithZero z portions portions') {id : AssetId} {first first' : Portion}
    (hfirst : portions.find? (fun p => p.id = id) = some first)
    (hfirst' : portions'.find? (fun p => p.id = id) = some first') : first'.asset = first.asset := by
  by_cases hid : z.id = id
  · have hform : ∀ p ∈ portions', p.id = id → p.asset = z.asset := fun p hp hpid =>
      h.form p hp (hpid.trans hid.symm)
    have hmem := h.mem_iff.2 (.inr (List.mem_of_find?_eq_some hfirst))
    have hmem' := List.mem_of_find?_eq_some hfirst'
    rw [hform _ hmem (by simpa using List.find?_some hfirst),
      hform _ hmem' (by simpa using List.find?_some hfirst')]
  · rw [← List.head?_filter] at hfirst hfirst'
    have hheads := hfirst'.symm.trans ((congrArg List.head? (h.filter_eq hid)).trans hfirst)
    rw [Option.some.inj hheads]

end WithZero

namespace Workings

variable {ledger ledger' : LedgerReads} {market : MarketReads} {query : ValuationQuery}
  {valuation valuation' : Valuation} {w : Workings ledger market query valuation}
  {w' : Workings ledger' market query valuation'} {z : Portion}

def Values (w : Workings ledger market query valuation) (id : AssetId) (value : Option Number) : Prop :=
  ∃ aggregate resolution, Keyed.get? id w.aggregates = some aggregate ∧
    Keyed.get? id w.resolved = some resolution ∧ resolution.valueOf aggregate.total = .ok value

theorem values_of_rows (w : Workings ledger market query valuation) :
    List.Forall₂ w.Values (Keyed.keys (AssetRow.byIdentity w.aggregates)) (w.rows.map Prod.snd) := by
  rw [Keyed.keys, List.forall₂_map_left_iff, List.forall₂_map_right_iff]
  refine Outcome.forall₂_of_mapM w.rows_eq fun entry hentry row hrow => ?_
  obtain ⟨resolution, hresolution, hvalue, -⟩ := AssetRow.valued_ok_iff.1 hrow
  exact ⟨entry.2, resolution, get?_of_byIdentity hentry, hresolution, hvalue⟩

theorem finite_of_resolved (w : Workings ledger market query valuation) {id : AssetId}
    {resolution : Resolution} (hget : Keyed.get? id w.resolved = some resolution) :
    ∀ u, resolution.unitValue = some u → ∃ d, u = .finite d := by
  have hkey := Keyed.get?_isSome_iff.2 (mem_keys_of_resolved hget)
  obtain ⟨aggregate, haggregate⟩ := Option.isSome_iff_exists.1 hkey
  obtain ⟨found, hfound, hresolves, -⟩ := w.resolution_of_aggregate haggregate
  obtain rfl := Option.some.inj (hget.symm.trans hfound)
  exact fun u hunit => hresolves.finite hunit

theorem Values.held {w : Workings ledger market query valuation} {id : AssetId} {value : Option Number}
    (h : w.Values id value) : Valuation.HeldValue value := by
  obtain ⟨aggregate, resolution, -, hresolution, hvalue⟩ := h
  exact Valuation.heldValue_of_valueOf (w.finite_of_resolved hresolution) hvalue

theorem nodup_byIdentity (w : Workings ledger market query valuation) :
    (Keyed.keys (AssetRow.byIdentity w.aggregates)).Nodup :=
  (AssetRow.keys_byIdentity_perm w.aggregates).nodup_iff.2 (Aggregate.gather_keys w.aggregates_eq).1

theorem held_rows (w : Workings ledger market query valuation) :
    ∀ value ∈ w.rows.map Prod.snd, Valuation.HeldValue value := by
  intro value hvalue
  obtain ⟨row, hrow, rfl⟩ := List.mem_map.1 hvalue
  obtain ⟨entry, -, hvalued⟩ := (Outcome.mem_of_mapM w.rows_eq).1 hrow
  obtain ⟨resolution, hresolution, hvalue, -⟩ := AssetRow.valued_ok_iff.1 hvalued
  exact Valuation.heldValue_of_valueOf (w.finite_of_resolved hresolution) hvalue

section WithZero

variable (h : WithZero z w.portions w'.portions)

include h

theorem mem_keys_withZero {id : AssetId} :
    id ∈ Keyed.keys w'.aggregates ↔ id = z.id ∨ id ∈ Keyed.keys w.aggregates := by
  have hportions : ∀ p, p ∈ w'.contributions.flatMap (·.portions) ↔
      p = z ∨ p ∈ w.contributions.flatMap (·.portions) := fun p => h.mem_iff
  rw [(Aggregate.gather_keys w'.aggregates_eq).2, (Aggregate.gather_keys w.aggregates_eq).2]
  simp only [List.mem_map, hportions]
  constructor
  · rintro ⟨p, rfl | hp, rfl⟩
    · exact .inl rfl
    · exact .inr ⟨p, hp, rfl⟩
  · rintro (rfl | ⟨p, hp, rfl⟩)
    · exact ⟨z, .inl rfl, rfl⟩
    · exact ⟨p, .inr hp, rfl⟩

theorem resolved_withZero {id : AssetId} (hid : id ∈ Keyed.keys w.aggregates) :
    Keyed.get? id w'.resolved = Keyed.get? id w.resolved := by
  obtain ⟨aggregate, hget⟩ := Option.isSome_iff_exists.1 (Keyed.get?_isSome_iff.2 hid)
  obtain ⟨aggregate', hget'⟩ := Option.isSome_iff_exists.1
    (Keyed.get?_isSome_iff.2 ((mem_keys_withZero h).2 (.inr hid)))
  obtain ⟨first, hfirst, hasset⟩ := Aggregate.first_of_gather w.aggregates_eq hget
  obtain ⟨first', hfirst', hasset'⟩ := Aggregate.first_of_gather w'.aggregates_eq hget'
  obtain ⟨resolution, hfound, hresolve⟩ := Valuation.get?_resolutions w.resolved_eq hget
  obtain ⟨resolution', hfound', hresolve'⟩ := Valuation.get?_resolutions w'.resolved_eq hget'
  rw [hasset', h.find?_asset hfirst hfirst', ← hasset] at hresolve'
  rw [hfound, hfound', Except.ok.inj (hresolve.symm.trans hresolve')]

/-- The sum of an asset is the number that it was. -/
theorem total_withZero {id : AssetId} {aggregate aggregate' : Aggregate}
    (hget : Keyed.get? id w.aggregates = some aggregate)
    (hget' : Keyed.get? id w'.aggregates = some aggregate') :
    aggregate.total.toRat = aggregate'.total.toRat := by
  have hmerges : Aggregate.Merges (w.portions.filter (·.id = id)) aggregate :=
    Aggregate.gather_merges w.aggregates_eq hget
  have hmerges' : Aggregate.Merges (w'.portions.filter (·.id = id)) aggregate' :=
    Aggregate.gather_merges w'.aggregates_eq hget'
  by_cases hid : z.id = id
  · have hheld : ∀ p ∈ w'.portions.filter (·.id = id), p.amount.Held :=
      fun p hp => h.held p (List.mem_of_mem_filter hp)
    obtain ⟨before, after, hsplit, hsplit'⟩ := h.split
    rw [hsplit, List.filter_append] at hmerges
    rw [hsplit', List.filter_append, List.filter_cons_of_pos (by simpa using hid)] at hmerges' hheld
    exact hmerges.total_inserted hmerges' hheld h.zero
  · rw [h.filter_eq hid] at hmerges'
    exact congrArg Decimal.toRat (Except.ok.inj (hmerges.total.symm.trans hmerges'.total))

/-- An identity that comes in stands for the zero alone. -/
theorem total_of_fresh {id : AssetId} (hid : id ∉ Keyed.keys w.aggregates) {aggregate' : Aggregate}
    (hget' : Keyed.get? id w'.aggregates = some aggregate') : aggregate'.total.toRat = 0 := by
  have hkey : id ∈ Keyed.keys w'.aggregates := by
    rw [← Keyed.get?_isSome_iff, hget']
    rfl
  obtain rfl := ((mem_keys_withZero h).1 hkey).resolve_right hid
  have hnone : ∀ p ∈ w.portions, p.id ≠ z.id := by
    intro p hp heq
    rw [(Aggregate.gather_keys w.aggregates_eq).2, ← heq] at hid
    exact hid (List.mem_map_of_mem hp)
  have halone : w'.portions.filter (·.id = z.id) = [z] := by
    obtain ⟨before, after, hsplit, hsplit'⟩ := h.split
    rw [hsplit] at hnone
    rw [hsplit', List.filter_append, List.filter_cons_of_pos (by simp), List.filter_eq_nil_iff.2,
      List.filter_eq_nil_iff.2]
    · rfl
    · exact fun p hp => by simpa using hnone p (List.mem_append_right _ hp)
    · exact fun p hp => by simpa using hnone p (List.mem_append_left _ hp)
  have hmerges' : Aggregate.Merges (w'.portions.filter (·.id = z.id)) aggregate' :=
    Aggregate.gather_merges w'.aggregates_eq hget'
  rw [halone] at hmerges'
  have htotal : z.amount = aggregate'.total := Outcome.foldlM_nil_ok_iff.1 hmerges'.total
  rw [← htotal, h.zero]

theorem byIdentity_sublist_withZero : (Keyed.keys (AssetRow.byIdentity w.aggregates)).Sublist
    (Keyed.keys (AssetRow.byIdentity w'.aggregates)) := by
  have : Std.Antisymm fun a b : AssetId => AssetId.le a b = true := ⟨fun _ _ => AssetId.le_antisymm⟩
  refine List.sublist_of_subperm_of_pairwise ?_ (AssetRow.byIdentity_sorted _)
    (AssetRow.byIdentity_sorted _)
  refine w.nodup_byIdentity.subperm fun id hid => ?_
  rw [(AssetRow.keys_byIdentity_perm _).mem_iff] at hid ⊢
  exact (mem_keys_withZero h).2 (.inr hid)

/-- The values of the rows are what they were, with a zero put in if a row comes in. -/
theorem values_withZero :
    Padded (Valuation.known (w.rows.map Prod.snd)) (Valuation.known (w'.rows.map Prod.snd)) := by
  refine Valuation.padded_of_sublist (byIdentity_sublist_withZero h) w'.nodup_byIdentity w.values_of_rows
    w'.values_of_rows (fun _ _ => Values.held) (fun _ _ => Values.held) ?_ ?_
  · rintro id value value' ⟨aggregate, resolution, hget, hresolution, hvalue⟩
      ⟨aggregate', resolution', hget', hresolution', hvalue'⟩
    have hkey : id ∈ Keyed.keys w.aggregates := by
      rw [← Keyed.get?_isSome_iff, hget]
      rfl
    rw [resolved_withZero h hkey] at hresolution'
    obtain rfl := Option.some.inj (hresolution.symm.trans hresolution')
    exact Valuation.valueOf_congr (w.finite_of_resolved hresolution) (total_withZero h hget hget') hvalue
      hvalue'
  · rintro id hid hfresh value' ⟨aggregate', resolution', hget', hresolution', hvalue'⟩
    rw [(AssetRow.keys_byIdentity_perm _).mem_iff] at hfresh
    exact Valuation.valueOf_zero (w'.finite_of_resolved hresolution') (total_of_fresh h hfresh hget') hvalue'

theorem totalValue_withZero : valuation'.totalValue = valuation.totalValue := by
  obtain ⟨sum, hsum, hknown⟩ := Valuation.addValues_known w.held_rows w.total_eq
  obtain ⟨sum', hsum', hknown'⟩ := Valuation.addValues_known w'.held_rows w'.total_eq
  have hsame := (values_withZero h).sum_eq Decimal.zero_held Decimal.zero_held rfl hknown hknown'
  have hformat := Amount.format_eq_of_toRat_eq hsame query.places
  rw [← hsum, ← hsum', w.totalValue_eq, w'.totalValue_eq] at hformat
  exact (Except.ok.inj hformat).symm

theorem ofEffective_withZero {effective : EffectiveBalance} (he : effective ∈ w.balances)
    (accounts : Keyed String Account) (connections : Keyed String Connection) (places : Option Int) :
    AccountRow.ofEffective w'.resolved accounts connections places effective =
      AccountRow.ofEffective w.resolved accounts connections places effective := by
  obtain ⟨contribution, hcontribution⟩ := Outcome.exists_of_mapM w.contributions_eq he
  have hmem := (Outcome.mem_of_mapM w.contributions_eq).2 ⟨effective, he, hcontribution⟩
  obtain ⟨date, portions, -, hportions, rfl⟩ := Contribution.ofEffective_ok_iff.1 hcontribution
  have hadd : ∀ b ∈ effective.balances, ∀ sum, AccountRow.addBalance w'.resolved sum b =
      AccountRow.addBalance w.resolved sum b := by
    intro b hb sum
    obtain ⟨p, hp⟩ := Outcome.exists_of_mapM hportions hb
    have hkey : p.id ∈ Keyed.keys w.aggregates := by
      rw [(Aggregate.gather_keys w.aggregates_eq).2]
      exact List.mem_map_of_mem (mem_portions hmem ((Outcome.mem_of_mapM hportions).2 ⟨b, hb, hp⟩))
    rw [AccountRow.addBalance, AccountRow.addBalance, Portion.id_of_ofBalance hp]
    simp only [bind, Except.bind, AssetRow.resolutionOf, resolved_withZero h hkey]
  have hfold : ∀ sum, effective.balances.foldlM (AccountRow.addBalance w'.resolved) sum =
      effective.balances.foldlM (AccountRow.addBalance w.resolved) sum := by
    have hself : List.Forall₂ (fun b b' => b' = b ∧ b ∈ effective.balances) effective.balances
        effective.balances := List.forall₂_same.2 fun b hb => ⟨rfl, hb⟩
    refine Outcome.foldlM_congr₂ hself fun sum b b' hbb => ?_
    rw [hbb.1, hadd b hbb.2]
  simp only [AccountRow.ofEffective, AccountRow.ofBalances, hfold]

end WithZero

end Workings

end NetWorth
