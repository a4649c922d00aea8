import NetWorth.Proofs.Valuation.ExactSums
import NetWorth.Proofs.Valuation.Workings

/-! # Portfolios in one currency

Where every portion is in the reporting currency, the total is due to the amounts alone, in the order of
accounts, and the market has no say in it. -/
namespace NetWorth

open Decimal (HasPlaces precision)

namespace Valuation

/-- The total of amounts in the reporting currency: their sum at a unit value of one. -/
def totalOf : List Decimal → Except Failure Number
  | [] => .ok (.finite .zero)
  | first :: rest => do
    let sum ← ofSignal (rest.foldlM Decimal.add first)
    let value ← Amount.mul (.finite sum) (.finite ⟨false, 1, 0⟩)
    Amount.add (.finite .zero) value

theorem totalOf_exact {k : Nat} (hk : k ≤ precision) {amounts : List Decimal}
    (hplaces : ∀ a ∈ amounts, HasPlaces k a.toRat)
    (hsize : (amounts.map fun a => |a.toRat|).sum < 10 ^ (precision - k)) {total : Number}
    (h : totalOf amounts = .ok total) : total.Holds (amounts.map Decimal.toRat).sum := by
  cases amounts with
  | nil =>
    obtain rfl := Except.ok.inj h
    exact Number.holds_zero
  | cons first rest =>
    simp only [List.map_cons, List.sum_cons] at hsize ⊢
    have hrest : ∀ a ∈ rest, HasPlaces k a.toRat := fun a ha => hplaces a (by simp [ha])
    obtain ⟨sum, hsum, hvalue⟩ := Decimal.addAll_exact hk (hplaces first (by simp)) hrest hsize
    have hsumPlaces : HasPlaces k sum.toRat := by
      rw [hvalue]
      refine (hplaces first (by simp)).add (HasPlaces.sum fun x hx => ?_)
      obtain ⟨a, ha, rfl⟩ := List.mem_map.1 hx
      exact hrest a ha
    have hsumSize : |sum.toRat| < 10 ^ (precision - k) := by
      rw [hvalue]
      have htriangle := abs_add_le first.toRat (rest.map Decimal.toRat).sum
      have habs := abs_sum_le Decimal.toRat rest
      linarith
    simp only [totalOf, hsum, ofSignal, Outcome.andThen_ok_iff, Except.ok.injEq] at h
    obtain ⟨_, rfl, value, hproduct, hadd⟩ := h
    have hone : Decimal.toRat ⟨false, 1, 0⟩ = 1 := by norm_num [Decimal.toRat, Decimal.signed]
    have hunit : sum.toRat * Decimal.toRat ⟨false, 1, 0⟩ = sum.toRat := by rw [hone, mul_one]
    obtain ⟨r, hr, hcontext, hrvalue⟩ := @Decimal.mul_exact sum ⟨false, 1, 0⟩ k hk (by rwa [hunit])
      (by rwa [hunit])
    simp only [Amount.mul, Number.mul_finite, hr] at hproduct
    obtain rfl := Except.ok.inj hproduct
    have hcounts : Counts (some (.finite r)) sum.toRat := ⟨r, rfl, hcontext, hrvalue.trans hunit⟩
    have hzero : |(0 : ℚ)| = 0 := abs_zero
    have hholds := addValue_exact hk Number.holds_zero hcounts HasPlaces.zero hsumPlaces
      (by rwa [hzero, zero_add]) hadd
    rwa [zero_add, hvalue] at hholds

end Valuation

/-- The total of a valuation in one currency is the total of its amounts. -/
theorem Workings.totalOf_amounts {ledger : LedgerReads} {market : MarketReads} {query : ValuationQuery}
    {valuation : Valuation} (w : Workings ledger market query valuation) {code : String}
    (hcode : Currency.same code query.currency = true)
    (hassets : ∀ p ∈ w.contributions.flatMap (·.portions), p.asset = .currency code) :
    Valuation.totalOf ((w.contributions.flatMap (·.portions)).map Portion.amount) = .ok w.total := by
  have hgather := w.aggregates_eq
  have hrows := w.rows_eq
  have htotal := w.total_eq
  generalize w.contributions.flatMap (·.portions) = portions at hgather hassets
  generalize w.rows = rows at hrows htotal
  cases portions with
  | nil =>
    have hnone : AssetRow.byIdentity w.aggregates = [] := by
      rw [← Except.ok.inj hgather, AssetRow.byIdentity, List.mergeSort_nil]
    rw [hnone] at hrows
    obtain rfl := Outcome.pure_ok_iff.1 hrows
    exact htotal
  | cons first rest =>
    have hfirst : first.asset = .currency code := hassets first (by simp)
    have hids : ∀ p ∈ first :: rest, p.id = first.id := fun p hp => by
      rw [Portion.id, Portion.id, hassets p hp, hfirst]
    obtain ⟨hnodup, hkeys⟩ := Aggregate.gather_keys hgather
    have hsingle : ∀ id, id ∈ Keyed.keys w.aggregates ↔ id = first.id := by
      intro id
      rw [hkeys, List.mem_map]
      constructor
      · rintro ⟨p, hp, rfl⟩
        exact hids p hp
      · rintro rfl
        exact ⟨first, by simp, rfl⟩
    obtain ⟨aggregate, haggregates⟩ := Keyed.eq_singleton_of_keys hnodup hsingle
    have hget : Keyed.get? first.id w.aggregates = some aggregate := by simp [haggregates, Keyed.get?_cons]
    -- the only asset is the reporting currency, so its unit value is one
    obtain ⟨resolution, hresolution, hresolve⟩ := Valuation.get?_resolutions w.resolved_eq hget
    have hmerges := Aggregate.gather_merges hgather hget
    rw [List.filter_eq_self.2 (by simpa using hids)] at hmerges
    have hasset : aggregate.asset = .currency code := (hmerges.asset first rfl).trans hfirst
    rw [hasset, MarketReads.resolve_target hcode] at hresolve
    obtain rfl := Except.ok.inj hresolve
    -- so there is one row, and its value is the total
    have hone : AssetRow.byIdentity w.aggregates = [(first.id, aggregate)] := by
      rw [haggregates, AssetRow.byIdentity, List.mergeSort_singleton]
    rw [hone, Outcome.mapM_ok_iff] at hrows
    cases hrows with
    | cons hrow hnil =>
      cases hnil
      obtain ⟨found, hfound, hvalue, -⟩ := AssetRow.valued_ok_iff.1 hrow
      obtain rfl := Option.some.inj (hresolution.symm.trans hfound)
      obtain ⟨product, hproduct, hvalue⟩ := Outcome.map_ok_iff.1 hvalue
      obtain ⟨sum, hsum, hnil⟩ := Outcome.foldlM_cons_ok_iff.1 htotal
      rw [← hvalue] at hsum
      obtain rfl := Outcome.foldlM_nil_ok_iff.1 hnil
      have hmerged := Outcome.ofSignal_ok_iff.2 hmerges.total
      simp only [Valuation.totalOf, List.map_cons, Outcome.andThen_ok_iff]
      exact ⟨aggregate.total, hmerged, product, hproduct, hsum⟩

end NetWorth
