import NetWorth.Ledger
import NetWorth.Market
import NetWorth.Proofs.Keyed

/-! # What recording leads to

Ledgers and market stores start out empty and change only by what is put into them. Whatever was put
in, and in whichever order, snapshots have times with a known offset, and accounts, connections and
observations stand under their own keys. -/
namespace NetWorth

namespace Keyed

variable {κ α : Type} [DecidableEq κ]

/-- Every value stands under its own key, and no other does. -/
structure SelfKeyed (key : α → κ) (m : Keyed κ α) : Prop where
  nodup : (keys m).Nodup
  own : ∀ e ∈ m, e.1 = key e.2

theorem SelfKeyed.put {key : α → κ} {m : Keyed κ α} (h : m.SelfKeyed key) (value : α) :
    (put (key value) value m).SelfKeyed key := by
  refine ⟨nodup_keys_put _ _ h.nodup, fun e he => ?_⟩
  rcases mem_of_mem_put he with rfl | hold
  · rfl
  · exact h.own e hold

omit [DecidableEq κ] in
theorem SelfKeyed.nodup_values {key : α → κ} {m : Keyed κ α} (h : m.SelfKeyed key) :
    ((values m).map key).Nodup := by
  have hkeys : (values m).map key = keys m := by
    rw [values, keys, List.map_map]
    exact List.map_congr_left fun e he => (h.own e he).symm
  rw [hkeys]
  exact h.nodup

end Keyed

namespace Ledger

/-- The ledgers that recording leads to. -/
inductive Recorded : Ledger → Prop
  | empty : Recorded .empty
  | connection {ledger : Ledger} (connection : Connection) (h : Recorded ledger) :
    Recorded (ledger.putConnection connection)
  | account {ledger : Ledger} (account : Account) (h : Recorded ledger) :
    Recorded (ledger.putAccount account)
  | overrides {ledger : Ledger} (accountId : String) (overrides : Overrides) (h : Recorded ledger) :
    Recorded (ledger.putOverrides accountId overrides)
  | cleared {ledger : Ledger} (accountId : String) (h : Recorded ledger) :
    Recorded (ledger.clearOverrides accountId)
  | snapshot {ledger : Ledger} (accountId : String) (timestamp : Timestamp) (balances : List Balance)
    (h : Recorded ledger) : Recorded (ledger.addSnapshot accountId (.at timestamp balances))

/-- All snapshots have times with a known offset. -/
def Aware (ledger : Ledger) : Prop :=
  ∀ id, ∀ s ∈ ledger.snapshotsOf id, s.timestamp.isAware = true

theorem Aware.addSnapshot {ledger : Ledger} (h : ledger.Aware) (accountId : String)
    (timestamp : Timestamp) (balances : List Balance) :
    (ledger.addSnapshot accountId (.at timestamp balances)).Aware := by
  intro id s hs
  rw [snapshotsOf_addSnapshot] at hs
  split at hs
  · rcases List.mem_append.1 hs with hold | hnew
    · exact h _ s hold
    · obtain rfl := List.mem_singleton.1 hnew
      rfl
  · exact h id s hs

theorem Recorded.aware {ledger : Ledger} (h : ledger.Recorded) : ledger.Aware := by
  induction h with
  | empty => simp [Aware, snapshotsOf, Ledger.empty]
  | connection _ _ ih | account _ _ ih | overrides _ _ _ ih | cleared _ _ ih => exact ih
  | snapshot accountId timestamp balances _ ih => exact ih.addSnapshot accountId timestamp balances

theorem Recorded.selfKeyed {ledger : Ledger} (h : ledger.Recorded) :
    ledger.accounts.SelfKeyed Account.id ∧ ledger.connections.SelfKeyed Connection.id := by
  have hempty : ∀ {α : Type} (key : α → String), Keyed.SelfKeyed key [] :=
    fun key => ⟨by simp [Keyed.keys], by simp⟩
  induction h with
  | empty => exact ⟨hempty _, hempty _⟩
  | connection connection _ ih => exact ⟨ih.1, ih.2.put connection⟩
  | account account _ ih => exact ⟨ih.1.put account, ih.2⟩
  | overrides _ _ _ ih | cleared _ _ ih | snapshot _ _ _ _ ih => exact ih

end Ledger

namespace MarketStore

inductive Recorded : MarketStore → Prop
  | empty : Recorded .empty
  | price {store next : MarketStore} {price : PriceObservation} (h : Recorded store)
    (hput : store.putPrice price = .ok next) : Recorded next
  | rate {store next : MarketStore} {rate : RateObservation} (h : Recorded store)
    (hput : store.putRate rate = .ok next) : Recorded next

/-- Every observation stands under its own key. -/
structure WellKeyed (store : MarketStore) : Prop where
  prices : ∀ e ∈ store.prices, e.1.1 = e.2.assetId ∧ e.1.2.1 = e.2.date
  rates : ∀ e ∈ store.rates, e.1.1 = e.2.base ∧ e.1.2.1 = e.2.quote ∧ e.1.2.2.1 = e.2.date

theorem WellKeyed.putPrice {store next : MarketStore} {price : PriceObservation} (h : store.WellKeyed)
    (hput : store.putPrice price = .ok next) : next.WellKeyed := by
  obtain ⟨kind, -, hnext⟩ := Outcome.andThen_ok_iff.1 hput
  obtain rfl := Outcome.pure_ok_iff.1 hnext
  refine ⟨fun e he => ?_, h.rates⟩
  rcases Keyed.mem_of_mem_put he with rfl | hold
  · exact ⟨rfl, rfl⟩
  · exact h.prices e hold

theorem WellKeyed.putRate {store next : MarketStore} {rate : RateObservation} (h : store.WellKeyed)
    (hput : store.putRate rate = .ok next) : next.WellKeyed := by
  unfold MarketStore.putRate at hput
  generalize normalRate rate = kept at hput
  obtain ⟨kind, -, hnext⟩ := Outcome.andThen_ok_iff.1 hput
  obtain rfl := Outcome.pure_ok_iff.1 hnext
  refine ⟨h.prices, fun e he => ?_⟩
  rcases Keyed.mem_of_mem_put he with rfl | hold
  · exact ⟨rfl, rfl, rfl⟩
  · exact h.rates e hold

theorem Recorded.wellKeyed {store : MarketStore} (h : store.Recorded) : store.WellKeyed := by
  induction h with
  | empty => exact ⟨by simp [MarketStore.empty], by simp [MarketStore.empty]⟩
  | price _ hput ih => exact ih.putPrice hput
  | rate _ hput ih => exact ih.putRate hput

variable {store : MarketStore} {date : Date}

/-- A price that is looked up for a date is among the prices of its asset, and is for that date. -/
theorem Recorded.mem_pricesOf (h : store.Recorded) {assetId : AssetId} {kind : PriceKind}
    {price : PriceObservation} (hprice : store.price? assetId date kind = some price) :
    price ∈ store.pricesOf assetId ∧ price.date = date := by
  have hentry := Keyed.mem_of_get? hprice
  refine ⟨List.mem_map.2 ⟨_, List.mem_filter.2 ⟨hentry, by simp⟩, rfl⟩, ?_⟩
  exact (h.wellKeyed.prices _ hentry).2.symm

theorem Recorded.mem_ratesOf (h : store.Recorded) {base quote : String} {kind : RateKind}
    {rate : RateObservation} (hrate : store.rate? base quote date kind = some rate) :
    rate ∈ store.ratesOf base quote ∧ rate.date = date := by
  have hentry := Keyed.mem_of_get? hrate
  refine ⟨List.mem_map.2 ⟨_, List.mem_filter.2 ⟨hentry, by simp⟩, rfl⟩, ?_⟩
  exact (h.wellKeyed.rates _ hentry).2.2.symm

end MarketStore

end NetWorth
