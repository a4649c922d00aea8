import Mathlib.Data.Prod.Basic
import NetWorth.Proofs.Asset.Normalization
import NetWorth.Proofs.Timeline.Contents

/-! # Runs of a collector

A collector gets calls until it hands out its points. A call is taken in as a whole or refused as a whole,
so a run leads to what the accepted calls alone lead to. The points that are handed out have the triggers
of their instant in order of arrival but for the prices, which are put in order among themselves. After
that the collector refuses everything. -/
namespace NetWorth

namespace Trigger

/-- The triggers that arrived, each in its place but for the prices, which are in ascending order among
themselves. -/
structure Arranged (arrived arranged : List Trigger) : Prop where
  perm : arranged.Perm arrived
  placed : ∀ (i : Nat) (trigger : Trigger), trigger.pricedAsset? = none →
    (arranged[i]? = some trigger ↔ arrived[i]? = some trigger)
  ascending : (arranged.filterMap pricedAsset?).Pairwise fun a b => AssetId.le a b = true

variable {ids : List AssetId} {triggers : List Trigger}

theorem getElem?_refill {trigger : Trigger} (h : trigger.pricedAsset? = none) (ids : List AssetId)
    (triggers : List Trigger) (i : Nat) :
    (refill ids triggers)[i]? = some trigger ↔ triggers[i]? = some trigger := by
  -- by induction on the triggers: a price in front is never the trigger, whichever price it is
  induction triggers generalizing ids i with
  | nil => cases ids <;> rfl
  | cons first rest ih =>
    have hprice : ∀ id, .price id ≠ trigger := by
      rintro id rfl
      contradiction
    cases hfirst : first.pricedAsset? with
    | none =>
      rw [refill_cons hfirst]
      cases i with
      | zero => rfl
      | succ i => exact ih ids i
    | some priced =>
      obtain ⟨id, rfl⟩ : ∃ id, first = .price id := by
        cases first with
        | price id => exact ⟨id, rfl⟩
        | balance | rate => contradiction
      cases ids <;> cases i <;> simp [refill, hprice, ih]

/-- As many identities as there are prices take all their places. -/
theorem filterMap_refill (h : ids.length = (triggers.filterMap pricedAsset?).length) :
    (refill ids triggers).filterMap pricedAsset? = ids := by
  induction triggers generalizing ids with
  | nil => simpa [refill, eq_comm] using h
  | cons first rest ih =>
    cases first with
    | balance | rate => rw [refill_cons rfl, List.filterMap_cons_none rfl, ih h]
    | price id =>
      cases ids with
      | nil => simp [pricedAsset?] at h
      | cons next ids => simpa [refill, pricedAsset?] using ih (by simpa [pricedAsset?] using h)

theorem filter_refill (ids : List AssetId) (triggers : List Trigger) :
    (refill ids triggers).filter (·.pricedAsset?.isNone) = triggers.filter (·.pricedAsset?.isNone) := by
  induction triggers generalizing ids with
  | nil => cases ids <;> rfl
  | cons first rest ih =>
    cases first with
    | balance | rate => rw [refill_cons rfl, List.filter_cons_of_pos rfl, List.filter_cons_of_pos rfl, ih]
    | price id =>
      rw [List.filter_cons_of_neg (by simp [pricedAsset?])]
      cases ids with
      | nil => exact (List.filter_cons_of_neg (by simp [pricedAsset?])).trans (ih [])
      | cons next ids => exact (List.filter_cons_of_neg (by simp [pricedAsset?])).trans (ih ids)

theorem perm_prices (triggers : List Trigger) :
    triggers.Perm ((triggers.filterMap pricedAsset?).map .price ++
      triggers.filter (·.pricedAsset?.isNone)) := by
  induction triggers with
  | nil => exact .nil
  | cons first rest ih =>
    cases first with
    | price id => exact ih.cons _
    | balance | rate => exact (ih.cons _).trans List.perm_middle.symm

theorem arranged_arrange (triggers : List Trigger) : Arranged triggers (arrange triggers) := by
  have hsort : (AssetId.sort (triggers.filterMap pricedAsset?)).Perm (triggers.filterMap pricedAsset?) :=
    List.mergeSort_perm _ _
  have hprices : (arrange triggers).filterMap pricedAsset? =
      AssetId.sort (triggers.filterMap pricedAsset?) := filterMap_refill hsort.length_eq
  refine ⟨?_, fun i trigger h => getElem?_refill h _ _ i, ?_⟩
  · refine (perm_prices (arrange triggers)).trans (.trans ?_ (perm_prices triggers).symm)
    rw [hprices, arrange, filter_refill]
    exact (hsort.map _).append_right _
  · rw [hprices]
    exact AssetId.pairwise_mergeSort (fun id => id) _

end Trigger

namespace Collector

variable {events : List Event} {points : List ChangePoint}

theorem moment_of_aware {t : Timestamp} (h : t.isAware = true) : t.moment = (true, t.instant) :=
  Prod.ext h rfl

theorem HandedOut.aware (h : HandedOut events points) (haware : ∀ e ∈ events, e.timestamp.isAware = true)
    {p : ChangePoint} (hp : p ∈ points) : p.timestamp.isAware = true := by
  obtain ⟨e, he, heq⟩ := List.mem_map.1 ((h.moments _).1 (List.mem_map_of_mem hp))
  exact (congrArg Prod.fst heq).symm.trans (haware e he)

/-- There is a point for each instant, however the instant was spelled. -/
theorem HandedOut.mem_instants (h : HandedOut events points)
    (haware : ∀ e ∈ events, e.timestamp.isAware = true) {instant : Int} :
    instant ∈ points.map (·.timestamp.instant) ↔ instant ∈ events.map (·.timestamp.instant) := by
  have hpoints : points.map (·.timestamp.moment) =
      (points.map (·.timestamp.instant)).map (Prod.mk true) := by
    rw [List.map_map]
    exact List.map_congr_left fun p hp => moment_of_aware (h.aware haware hp)
  have hevents : events.map Event.moment = (events.map (·.timestamp.instant)).map (Prod.mk true) := by
    rw [List.map_map]
    exact List.map_congr_left fun e he => moment_of_aware (haware e he)
  have hmoments := h.moments (true, instant)
  rw [hpoints, hevents] at hmoments
  rwa [List.mem_map_of_injective (Prod.mk_right_injective true),
    List.mem_map_of_injective (Prod.mk_right_injective true)] at hmoments

theorem HandedOut.arranged (h : HandedOut events points)
    (haware : ∀ e ∈ events, e.timestamp.isAware = true) {p : ChangePoint} (hp : p ∈ points) :
    Trigger.Arranged ((events.filter (·.timestamp.instant = p.timestamp.instant)).map Event.trigger)
      p.triggers := by
  have hthere : events.filter (·.moment = p.timestamp.moment) =
      events.filter (·.timestamp.instant = p.timestamp.instant) := by
    refine List.filter_congr fun e he => ?_
    rw [Event.moment, moment_of_aware (haware e he), moment_of_aware (h.aware haware hp)]
    simp
  rw [h.triggers p hp, hthere]
  exact Trigger.arranged_arrange _

end Collector

/-- A call that offers a collector something to take in. -/
inductive Call where
  | balance (timestamp : Timestamp) (accountId : String) (record : AssetRecord)
  | price (timestamp : Timestamp) (assetId : AssetId)
  | rate (timestamp : Timestamp) (base quote : String)

namespace Call

def timestamp : Call → Timestamp
  | .balance timestamp _ _ => timestamp
  | .price timestamp _ => timestamp
  | .rate timestamp _ _ => timestamp

/-- What a call brings: a trigger, unless it is the balance of something that is no asset. -/
def trigger : Call → Except Failure Trigger
  | .balance _ accountId record => record.asset.map (.balance accountId)
  | .price _ assetId => .ok (.price assetId)
  | .rate _ base quote => .ok (.rate base quote)

def event? (call : Call) : Option Event := call.trigger.toOption.map (⟨call.timestamp, ·⟩)

/-- What an offer to the collector answers. -/
def answer (collector : Collector) : Call → Except Failure Collector
  | .balance timestamp accountId record => collector.addBalance timestamp accountId record
  | .price timestamp assetId => collector.addPrice timestamp assetId
  | .rate timestamp base quote => collector.addRate timestamp base quote

def work : Call → ExceptT Failure (StateM Collector) Unit
  | .balance timestamp accountId record => do
    MonadExcept.ofExcept (← get).requireOpen
    let asset ← MonadExcept.ofExcept record.asset
    modify (·.hold asset)
    modify (·.addTrigger timestamp (.balance accountId asset))
  | .price timestamp assetId => do
    MonadExcept.ofExcept (← get).requireOpen
    modify (·.addTrigger timestamp (.price assetId))
  | .rate timestamp base quote => do
    MonadExcept.ofExcept (← get).requireOpen
    modify (·.addTrigger timestamp (.rate base quote))

/-- Does the work of a call as far as it goes. -/
def perform (call : Call) (collector : Collector) : Except Failure Unit × Collector :=
  call.work.run.run collector

/-- A call is done as a whole, with the collector it answers, or leaves the collector as it was. -/
theorem perform_eq (call : Call) (collector : Collector) : call.perform collector =
    match call.answer collector with
    | .ok next => (.ok (), next)
    | .error failure => (.error failure, collector) := by
  obtain ⟨points, held, consumed⟩ := collector
  cases call with
  | price | rate => cases consumed <;> rfl
  | balance timestamp accountId record => cases record <;> cases consumed <;> rfl

end Call

namespace Collector

def after (calls : List Call) : Collector :=
  calls.foldl (fun collector call => (call.perform collector).2) empty

/-- What the accepted ones among calls bring. -/
def accepted (calls : List Call) : List Event := calls.filterMap Call.event?

theorem perform_of_open {collector : Collector} (h : collector.consumed = false) (call : Call) :
    call.perform collector =
      match call.trigger with
      | .ok trigger => (.ok (), collector.take ⟨call.timestamp, trigger⟩)
      | .error failure => (.error failure, collector) := by
  rw [Call.perform_eq]
  obtain ⟨points, held, consumed⟩ := collector
  obtain rfl : consumed = false := h
  cases call with
  | price | rate => rfl
  | balance timestamp accountId record => cases record <;> rfl

theorem perform_of_consumed {collector : Collector} (h : collector.consumed = true) (call : Call) :
    call.perform collector = (.error .collectorConsumed, collector) := by
  have hclosed : collector.requireOpen = .error .collectorConsumed := if_pos h
  rw [Call.perform_eq]
  cases call <;> simp only [Call.answer, addBalance, addPrice, addRate, hclosed] <;> rfl

theorem finish_of_consumed {collector : Collector} (h : collector.consumed = true) :
    collector.finish = (.error .collectorConsumed, collector) := if_pos h

/-- Whatever comes of it, finishing closes the collector and keeps what it holds. -/
theorem finish_closes (collector : Collector) :
    collector.finish.2.consumed = true ∧ collector.finish.2.held = collector.held := by
  unfold finish
  split
  · exact ⟨‹_›, rfl⟩
  · split <;> exact ⟨rfl, rfl⟩

theorem after_eq_gathered (calls : List Call) : after calls = gathered (accepted calls) := by
  -- by induction on the calls from the last one: it finds a collector that is open
  induction calls using List.reverseRecOn with
  | nil => rfl
  | append_singleton calls call ih =>
    have hopen : (after calls).consumed = false := ih ▸ gathered_consumed _
    rw [after, List.foldl_concat, ← after, perform_of_open hopen, accepted, List.filterMap_append, ← accepted,
      gathered_append, ← ih, List.filterMap_cons, List.filterMap_nil, Call.event?]
    cases call.trigger <;> rfl

/-- What a run of calls leads to: what is handed out and held, and a collector that refuses everything. -/
structure RunOf (calls : List Call) (points : List ChangePoint) : Prop where
  accepts : ∀ call : Call, (call.perform (after calls)).1 = call.trigger.map fun _ => ()
  refuses : ∀ (call : Call) (failure : Failure), call.trigger = .error failure →
    (call.perform (after calls)).2 = after calls
  finished : (after calls).finish.1 = .ok points
  ascending : points.Pairwise fun p q => p.timestamp.instant < q.timestamp.instant
  instants : ∀ instant, instant ∈ points.map (·.timestamp.instant) ↔
    instant ∈ (accepted calls).map (·.timestamp.instant)
  arranged : ∀ p ∈ points, Trigger.Arranged
    (((accepted calls).filter (·.timestamp.instant = p.timestamp.instant)).map Event.trigger) p.triggers
  heldIds : ∀ id, id ∈ (after calls).heldIds ↔
    ∃ asset ∈ (accepted calls).filterMap Event.asset?, AssetId.ofAsset asset = id
  held : ∀ entry ∈ (after calls).held, AssetId.ofAsset entry.2 = entry.1
  keeps : (after calls).finish.2.held = (after calls).held
  closed : ∀ call : Call, call.perform (after calls).finish.2 =
    (.error .collectorConsumed, (after calls).finish.2)
  once : (after calls).finish.2.finish = (.error .collectorConsumed, (after calls).finish.2)

theorem mem_heldIds_gathered {events : List Event} {id : AssetId} : id ∈ (gathered events).heldIds ↔
    ∃ asset ∈ events.filterMap Event.asset?, AssetId.ofAsset asset = id := by
  have hkeys : (Keyed.keys (gathered events).held).Perm ((Collection.heldOf events).map Prod.fst) :=
    (List.mergeSort_perm _ _).symm.map Prod.fst
  rw [heldIds, AssetId.sort, (List.mergeSort_perm _ _).mem_iff, hkeys.mem_iff, Collection.mem_heldIds]

theorem ofAsset_held {events : List Event} {entry : AssetId × Asset} (h : entry ∈ (gathered events).held) :
    AssetId.ofAsset entry.2 = entry.1 := by
  have hentry : (entry.1, entry.2) ∈ Collection.heldOf events := (List.mergeSort_perm _ _).mem_iff.2 h
  obtain ⟨raw, -, hid, hnormal⟩ := Collection.mem_heldOf.1 hentry
  rw [← hnormal, AssetId.ofAsset_normalize, hid]

theorem isAware_of_accepted {calls : List Call} (haware : ∀ call ∈ calls, call.timestamp.isAware = true)
    {event : Event} (h : event ∈ accepted calls) : event.timestamp.isAware = true := by
  obtain ⟨call, hcall, hevent⟩ := List.mem_filterMap.1 h
  obtain ⟨trigger, -, rfl⟩ := Option.map_eq_some_iff.1 hevent
  exact haware call hcall

/-- A collector that got calls with known offsets, some of which it may have refused, hands out what the
accepted ones brought: a point for each of their instants, with arranged triggers. -/
theorem runOf_calls (calls : List Call) (haware : ∀ call ∈ calls, call.timestamp.isAware = true) :
    ∃ points, RunOf calls points := by
  have hafter := after_eq_gathered calls
  have hopen : (after calls).consumed = false := hafter ▸ gathered_consumed _
  have hevents : ∀ event ∈ accepted calls, event.timestamp.isAware = true :=
    fun _ => isAware_of_accepted haware
  obtain ⟨hclosed, hkeeps⟩ := finish_closes (after calls)
  obtain ⟨points, hfinish⟩ := finish_of_aware hevents
  have hhanded := handedOut_of_finish hfinish
  refine ⟨points, ?_, ?_, hafter ▸ hfinish, hhanded.ascending, fun _ => hhanded.mem_instants hevents,
    fun _ => hhanded.arranged hevents, ?_, ?_, hkeeps, perform_of_consumed hclosed,
    finish_of_consumed hclosed⟩
  · intro call
    rw [perform_of_open hopen]
    cases call.trigger <;> rfl
  · intro call failure hrefused
    rw [perform_of_open hopen, hrefused]
  · intro id
    rw [hafter, mem_heldIds_gathered]
  · intro entry hentry
    exact ofAsset_held (hafter ▸ hentry)

def tradingHour (hour : Fin 24) (ahead : Int) : Timestamp :=
  ⟨(737424 * 24 + hour) * 3600000000, some (ahead * 3600), by omega⟩

/-- Two prices in descending order around a balance, at one instant on three clocks, and the balance of
something that is no asset. -/
def mixedCalls : List Call :=
  [.price (tradingHour 12 0) ⟨"equity/ZINC"⟩,
    .balance (tradingHour 13 1) "purse" (.known (.currency "usd")),
    .balance (tradingHour 12 0) "box" (.unrecognised (.text "amber")),
    .price (tradingHour 11 (-1)) ⟨"equity/ACME"⟩]

theorem mixed_calls_run :
    (∀ call ∈ mixedCalls, call.timestamp.isAware = true) ∧ ∃ points, RunOf mixedCalls points :=
  ⟨by decide, runOf_calls mixedCalls (by decide)⟩

end Collector

end NetWorth
