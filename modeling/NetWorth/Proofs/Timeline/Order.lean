import NetWorth.Proofs.Timeline.Collector

/-! # Handing out change points

Finishing a collector hands out its points in strictly ascending order. Where prices came in the order
of their identities, arranging the triggers of a point changes nothing, so each point has the triggers
of its moment as they came. -/
namespace NetWorth

namespace AssetId

theorem le_trans {a b c : AssetId} (hab : AssetId.le a b = true) (hbc : AssetId.le b c = true) :
    AssetId.le a c = true := by
  simp only [AssetId.le, decide_eq_true_eq] at *
  exact String.le_trans hab hbc

theorem le_total (a b : AssetId) : (AssetId.le a b || AssetId.le b a) = true := by
  simp only [AssetId.le, Bool.or_eq_true, decide_eq_true_eq]
  exact String.le_total a.text b.text

theorem le_antisymm {a b : AssetId} (hab : AssetId.le a b = true) (hba : AssetId.le b a = true) : a = b := by
  simp only [AssetId.le, decide_eq_true_eq] at hab hba
  exact congrArg AssetId.mk (String.le_antisymm hab hba)

theorem pairwise_mergeSort {α : Type} (id : α → AssetId) (xs : List α) :
    (xs.mergeSort fun a b => le (id a) (id b)).Pairwise fun a b => le (id a) (id b) = true := by
  refine List.pairwise_mergeSort ?_ ?_ xs
  · exact fun _ _ _ => le_trans
  · exact fun a b => le_total (id a) (id b)

end AssetId

namespace Trigger

theorem refill_cons {trigger : Trigger} (h : trigger.pricedAsset? = none) (ids : List AssetId)
    (rest : List Trigger) : refill ids (trigger :: rest) = trigger :: refill ids rest := by
  cases trigger with
  | price id => contradiction
  | balance | rate => cases ids <;> rfl

theorem refill_self (triggers : List Trigger) :
    refill (triggers.filterMap pricedAsset?) triggers = triggers := by
  induction triggers with
  | nil => rfl
  | cons trigger rest ih =>
    cases trigger with
    | price id => simp [pricedAsset?, refill, ih]
    | balance | rate => rw [List.filterMap_cons_none rfl, refill_cons rfl, ih]

theorem arrange_of_pairwise {triggers : List Trigger}
    (h : (triggers.filterMap pricedAsset?).Pairwise fun a b => AssetId.le a b = true) :
    arrange triggers = triggers := by
  rw [arrange, AssetId.sort, List.mergeSort_of_pairwise h, refill_self]

end Trigger

namespace Collector

variable {events : List Event}

/-- Moments that can be compared are told apart by their instants. -/
theorem moment_eq_of_comparable {points : Keyed (Bool × Int) ChangePoint} (h : comparable points = true)
    {a b : (Bool × Int) × ChangePoint} (ha : a ∈ points) (hb : b ∈ points) (hab : a.1.2 = b.1.2) :
    a.1 = b.1 := by
  simp only [comparable, Bool.or_eq_true, List.all_eq_true, Bool.not_eq_true'] at h
  rcases h with h | h
  · exact Prod.ext ((h a ha).trans (h b hb).symm) hab
  · exact Prod.ext ((h a ha).trans (h b hb).symm) hab

/-- The entries of the points, in the order in which they are handed out. -/
def inOrder (points : Keyed (Bool × Int) ChangePoint) : List ((Bool × Int) × ChangePoint) :=
  points.mergeSort fun a b => decide (a.1.2 ≤ b.1.2)

theorem inOrder_perm (points : Keyed (Bool × Int) ChangePoint) : (inOrder points).Perm points :=
  List.mergeSort_perm _ _

theorem inOrder_strict {points : Keyed (Bool × Int) ChangePoint} (hkeys : (Keyed.keys points).Nodup)
    (h : comparable points = true) : (inOrder points).Pairwise fun a b => a.1.2 < b.1.2 :=
  Keyed.pairwise_mergeSort_lt hkeys Prod.snd fun _ ha _ hb => moment_eq_of_comparable h ha hb

/-- The points that a run of events leads to: one for each of their moments, ascending, each with the
triggers of its moment in arranged order. -/
structure HandedOut (events : List Event) (points : List ChangePoint) : Prop where
  ascending : points.Pairwise fun p q => p.timestamp.instant < q.timestamp.instant
  moments : ∀ moment, moment ∈ points.map (·.timestamp.moment) ↔ moment ∈ events.map Event.moment
  triggers : ∀ p ∈ points, p.triggers =
    Trigger.arrange ((events.filter (·.moment = p.timestamp.moment)).map Event.trigger)

theorem handedOut_of_finish {points : List ChangePoint} (h : (gathered events).finish.1 = .ok points) :
    HandedOut events points := by
  obtain ⟨hkeys, hmoments⟩ := keys_gathered events
  unfold finish at h
  rw [gathered_consumed events] at h
  simp only [Bool.false_eq_true, if_false] at h
  split at h
  · rename_i hcomparable
    obtain rfl := Except.ok.inj h
    have hentry : ∀ entry ∈ inOrder (gathered events).points, entry.2.timestamp.moment = entry.1 ∧
        entry.2.triggers = (events.filter (·.moment = entry.1)).map Event.trigger := by
      intro entry hentry
      have hget := (Keyed.mem_iff_get? hkeys).1 ((inOrder_perm _).mem_iff.1 hentry)
      exact ⟨(get?_gathered hget).1, (get?_gathered hget).2⟩
    have hpoints : sorted (gathered events).points = (inOrder (gathered events).points).map
        fun e => { e.2 with triggers := Trigger.arrange e.2.triggers } := rfl
    rw [hpoints]
    refine ⟨?_, fun moment => ?_, ?_⟩
    · rw [List.pairwise_map]
      refine (inOrder_strict hkeys hcomparable).imp_of_mem fun {a b} ha hb hab => ?_
      have hfst := congrArg Prod.snd (hentry a ha).1
      have hsnd := congrArg Prod.snd (hentry b hb).1
      show a.2.timestamp.instant < b.2.timestamp.instant
      simp only [Timestamp.moment] at hfst hsnd
      omega
    · rw [← hmoments, Keyed.keys, ← ((inOrder_perm _).map Prod.fst).mem_iff, List.map_map]
      exact iff_of_eq (congrArg (moment ∈ ·) (List.map_congr_left fun entry hmem => (hentry entry hmem).1))
    · intro p hp
      obtain ⟨entry, hmem, rfl⟩ := List.mem_map.1 hp
      obtain ⟨hmoment, htriggers⟩ := hentry entry hmem
      simp only [hmoment, htriggers]
  · contradiction

/-- The points of events whose prices came in the order of identities: each has the triggers of its moment
as they came. -/
structure PointsOf (events : List Event) (points : List ChangePoint) : Prop where
  ascending : points.Pairwise fun p q => p.timestamp.instant < q.timestamp.instant
  nonempty : ∀ p ∈ points, p.triggers ≠ []
  triggers : ∀ p ∈ points, p.triggers =
    (events.filter (·.moment = p.timestamp.moment)).map Event.trigger
  covers : ∀ e ∈ events, ∃ p ∈ points, p.timestamp.moment = e.moment

theorem pointsOf_of_finish {points : List ChangePoint}
    (hprices : (events.filterMap fun e => e.trigger.pricedAsset?).Pairwise fun a b =>
      AssetId.le a b = true)
    (h : (gathered events).finish.1 = .ok points) : PointsOf events points := by
  have hhanded := handedOut_of_finish h
  have htriggers : ∀ p ∈ points, p.triggers =
      (events.filter (·.moment = p.timestamp.moment)).map Event.trigger := by
    intro p hp
    rw [hhanded.triggers p hp]
    refine Trigger.arrange_of_pairwise ?_
    rw [List.filterMap_map]
    exact hprices.sublist (List.filter_sublist.filterMap _)
  refine ⟨hhanded.ascending, fun p hp => ?_, htriggers, fun e he => ?_⟩
  · obtain ⟨e, he, hmoment⟩ := List.mem_map.1 ((hhanded.moments _).1 (List.mem_map_of_mem hp))
    rw [htriggers p hp]
    exact List.ne_nil_of_mem (List.mem_map_of_mem (List.mem_filter.2 ⟨he, by simp [hmoment]⟩))
  · exact List.mem_map.1 ((hhanded.moments _).2 (List.mem_map_of_mem he))

/-- The points hold every event once, and nothing else. -/
theorem PointsOf.perm {points : List ChangePoint} (h : PointsOf events points) :
    (points.flatMap fun p => p.triggers.map fun t => (p.timestamp.instant, t)).Perm
      (events.map fun e => (e.timestamp.instant, e.trigger)) := by
  have hmoments : (points.map fun p => p.timestamp.moment).Nodup := by
    rw [List.nodup_iff_pairwise_ne, List.pairwise_map]
    refine h.ascending.imp fun {p q} hlt heq => ?_
    have hinstant : p.timestamp.instant = q.timestamp.instant := congrArg Prod.snd heq
    omega
  have hcover : ∀ e ∈ events, e.moment ∈ points.map fun p => p.timestamp.moment := by
    intro e he
    obtain ⟨p, hp, hmoment⟩ := h.covers e he
    exact List.mem_map.2 ⟨p, hp, hmoment⟩
  have hperm := Keyed.flatMap_filter_perm hmoments hcover
  refine List.Perm.trans (List.Perm.of_eq ?_) (hperm.map fun e => (e.timestamp.instant, e.trigger))
  rw [List.map_flatMap, List.flatMap_map]
  refine List.flatMap_congr fun p hp => ?_
  rw [h.triggers p hp, List.map_map]
  refine List.map_congr_left fun e he => ?_
  have hmoment : e.moment = p.timestamp.moment := by simpa using (List.mem_filter.1 he).2
  have hinstant : e.timestamp.instant = p.timestamp.instant := congrArg Prod.snd hmoment
  rw [Function.comp_apply, hinstant]

theorem PointsOf.mem_triggers {points : List ChangePoint} (h : PointsOf events points) {p : ChangePoint}
    (hp : p ∈ points) {event : Event} (he : event ∈ events) (hmoment : p.timestamp.moment = event.moment) :
    event.trigger ∈ p.triggers := by
  rw [h.triggers p hp]
  exact List.mem_map_of_mem (List.mem_filter.2 ⟨he, by simp [hmoment]⟩)

/-- A trigger of a point is due to an event of its moment. -/
theorem PointsOf.exists_event {points : List ChangePoint} (h : PointsOf events points) {p : ChangePoint}
    (hp : p ∈ points) {trigger : Trigger} (htrigger : trigger ∈ p.triggers) :
    ∃ event ∈ events, event.moment = p.timestamp.moment ∧ event.trigger = trigger := by
  rw [h.triggers p hp] at htrigger
  obtain ⟨event, hevent, hfired⟩ := List.mem_map.1 htrigger
  obtain ⟨hmem, hmoment⟩ := List.mem_filter.1 hevent
  exact ⟨event, hmem, of_decide_eq_true hmoment, hfired⟩

/-- Points that were gathered in their order are handed out as they stand, their triggers arranged. -/
theorem finish_of_ascending {collector : Collector} (hopen : collector.consumed = false)
    (hcomparable : comparable collector.points = true)
    (hascending : collector.points.Pairwise fun a b => a.1.2 ≤ b.1.2) :
    collector.finish.1 =
      .ok (collector.points.map fun e => { e.2 with triggers := Trigger.arrange e.2.triggers }) := by
  have hsorted : sorted collector.points =
      collector.points.map fun e => { e.2 with triggers := Trigger.arrange e.2.triggers } := by
    rw [sorted, List.mergeSort_of_pairwise (by simpa using hascending)]
  simp [finish, hopen, hcomparable, hsorted]

/-- Events whose offsets are all known can be handed out. -/
theorem finish_of_aware (h : ∀ e ∈ events, e.timestamp.isAware = true) :
    ∃ points, (gathered events).finish.1 = .ok points := by
  have hcomparable : comparable (gathered events).points = true := by
    simp only [comparable, Bool.or_eq_true, List.all_eq_true]
    refine .inl fun entry hentry => ?_
    have hmoment := ((keys_gathered events).2 entry.1).1 (List.mem_map_of_mem hentry)
    obtain ⟨e, he, heq⟩ := List.mem_map.1 hmoment
    rw [← heq]
    exact h e he
  exact ⟨sorted (gathered events).points, by simp [finish, gathered_consumed, hcomparable]⟩

end Collector

end NetWorth
