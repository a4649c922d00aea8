import NetWorth.Proofs.Keyed
import NetWorth.Timeline.Collector

/-! # What a collector holds

A collector that has taken a run of events has one point for each moment among them, with the triggers
of that moment in order of arrival, and holds the first spelling of every asset that a balance named. -/
namespace NetWorth

/-- A trigger at its time. -/
structure Event where
  timestamp : Timestamp
  trigger : Trigger
deriving DecidableEq

namespace Event

def moment (event : Event) : Bool × Int := event.timestamp.moment

/-- The asset that a balance names. -/
def asset? (event : Event) : Option Asset :=
  match event.trigger with
  | .balance _ asset => some asset
  | _ => none

end Event

namespace Collector

def take (collector : Collector) (event : Event) : Collector :=
  match event.trigger with
  | .balance _ asset => (collector.hold asset).addTrigger event.timestamp event.trigger
  | _ => collector.addTrigger event.timestamp event.trigger

def takeOpen (collector : Collector) (event : Event) : Except Failure Collector := do
  collector.requireOpen
  return collector.take event

theorem addBalance_ok_iff {collector next : Collector} {timestamp : Timestamp} {accountId : String}
    {record : AssetRecord} :
    collector.addBalance timestamp accountId record = .ok next ↔
      ∃ asset, record.asset = .ok asset ∧
        collector.takeOpen ⟨timestamp, .balance accountId asset⟩ = .ok next := by
  simp only [addBalance, takeOpen, Outcome.andThen_ok_iff, Outcome.pure_ok_iff]
  constructor
  · rintro ⟨hopen, hok, asset, hasset, hnext⟩
    exact ⟨asset, hasset, hopen, hok, hnext⟩
  · rintro ⟨asset, hasset, hopen, hok, hnext⟩
    exact ⟨hopen, hok, asset, hasset, hnext⟩

theorem addPrice_eq (collector : Collector) (timestamp : Timestamp) (assetId : AssetId) :
    collector.addPrice timestamp assetId = collector.takeOpen ⟨timestamp, .price assetId⟩ := rfl

theorem hold_points (collector : Collector) (asset : Asset) :
    (collector.hold asset).points = collector.points := by
  unfold hold
  simp only
  split <;> rfl

theorem hold_consumed (collector : Collector) (asset : Asset) :
    (collector.hold asset).consumed = collector.consumed := by
  unfold hold
  simp only
  split <;> rfl

@[simp] theorem take_consumed (collector : Collector) (event : Event) :
    (collector.take event).consumed = collector.consumed := by
  unfold take
  split
  · exact hold_consumed _ _
  · rfl

theorem take_points (collector : Collector) (event : Event) :
    (collector.take event).points =
      Keyed.alter event.moment (withTrigger event.timestamp event.trigger) collector.points := by
  unfold take
  split
  · simp only [addTrigger, hold_points]
    rfl
  · rfl

/-- A held asset stays; a new one is held in its normal form. -/
theorem get?_take_held (collector : Collector) (event : Event) (id : AssetId) :
    Keyed.get? id (collector.take event).held =
      (Keyed.get? id collector.held).or
        ((event.asset?.filter fun a => AssetId.ofAsset a = id).map Asset.normalize) := by
  unfold take Event.asset?
  cases event.trigger with
  | price | rate =>
    simp only [Option.filter_none, Option.map_none, Option.or_none]
    rfl
  | balance accountId asset =>
    show Keyed.get? id (collector.hold asset).held = _
    unfold hold
    simp only
    by_cases hid : AssetId.ofAsset asset = id
    · subst hid
      cases hget : Keyed.get? (AssetId.ofAsset asset) collector.held with
      | some held => simp [hget]
      | none => simp [Keyed.get?_put, Option.filter_some]
    · cases hget : Keyed.get? (AssetId.ofAsset asset) collector.held with
      | some held => simp [Option.filter_some, hid]
      | none => simp [Keyed.get?_put, Option.filter_some, hid]

theorem nodup_take_held {collector : Collector} (event : Event) (h : (Keyed.keys collector.held).Nodup) :
    (Keyed.keys (collector.take event).held).Nodup := by
  unfold take
  cases event.trigger with
  | price | rate => exact h
  | balance accountId asset =>
    show (Keyed.keys (collector.hold asset).held).Nodup
    unfold hold
    simp only
    split
    · exact h
    · exact Keyed.nodup_keys_put _ _ h

theorem foldl_take_consumed (events : List Event) (collector : Collector) :
    (events.foldl take collector).consumed = collector.consumed := by
  induction events generalizing collector with
  | nil => rfl
  | cons event events ih => rw [List.foldl_cons, ih, take_consumed]

/-- An open collector takes in whatever it is given. -/
theorem foldlM_takeOpen_ok_iff {events : List Event} {collector next : Collector}
    (h : collector.consumed = false) :
    events.foldlM takeOpen collector = .ok next ↔ next = events.foldl take collector := by
  induction events generalizing collector with
  | nil =>
    rw [Outcome.foldlM_nil_ok_iff, List.foldl_nil]
    exact eq_comm
  | cons event events ih =>
    have hopen : takeOpen collector event = .ok (collector.take event) := by
      simp [takeOpen, requireOpen, h, bind, Except.bind, pure, Except.pure]
    rw [Outcome.foldlM_cons_ok_iff, List.foldl_cons]
    simp [hopen, ih ((take_consumed collector event).trans h)]

/-- A run of events that starts from an empty collector. -/
def gathered (events : List Event) : Collector := events.foldl take empty

theorem gathered_append (events others : List Event) :
    gathered (events ++ others) = others.foldl take (gathered events) := by
  rw [gathered, List.foldl_append, gathered]

theorem gathered_consumed (events : List Event) : (gathered events).consumed = false :=
  foldl_take_consumed events empty

theorem gathered_points (events : List Event) :
    (gathered events).points = events.foldl
      (fun m e => Keyed.alter e.moment (withTrigger e.timestamp e.trigger) m) [] := by
  have hfold : ∀ collector : Collector, (events.foldl take collector).points = events.foldl
      (fun m e => Keyed.alter e.moment (withTrigger e.timestamp e.trigger) m) collector.points := by
    induction events with
    | nil => exact fun _ => rfl
    | cons event events ih =>
      intro collector
      rw [List.foldl_cons, ih, take_points]
      rfl
  exact hfold empty

theorem keys_gathered (events : List Event) : (Keyed.keys (gathered events).points).Nodup ∧
    ∀ moment, moment ∈ Keyed.keys (gathered events).points ↔ moment ∈ events.map Event.moment := by
  rw [gathered_points]
  have hstart : (Keyed.keys ([] : Keyed (Bool × Int) ChangePoint)).Nodup := List.nodup_nil
  obtain ⟨hnodup, hmem⟩ := Keyed.keys_foldl_alter Event.moment
    (fun e => withTrigger e.timestamp e.trigger) events hstart
  refine ⟨hnodup, fun moment => ?_⟩
  rw [hmem]
  simp [Keyed.keys]

theorem foldl_withTrigger_some (events : List Event) (point : ChangePoint) :
    events.foldl (fun entry e => some (withTrigger e.timestamp e.trigger entry)) (some point) =
      some { point with triggers := point.triggers ++ events.map Event.trigger } := by
  induction events generalizing point with
  | nil => simp
  | cons event events ih =>
    rw [List.foldl_cons, withTrigger, ih]
    simp

/-- The point of a moment has the triggers of that moment, and the timestamp that came first. -/
theorem get?_gathered {events : List Event} {moment : Bool × Int} {point : ChangePoint}
    (h : Keyed.get? moment (gathered events).points = some point) :
    point.timestamp.moment = moment ∧
      point.triggers = (events.filter (·.moment = moment)).map Event.trigger := by
  rw [gathered_points, Keyed.get?_foldl_alter] at h
  cases hevents : events.filter (·.moment = moment) with
  | nil => simp [hevents] at h
  | cons first rest =>
    have hfirst : first.moment = moment := by
      have hmem : first ∈ events.filter (·.moment = moment) := by simp [hevents]
      simpa using (List.mem_filter.1 hmem).2
    rw [hevents, Keyed.get?_nil, List.foldl_cons, withTrigger, foldl_withTrigger_some] at h
    obtain rfl := Option.some.inj h
    exact ⟨hfirst, by simp⟩

theorem nodup_held (events : List Event) : (Keyed.keys (gathered events).held).Nodup := by
  have hfold : ∀ collector : Collector, (Keyed.keys collector.held).Nodup →
      (Keyed.keys (events.foldl take collector).held).Nodup := by
    induction events with
    | nil => exact fun _ h => h
    | cons event events ih => exact fun collector h => ih _ (nodup_take_held event h)
  exact hfold empty (by simp [empty, Keyed.keys])

/-- Under each identity stands the first asset that a balance named under it. -/
theorem get?_held (events : List Event) (id : AssetId) :
    Keyed.get? id (gathered events).held =
      ((events.filterMap Event.asset?).find? fun a => AssetId.ofAsset a = id).map Asset.normalize := by
  have hfold : ∀ collector : Collector, Keyed.get? id (events.foldl take collector).held =
      (Keyed.get? id collector.held).or
        (((events.filterMap Event.asset?).find? fun a => AssetId.ofAsset a = id).map Asset.normalize) := by
    induction events with
    | nil => simp
    | cons event events ih =>
      intro collector
      rw [List.foldl_cons, ih, get?_take_held, Option.or_assoc, List.filterMap_cons]
      cases event.asset? with
      | none => simp
      | some asset =>
        by_cases hid : AssetId.ofAsset asset = id
        · simp [Option.filter_some, hid]
        · simp [Option.filter_some, hid]
  rw [gathered, hfold empty]
  rfl

end Collector

end NetWorth
