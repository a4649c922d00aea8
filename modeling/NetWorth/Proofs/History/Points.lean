import NetWorth.History
import NetWorth.Proofs.Timeline.Contents
import NetWorth.Proofs.Valuation.Totals

/-! # The points of a history

A history is the change report of its request with every point valued. Points of one date share one
valuation; what is remembered of a date is what a fresh valuation of that date gives, so each point is
worth what it would be worth alone. -/
namespace NetWorth

namespace Granularity

variable {α : Type} {g : Granularity} {which : Keep} {time : α → Timestamp} {points : List α}

theorem mem_of_enter {buckets next : Keyed Int α} {point : α}
    (h : g.enter which time buckets point = .ok next) {entry : Int × α} (hentry : entry ∈ next) :
    entry.2 = point ∨ entry ∈ buckets := by
  obtain ⟨key, -, hnext⟩ := Outcome.andThen_ok_iff.1 h
  split at hnext
  · obtain rfl := Outcome.pure_ok_iff.1 hnext
    exact .inr hentry
  · obtain rfl := Outcome.pure_ok_iff.1 hnext
    exact (Keyed.mem_of_mem_put hentry).imp_left fun heq => by rw [heq]

theorem subset_of_thin {thinned : List α} (h : g.thin which time points = .ok thinned) :
    thinned ⊆ points := by
  unfold thin at h
  split at h
  · exact fun p hp => Except.ok.inj h ▸ hp
  · obtain ⟨buckets, hbuckets, hthinned⟩ := Outcome.andThen_ok_iff.1 h
    obtain rfl := Outcome.pure_ok_iff.1 hthinned
    have hentries : ∀ entry ∈ buckets, entry.2 ∈ points := by
      refine Outcome.foldlM_keeps (P := fun buckets => ∀ entry ∈ buckets, entry.2 ∈ points) hbuckets
        (by simp) fun before point hpoint after hbefore hafter entry hentry => ?_
      rcases mem_of_enter hafter hentry with rfl | hold
      · exact hpoint
      · exact hbefore entry hold
    intro p hp
    obtain ⟨entry, hentry, rfl⟩ := List.mem_map.1 hp
    exact hentries entry ((List.mergeSort_perm _ _).mem_iff.1 hentry)

end Granularity

theorem DateRange.subset_of_keep {α : Type} {range : DateRange} {time : α → Timestamp}
    {points kept : List α} (h : range.keep time points = .ok kept) : kept ⊆ points := by
  unfold keep at h
  split at h
  · exact fun p hp => Except.ok.inj h ▸ hp
  · exact (Outcome.sublist_of_filterM h).subset

namespace TimelineQuery

theorem collected_of_points {ledger : LedgerReads} {market : MarketReads} {query : TimelineQuery}
    {range : DateRange} {points : List ChangePoint}
    (h : (query.points ledger market range).outcome = .ok points) :
    ∃ collected, (Collection.run ledger market query.options).outcome = .ok collected ∧
      points ⊆ collected := by
  simp only [TimelineQuery.points, Journaled.outcome_bind, Journaled.outcome_of, Outcome.bind_ok_iff] at h
  obtain ⟨granularity, -, collected, hcollected, kept, hkept, hthinned⟩ := h
  exact ⟨collected, hcollected, fun point hpoint =>
    DateRange.subset_of_keep hkept (Granularity.subset_of_thin hthinned hpoint)⟩

end TimelineQuery

theorem ChangeReport.pointsOf_collected {ledger : Ledger} {store : MarketStore} {query : TimelineQuery}
    {changes : ChangeReport} (h : (run ledger.reads store.reads query).outcome = .ok changes) :
    ∃ collected, Collector.PointsOf (Collection.timeline ledger store query.options) collected ∧
      changes.points ⊆ collected := by
  simp only [run, Journaled.outcome_bind, Journaled.outcome_of, Journaled.outcome_pure,
    Outcome.bind_ok_iff, Except.ok.injEq] at h
  obtain ⟨range, -, points, hpoints, rfl⟩ := h
  obtain ⟨collected, hcollected, hsubset⟩ := TimelineQuery.collected_of_points hpoints
  exact ⟨collected, Collection.pointsOf_of_run hcollected, hsubset⟩

namespace HistoryReport

variable {ledger : LedgerReads} {market : MarketReads} {query : HistoryQuery}

/-- What the portfolio is worth on a date in the terms of a history. -/
def worthOn (ledger : LedgerReads) (market : MarketReads) (query : HistoryQuery) (date : Date) :
    Except Failure String :=
  (Valuation.run ledger market (query.valuationQuery date)).outcome.map (·.totalValue)

/-- What is remembered of each date is what the portfolio is worth then. -/
def Remembers (ledger : LedgerReads) (market : MarketReads) (query : HistoryQuery)
    (totals : Keyed Date String) : Prop :=
  ∀ date total, Keyed.get? date totals = some total → worthOn ledger market query date = .ok total

variable {totals : Keyed Date String} {done : List HistoryPoint} {point : ChangePoint}

theorem outcome_totalOn (h : Remembers ledger market query totals) (date : Date) :
    (totalOn ledger market query totals date).outcome = worthOn ledger market query date := by
  unfold totalOn
  cases hget : Keyed.get? date totals with
  | some total => exact (h date total hget).symm
  | none =>
    simp only [Journaled.outcome_bind, worthOn]
    cases (Valuation.run ledger market (query.valuationQuery date)).outcome <;> rfl

def described (point : ChangePoint) : Option (List String) :=
  if (point.triggers.map Trigger.text).isEmpty then none else some (point.triggers.map Trigger.text)

def valued (ledger : LedgerReads) (market : MarketReads) (query : HistoryQuery) (point : ChangePoint) :
    Except Failure HistoryPoint :=
  match point.timestamp.utcDate? with
  | none => .error .dateOutOfRange
  | some date => (worthOn ledger market query date).map fun total =>
    ⟨point.timestamp, date, total, described point⟩

theorem valued_ok_iff {value : HistoryPoint} : valued ledger market query point = .ok value ↔
    ∃ date total, point.timestamp.utcDate? = some date ∧ worthOn ledger market query date = .ok total ∧
      value = ⟨point.timestamp, date, total, described point⟩ := by
  unfold valued
  cases point.timestamp.utcDate? with
  | none => simp
  | some date =>
    rw [Outcome.map_ok_iff]
    constructor
    · rintro ⟨total, htotal, rfl⟩
      exact ⟨date, total, rfl, htotal, rfl⟩
    · rintro ⟨_, total, hdate, htotal, rfl⟩
      obtain rfl := Option.some.inj hdate
      exact ⟨total, htotal, rfl⟩

/-- While totals are remembered rightly, valuing a point behind others is valuing it on its own. -/
theorem outcome_valuePoint (h : Remembers ledger market query totals) :
    (valuePoint ledger market query (totals, done) point).outcome =
      (valued ledger market query point).map fun value =>
        (Keyed.put value.date value.totalValue totals, done ++ [value]) := by
  unfold valuePoint valued
  cases point.timestamp.utcDate? with
  | none => rfl
  | some date =>
    simp only [Journaled.outcome_bind, outcome_totalOn h]
    cases worthOn ledger market query date <;> rfl

theorem Remembers.put (h : Remembers ledger market query totals) {value : HistoryPoint}
    (hvalue : valued ledger market query point = .ok value) :
    Remembers ledger market query (Keyed.put value.date value.totalValue totals) := by
  obtain ⟨date, total, -, hworth, rfl⟩ := valued_ok_iff.1 hvalue
  intro other found hget
  rw [Keyed.get?_put] at hget
  split at hget
  · rename_i heq
    obtain rfl := Option.some.inj hget
    exact heq ▸ hworth
  · exact h other found hget

/-- The points of a history are valued as if each stood alone. -/
theorem outcome_valuePoints (timeline : List ChangePoint) (h : Remembers ledger market query totals) :
    (timeline.foldlM (valuePoint ledger market query) (totals, done)).outcome.map Prod.snd =
      (timeline.mapM (valued ledger market query)).map (done ++ ·) := by
  -- by induction on the timeline: each point that is valued leaves right totals to the rest
  induction timeline generalizing totals done with
  | nil => exact congrArg Except.ok (List.append_nil done).symm
  | cons point timeline ih =>
    rw [List.foldlM_cons, Journaled.outcome_bind, outcome_valuePoint h, List.mapM_cons]
    cases hvalue : valued ledger market query point with
    | error failure => rfl
    | ok value =>
      refine (ih (h.put hvalue)).trans ?_
      show _ = Except.map _ (Except.bind (timeline.mapM (valued ledger market query)) _)
      cases timeline.mapM (valued ledger market query) with
      | error failure => rfl
      | ok values => simp [Except.map, Except.bind, pure, Except.pure]

/-- A history without its memory. -/
theorem outcome_run : (run ledger market query).outcome = (do
    let range ← query.timeline.range
    let timeline ← (query.timeline.points ledger market range).outcome
    let points ← timeline.mapM (valued ledger market query)
    let summary ← HistorySummary.ofValues (points.map (·.totalValue))
    return ⟨query.currency, range, query.timeline.granularity, points, summary⟩) := by
  simp only [run, Journaled.outcome_bind, Journaled.outcome_of]
  refine Outcome.bind_congr rfl fun range _ => Outcome.bind_congr rfl fun timeline _ => ?_
  have hpoints : timeline.mapM (valued ledger market query) =
      (timeline.foldlM (valuePoint ledger market query) ([], [])).outcome.map Prod.snd := by
    rw [outcome_valuePoints timeline (by simp [Remembers])]
    cases timeline.mapM (valued ledger market query) <;> rfl
  show _ = Except.bind (timeline.mapM (valued ledger market query)) _
  rw [hpoints]
  cases (timeline.foldlM (valuePoint ledger market query) ([], [])).outcome <;> rfl

theorem outcome_of_valued {range : DateRange} {timeline : List ChangePoint} {points : List HistoryPoint}
    (hrange : query.timeline.range = .ok range)
    (htimeline : (query.timeline.points ledger market range).outcome = .ok timeline)
    (hpoints : timeline.mapM (valued ledger market query) = .ok points) :
    (run ledger market query).outcome = (HistorySummary.ofValues (points.map (·.totalValue))).map fun summary =>
      ⟨query.currency, range, query.timeline.granularity, points, summary⟩ := by
  rw [outcome_run]
  simp only [bind, Except.bind, hrange, htimeline, hpoints]
  cases HistorySummary.ofValues (points.map (·.totalValue)) <;> rfl

/-- A point of a history shows a change point with what the portfolio is worth on its date, however a
valuation of that date is grouped and whether it goes into detail. -/
structure Values (ledger : LedgerReads) (market : MarketReads) (currency : String) (places : Option Int)
    (change : ChangePoint) (point : HistoryPoint) : Prop where
  timestamp : point.timestamp = change.timestamp
  date : change.timestamp.utcDate? = some point.date
  triggers : point.triggers = some (change.triggers.map Trigger.text)
  worth : ∃ valuation, (Valuation.run ledger market
    ⟨point.date, currency, some Grouping.asset.word, false, places⟩).outcome = .ok valuation ∧
      valuation.totalValue = point.totalValue
  total : ∀ grouping detail valuation,
    (Valuation.run ledger market ⟨point.date, currency, grouping, detail, places⟩).outcome = .ok valuation →
      valuation.totalValue = point.totalValue

theorem values_of_valued {change : ChangePoint} {value : HistoryPoint}
    (h : valued ledger market query change = .ok value) (htriggers : change.triggers ≠ []) :
    Values ledger market query.currency query.places change value := by
  obtain ⟨date, total, hdate, hworth, rfl⟩ := valued_ok_iff.1 h
  obtain ⟨valuation, hvaluation, rfl⟩ := Outcome.map_ok_iff.1 hworth
  exact ⟨rfl, hdate, if_neg (by simpa using htriggers), ⟨valuation, hvaluation, rfl⟩,
    fun grouping detail other hother => Valuation.totalValue_unique hother hvaluation⟩

theorem changes_of_run {timeline : TimelineQuery} {currency : String} {places : Option Int}
    {report : HistoryReport} (h : (run ledger market (.make timeline currency places)).outcome = .ok report) :
    ∃ changes, (ChangeReport.run ledger market { timeline with currency := some currency }).outcome =
        .ok changes ∧ changes.range = report.range ∧
      changes.points.mapM (valued ledger market (.make timeline currency places)) = .ok report.points := by
  rw [outcome_run] at h
  simp only [Outcome.andThen_ok_iff, Outcome.pure_ok_iff] at h
  obtain ⟨range, hrange, changes, hchanges, points, hpoints, summary, -, rfl⟩ := h
  refine ⟨⟨range, timeline.granularity, timeline.includePrices, changes⟩, ?_, rfl, hpoints⟩
  simp only [ChangeReport.run, Journaled.outcome_bind, Journaled.outcome_of, Journaled.outcome_pure,
    Outcome.bind_ok_iff]
  exact ⟨range, hrange, changes, hchanges, rfl⟩

/-- Where a history answers, so does the change report of the same request; it has the same range, and its
points are those of the history, in the same order, before they were valued. -/
theorem history_values_changes {ledger : Ledger} {store : MarketStore} {timeline : TimelineQuery}
    {currency : String} {places : Option Int} {report : HistoryReport}
    (h : (run ledger.reads store.reads (.make timeline currency places)).outcome = .ok report) :
    ∃ changes, (ChangeReport.run ledger.reads store.reads
        { timeline with currency := some currency }).outcome = .ok changes ∧
      changes.range = report.range ∧
      List.Forall₂ (Values ledger.reads store.reads currency places) changes.points report.points := by
  obtain ⟨changes, hchanges, hrange, hpoints⟩ := changes_of_run h
  obtain ⟨collected, hcollected, hsubset⟩ := ChangeReport.pointsOf_collected hchanges
  refine ⟨changes, hchanges, hrange, Outcome.forall₂_of_mapM hpoints fun change hchange point hpoint => ?_⟩
  exact values_of_valued hpoint (hcollected.nonempty change (hsubset hchange))

open Collection (shareStore acme tradingDay)

def wholeTimeline : TimelineQuery := ⟨none, none, "none", true, true, [], none⟩

def tradingNoon : Timestamp := ⟨tradingDay.day * 86400000000 + 43200000000, some 0, by decide⟩

/-- Shares of which four had been counted by noon, and ten by the end of the day. -/
def shareDay : Ledger :=
  (((Ledger.empty.putConnection ⟨"broker", "Broker", "manual"⟩).putAccount
    ⟨"depot", "Depot", "broker", [], true⟩).addSnapshot "depot"
      (.at tradingNoon [⟨.known acme, .text "4"⟩])).addSnapshot "depot"
        (.at (.endOfDay tradingDay) [⟨.known acme, .text "10"⟩])

def shareQuery : HistoryQuery := .make wholeTimeline "USD" none

def shareChanges : List ChangePoint :=
  [⟨tradingNoon, [.balance "depot" acme]⟩,
    ⟨.endOfDay tradingDay, [.balance "depot" acme, .price ⟨"equity/ACME"⟩, .rate "EUR" "USD"]⟩]

def shareHistory : HistoryReport :=
  ⟨"USD", ⟨none, none⟩, "none",
    shareChanges.map fun change => ⟨change.timestamp, tradingDay, "90", described change⟩,
    some ⟨"90", "90", "0", "0.00"⟩⟩

theorem shareDay_assetsKnown : shareDay.AssetsKnown [] := by
  intro a ha s hs b hb
  have hparticipants : shareDay.participants [] = [⟨"depot", "Depot", "broker", [], true⟩] := rfl
  obtain rfl := List.mem_singleton.1 (hparticipants ▸ ha)
  have hsnapshots : shareDay.snapshotsOf "depot" = [.at tradingNoon [⟨.known acme, .text "4"⟩],
    .at (.endOfDay tradingDay) [⟨.known acme, .text "10"⟩]] := rfl
  simp only [hsnapshots, List.mem_cons, List.not_mem_nil, or_false] at hs
  rcases hs with rfl | rfl <;> obtain rfl := List.mem_singleton.1 hb <;> exact ⟨acme, rfl⟩

theorem shareDay_collected :
    (Collection.run shareDay.reads shareStore.reads shareQuery.timeline.options).outcome = .ok shareChanges := by
  have hpoints : (Collector.gathered (Collection.timeline shareDay shareStore shareQuery.timeline.options)).points =
      shareChanges.map fun change => (change.timestamp.moment, change) := by decide +kernel
  refine Collection.run_ok_iff.2 ⟨⟨fun _ => rfl, .inl rfl⟩, shareDay_assetsKnown, ?_⟩
  rw [Collector.finish_of_ascending (Collector.gathered_consumed _) (by rw [hpoints]; decide)
    (by rw [hpoints]; decide), hpoints]
  exact congrArg Except.ok (by decide +kernel)

theorem share_history :
    (run shareDay.reads shareStore.reads shareQuery).outcome = .ok shareHistory := by
  have htimeline : (shareQuery.timeline.points shareDay.reads shareStore.reads ⟨none, none⟩).outcome =
      .ok shareChanges := by
    have hfull : Granularity.parse shareQuery.timeline.granularity = .ok .full :=
      Outcome.ok_of_toOption (by decide +kernel)
    simp only [TimelineQuery.points, Journaled.outcome_bind, Journaled.outcome_of, hfull, shareDay_collected]
    rfl
  have hpoints : shareChanges.mapM (valued shareDay.reads shareStore.reads shareQuery) =
      .ok shareHistory.points := Outcome.ok_of_toOption (by decide +kernel)
  have hsummary : HistorySummary.ofValues (shareHistory.points.map (·.totalValue)) =
      .ok shareHistory.summary := Outcome.ok_of_toOption (by decide +kernel)
  rw [outcome_of_valued rfl htimeline hpoints, hsummary]
  rfl

/-- Both points of the share's day are worth what the day is worth. -/
theorem share_history_values_changes : ∃ changes, (ChangeReport.run shareDay.reads shareStore.reads
      { wholeTimeline with currency := some "USD" }).outcome = .ok changes ∧
    changes.range = shareHistory.range ∧
    List.Forall₂ (Values shareDay.reads shareStore.reads "USD" none) changes.points
      shareHistory.points :=
  history_values_changes share_history

end HistoryReport

end NetWorth
