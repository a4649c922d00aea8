import Mathlib
import NetWorth.Proofs.History.Points
import NetWorth.Proofs.Timeline.Thinning

/-! # Histories with bounds

Where no bucket reaches over midnight, bounding a history by dates and thinning its timeline do not get in
each other's way: a bounded history is the part of the whole one that lies between the bounds. -/
namespace NetWorth

namespace DateRange

variable {α : Type} {time : α → Timestamp} {points : List α}

def covers (range : DateRange) (t : Timestamp) : Bool := t.utcDate?.any range.contains

theorem contains_of_unbounded {range : DateRange} (h : range.isUnbounded = true) (date : Date) :
    range.contains date = true := by
  simp only [isUnbounded, Bool.and_eq_true, Option.isNone_iff_eq_none] at h
  simp [contains, h.1, h.2]

theorem eq_filter_of_keep {range : DateRange} {kept : List α} (h : range.keep time points = .ok kept)
    (hdated : ∀ p ∈ points, (time p).utcDate?.isSome) :
    kept = points.filter fun p => range.covers (time p) := by
  unfold keep at h
  split at h
  · rename_i hunbounded
    obtain rfl := Except.ok.inj h
    refine (List.filter_eq_self.2 fun p hp => ?_).symm
    obtain ⟨date, hdate⟩ := Option.isSome_iff_exists.1 (hdated p hp)
    rw [covers, hdate, Option.any_some, contains_of_unbounded hunbounded]
  · rw [Outcome.eq_filter_of_filterM h]
    refine List.filter_congr fun p _ => ?_
    unfold holds covers
    cases (time p).utcDate? <;> rfl

end DateRange

namespace Granularity

variable {α : Type} {g : Granularity} {which : Keep} {time : α → Timestamp} {points : List α}

/-- Thinning the part of a timeline in a range gives that part of the thinned timeline. -/
theorem thin_of_keep (hdays : g.WithinDays) (hascending : Ascending time points) {whole kept part : List α}
    {range : DateRange} (hwhole : g.thin which time points = .ok whole)
    (hdated : ∀ p ∈ whole, (time p).utcDate?.isSome) (hkept : range.keep time points = .ok kept)
    (hpart : g.thin which time kept = .ok part) : part = whole.filter fun p => range.covers (time p) := by
  cases hall : g.keepsAll with
  | true =>
    rw [thin, if_pos hall] at hwhole hpart
    obtain rfl := Except.ok.inj hwhole
    obtain rfl := Except.ok.inj hpart
    exact DateRange.eq_filter_of_keep hkept hdated
  | false =>
    have hplaceable := placeable_of_thin hall hwhole
    obtain rfl := DateRange.eq_filter_of_keep hkept fun p hp => (hplaceable p hp).dated
    have hwholeSurvivors := Except.ok.inj (hwhole.symm.trans (thin_eq_survivors hall hascending hplaceable))
    have hpartSurvivors := Except.ok.inj (hpart.symm.trans (thin_eq_survivors hall
      (hascending.filter fun p => range.covers (time p))
      fun p hp => hplaceable p (List.mem_of_mem_filter hp)))
    rw [hpartSurvivors, hwholeSurvivors]
    refine survivors_filter fun p hp q hq hsame => ?_
    rw [DateRange.covers, DateRange.covers,
      utcDate?_eq_of_sameBucket hall hdays (hplaceable p hp) (hplaceable q hq) hsame]

end Granularity

namespace TimelineQuery

theorem bounds_of_range {query : TimelineQuery} {range : DateRange} (h : query.range = .ok range) :
    DateBound.read "start" query.first = .ok range.first ∧
      DateBound.read "end" query.last = .ok range.last := by
  obtain ⟨first, hfirst, hrest⟩ := Outcome.andThen_ok_iff.1 h
  obtain ⟨last, hlast, hrange⟩ := Outcome.andThen_ok_iff.1 hrest
  have hbounds : range = ⟨first, last⟩ := by
    split at hrange
    · split at hrange
      · contradiction
      · exact (Except.ok.inj hrange).symm
    · exact (Except.ok.inj hrange).symm
  rw [hbounds]
  exact ⟨hfirst, hlast⟩

/-- The request with other bounds. -/
def between (query : TimelineQuery) (first last : Option DateBound) : TimelineQuery :=
  { query with first := first, last := last }

/-- The timeline between two bounds is the part of the whole timeline in their range. -/
theorem points_eq_filter {ledger : Ledger} {store : MarketStore} {query : TimelineQuery} {g : Granularity}
    {unbounded range : DateRange} {whole part : List ChangePoint}
    (hwhole : (query.points ledger.reads store.reads unbounded).outcome = .ok whole)
    (hpart : (query.points ledger.reads store.reads range).outcome = .ok part)
    (hunbounded : unbounded.isUnbounded = true) (hdated : ∀ p ∈ whole, p.timestamp.utcDate?.isSome)
    (hparse : Granularity.parse query.granularity = .ok g) (hdays : g.WithinDays) :
    part = whole.filter fun p => range.covers p.timestamp := by
  simp only [points, Journaled.outcome_bind, Journaled.outcome_of, Outcome.bind_ok_iff, hparse,
    Except.ok.injEq, exists_eq_left'] at hwhole hpart
  obtain ⟨collected, hcollected, kept, hall, hthinned⟩ := hwhole
  obtain ⟨again, hagain, within, hwithin, hthin⟩ := hpart
  obtain rfl := Except.ok.inj (hcollected.symm.trans hagain)
  rw [DateRange.keep, if_pos hunbounded] at hall
  obtain rfl := Except.ok.inj hall
  exact Granularity.thin_of_keep hdays (Collection.pointsOf_of_run hcollected).ascending hthinned hdated hwithin hthin

end TimelineQuery

namespace HistoryReport

variable {ledger : Ledger} {store : MarketStore} {timeline : TimelineQuery} {currency : String}
  {places : Option Int} {first last : Option DateBound}

/-- Bounds have no part in what is collected. -/
theorem points_between (market : MarketReads) (ledger : LedgerReads) (range : DateRange) :
    (HistoryQuery.make (timeline.between first last) currency places).timeline.points ledger market range =
      (HistoryQuery.make timeline currency places).timeline.points ledger market range := by
  simp only [TimelineQuery.points, TimelineQuery.options, HistoryQuery.make, TimelineQuery.between]

/-- Bounds have no part in what a point is worth. -/
theorem valued_between (market : MarketReads) (ledger : LedgerReads) :
    valued ledger market (.make (timeline.between first last) currency places) =
      valued ledger market (.make timeline currency places) := by
  funext point
  simp only [valued, worthOn, HistoryQuery.valuationQuery, HistoryQuery.make]

/-- A history with bounds shows the points of the whole history whose date lies between the bounds, with
what they show there. -/
theorem bounded_is_slice {g : Granularity} {whole part : HistoryReport}
    (hfirst : timeline.first = none) (hlast : timeline.last = none)
    (hparse : Granularity.parse timeline.granularity = .ok g) (hdays : g.WithinDays)
    (hwhole : (run ledger.reads store.reads (.make timeline currency places)).outcome = .ok whole)
    (hpart : (run ledger.reads store.reads
      (.make (timeline.between first last) currency places)).outcome = .ok part) :
    DateBound.read "start" first = .ok part.range.first ∧ DateBound.read "end" last = .ok part.range.last ∧
      part.points = whole.points.filter fun p => part.range.contains p.date := by
  rw [outcome_run] at hwhole hpart
  simp only [Outcome.andThen_ok_iff, Outcome.pure_ok_iff] at hwhole hpart
  obtain ⟨unbounded, hunbounded, points, hpoints, values, hvalues, -, -, rfl⟩ := hwhole
  obtain ⟨range, hrange, points', hpoints', values', hvalues', -, -, rfl⟩ := hpart
  rw [points_between] at hpoints'
  rw [valued_between] at hvalues'
  have hopen : unbounded.isUnbounded = true := by
    obtain ⟨hstart, hend⟩ := TimelineQuery.bounds_of_range hunbounded
    simp only [HistoryQuery.make, hfirst, hlast] at hstart hend
    rw [DateRange.isUnbounded, ← Except.ok.inj hstart, ← Except.ok.inj hend]
    rfl
  have hdated : ∀ p ∈ points, p.timestamp.utcDate?.isSome := by
    intro p hp
    obtain ⟨value, hvalue⟩ := Outcome.exists_of_mapM hvalues hp
    obtain ⟨date, -, hdate, -⟩ := valued_ok_iff.1 hvalue
    exact Option.isSome_iff_exists.2 ⟨date, hdate⟩
  obtain rfl := TimelineQuery.points_eq_filter hpoints hpoints' hopen hdated hparse hdays
  have hchosen : ∀ p value, valued ledger.reads store.reads (.make timeline currency places) p = .ok value →
      range.contains value.date = range.covers p.timestamp := by
    intro p value hvalue
    obtain ⟨date, total, hdate, -, rfl⟩ := valued_ok_iff.1 hvalue
    rw [DateRange.covers, hdate, Option.any_some]
  obtain ⟨hstart, hend⟩ := TimelineQuery.bounds_of_range hrange
  exact ⟨hstart, hend, Except.ok.inj (hvalues'.symm.trans (Outcome.mapM_filter hvalues hchosen))⟩

open Collection (tradingDay)

def nextDay : Date := ⟨tradingDay.day + 1, by decide⟩

def purseOn (date : Date) (amount : String) : BalanceSnapshot :=
  .at (.endOfDay date) [⟨.known (.currency "USD"), .text amount⟩]

def countedPurse : Ledger :=
  (((Ledger.empty.putConnection ⟨"home", "Home", "manual"⟩).putAccount
    ⟨"purse", "Purse", "home", [], true⟩).addSnapshot "purse" (purseOn tradingDay "100")).addSnapshot "purse"
      (purseOn nextDay "80")

def dailyTimeline : TimelineQuery := ⟨none, none, "daily", true, false, [], none⟩

def purseChange (date : Date) : ChangePoint := ⟨.endOfDay date, [.balance "purse" (.currency "USD")]⟩

def pursePoint (date : Date) (total : String) : HistoryPoint :=
  ⟨.endOfDay date, date, total, some [(Trigger.balance "purse" (.currency "USD")).text]⟩

def wholePurse : HistoryReport :=
  ⟨"USD", ⟨none, none⟩, "daily", [pursePoint tradingDay "100", pursePoint nextDay "80"],
    some ⟨"100", "80", "-20", "-20.00"⟩⟩

def laterPurse : HistoryReport :=
  ⟨"USD", ⟨some nextDay, none⟩, "daily", [pursePoint nextDay "80"], none⟩

theorem whole_purse : (run countedPurse.reads MarketStore.empty.reads
    (.make dailyTimeline "USD" none)).outcome = .ok wholePurse := by
  rw [outcome_run]
  simp only [Outcome.andThen_ok_iff, Outcome.pure_ok_iff]
  exact ⟨⟨none, none⟩, rfl, [purseChange tradingDay, purseChange nextDay], by cbv, wholePurse.points,
    Outcome.ok_of_toOption (by decide +kernel), wholePurse.summary,
    Outcome.ok_of_toOption (by decide +kernel), rfl⟩

theorem later_purse : (run countedPurse.reads MarketStore.empty.reads
    (.make (dailyTimeline.between (some (.text "2020-01-02")) none) "USD" none)).outcome =
      .ok laterPurse := by
  rw [outcome_run]
  simp only [Outcome.andThen_ok_iff, Outcome.pure_ok_iff]
  exact ⟨⟨some nextDay, none⟩, Outcome.ok_of_toOption (by decide +kernel), [purseChange nextDay], by cbv,
    laterPurse.points, Outcome.ok_of_toOption (by decide +kernel), none, rfl, rfl⟩

/-- The later history of the purse is the whole one without its first point. -/
theorem counted_purse_sliced :
    dailyTimeline.first = none ∧ dailyTimeline.last = none ∧
    Granularity.parse dailyTimeline.granularity = .ok .daily ∧ Granularity.daily.WithinDays ∧
    (run countedPurse.reads MarketStore.empty.reads (.make dailyTimeline "USD" none)).outcome =
      .ok wholePurse ∧
    (run countedPurse.reads MarketStore.empty.reads
      (.make (dailyTimeline.between (some (.text "2020-01-02")) none) "USD" none)).outcome =
        .ok laterPurse ∧
    DateBound.read "start" (some (.text "2020-01-02")) = .ok laterPurse.range.first ∧
    DateBound.read "end" none = .ok laterPurse.range.last ∧
    laterPurse.points = wholePurse.points.filter fun p => laterPurse.range.contains p.date := by
  have hparse : Granularity.parse dailyTimeline.granularity = .ok .daily :=
    Outcome.ok_of_toOption (by decide +kernel)
  exact ⟨rfl, rfl, hparse, trivial, whole_purse, later_purse,
    bounded_is_slice rfl rfl hparse trivial whole_purse later_purse⟩

end HistoryReport

end NetWorth
