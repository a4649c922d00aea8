import Mathlib.Data.List.Sort
import NetWorth.Proofs.History.Slices
import NetWorth.Proofs.Timeline.GranularityWords

/-! # Requests that are refused

A request for change points is looked at in a fixed order: its bounds, its granularity, the currency that rates
are asked for, the accounts it names. The first thing that is wrong with it is what it is refused for, and
nothing that comes later can fail. -/
namespace NetWorth

open Outcome (FailsFirst FirstOf)

namespace DateBound

def date? : DateBound → Option Date
  | .date given => some given
  | .text value => Date.parse? value

def Malformed (field : String) (bound : Option DateBound) (failure : Failure) : Prop :=
  ∃ value, bound = some (.text value) ∧ Date.parse? value = none ∧
    failure = .service (.invalidDate value (some field))

theorem read_fails (field : String) (bound : Option DateBound) :
    FailsFirst [Malformed field bound] (read field bound) := by
  refine .single fun failure => ?_
  cases bound with
  | none => simp [read, Malformed]
  | some bound =>
    cases bound with
    | date given => simp [read, Malformed]
    | text value =>
      cases hparse : Date.parse? value <;> simp [read, Date.read, Malformed, hparse, Except.map, eq_comm]

theorem read_eq_ok {field : String} {bound : Option DateBound} {date : Option Date}
    (h : read field bound = .ok date) : date = bound.bind date? := by
  cases bound with
  | none => exact (Except.ok.inj h).symm
  | some bound =>
    cases bound with
    | date given => exact (Except.ok.inj h).symm
    | text value =>
      cases hparse : Date.parse? value <;> simp_all [read, Date.read, date?, Except.map, eq_comm]

end DateBound

namespace TimelineQuery

/-- Both bounds are dates, and the first one is after the last one. -/
def Reversed (query : TimelineQuery) (failure : Failure) : Prop :=
  ∃ first last, query.first.bind DateBound.date? = some first ∧ query.last.bind DateBound.date? = some last ∧
    last < first ∧ failure = .service (.validation
      ("Start date " ++ first.text ++ " is after end date " ++ last.text) (some "start"))

theorem range_fails (query : TimelineQuery) : FailsFirst
    [DateBound.Malformed "start" query.first, DateBound.Malformed "end" query.last, Reversed query]
    query.range := by
  refine (DateBound.read_fails "start" query.first).bind fun first hfirst => ?_
  refine (DateBound.read_fails "end" query.last).bind fun last hlast => .single fun failure => ?_
  rw [Reversed, ← DateBound.read_eq_ok hfirst, ← DateBound.read_eq_ok hlast]
  cases first with
  | none => simp
  | some first =>
    cases last with
    | none => simp
    | some last => by_cases hreversed : last < first <;> simp [hreversed, eq_comm]

theorem range_eq {query : TimelineQuery} {range : DateRange} (h : query.range = .ok range) :
    range.first = query.first.bind DateBound.date? ∧ range.last = query.last.bind DateBound.date? :=
  ⟨DateBound.read_eq_ok (bounds_of_range h).1, DateBound.read_eq_ok (bounds_of_range h).2⟩

end TimelineQuery

namespace Granularity

def Misspelled (value : String) (failure : Failure) : Prop :=
  (∀ g, ¬ Spells (folded value) g) ∧ failure = .service (.invalidGranularity value)

/-- The text is a duration of more digits than numbers may have. -/
def Overlong (value : String) (failure : Failure) : Prop :=
  ∃ duration : Duration, duration.WrittenAs (folded value).toList ∧
    Failure.greatestDigits < duration.digits.length ∧ failure = .tooManyDigits duration.digits.length

theorem parse_of_overlong {value : String} {duration : Duration} (h : duration.WrittenAs (folded value).toList)
    (hlong : Failure.greatestDigits < duration.digits.length) :
    parse value = .error (.tooManyDigits duration.digits.length) := by
  rw [parse, parseWithin_of_duration h]
  simp [Duration.window, hlong]

theorem parse_fails (value : String) : FailsFirst [Misspelled value, Overlong value] (parse value) := by
  intro failure
  constructor
  · intro h
    rcases parse_eq_or value with hparse | ⟨duration, hduration, hlong, hparse⟩
    · have hunspelled : ∀ g, ¬ Spells (folded value) g := by
        intro g hg
        rw [hparse, parseWithin_none_of_spells hg] at h
        cases h
      rw [hparse, parseWithin_of_unspelled hunspelled] at h
      exact .inl ⟨hunspelled, (Except.error.inj h).symm⟩
    · rw [hparse] at h
      refine .inr ⟨fun _ hmisspelled => hmisspelled.1 _ (.duration hduration), .inl ?_⟩
      exact ⟨duration, hduration, hlong, (Except.error.inj h).symm⟩
  · rintro (⟨hspelled, rfl⟩ | ⟨-, ⟨duration, hduration, hlong, rfl⟩ | ⟨-, ⟨⟩⟩⟩)
    · exact parseWithin_of_unspelled hspelled
    · exact parse_of_overlong hduration hlong

end Granularity

namespace Collection

def Untargeted (options : CollectOptions) (failure : Failure) : Prop :=
  (options.includeRates && (options.target.getD "").isEmpty) = true ∧ failure = .service
    (.validation "A target currency is required to collect FX change points" (some "currency"))

/-- Some of the accounts asked for are not in the ledger: these, each once, in ascending order. -/
def Unknown (ledger : Ledger) (requested : List String) (failure : Failure) : Prop :=
  ∃ ids : List String, ids ≠ [] ∧ ids.Pairwise (· < ·) ∧
    (∀ id, id ∈ ids ↔ id ∈ requested ∧ ∀ a ∈ Keyed.values ledger.accounts, a.id ≠ id) ∧
    failure = .service (.accountsNotFound ids)

theorem mem_missingIds {requested : List String} {accounts : List Account} {id : String} :
    id ∈ missingIds requested accounts ↔ id ∈ requested ∧ ∀ a ∈ accounts, a.id ≠ id := by
  simp [missingIds, ServiceFailure.sortedIds, List.mem_eraseDups]

theorem missingIds_ascending (requested : List String) (accounts : List Account) :
    (missingIds requested accounts).Pairwise (· < ·) := ascending_eraseDups _

theorem unknownAccounts_missingIds (requested : List String) (accounts : List Account) :
    ServiceFailure.unknownAccounts (missingIds requested accounts) =
      .accountsNotFound (missingIds requested accounts) := by
  have hsorted : (missingIds requested accounts).Pairwise fun a b => decide (a ≤ b) = true :=
    (missingIds_ascending requested accounts).imp fun h => decide_eq_true (le_of_lt h)
  rw [ServiceFailure.unknownAccounts, ServiceFailure.sortedIds, List.mergeSort_of_pairwise hsorted]

theorem unknown_iff {ledger : Ledger} {requested : List String} {failure : Failure} :
    Unknown ledger requested failure ↔ missingIds requested (Keyed.values ledger.accounts) ≠ [] ∧
      failure = .service (.accountsNotFound (missingIds requested (Keyed.values ledger.accounts))) := by
  constructor
  · rintro ⟨ids, hsome, hascending, hids, rfl⟩
    have heq : ids = missingIds requested (Keyed.values ledger.accounts) :=
      List.Pairwise.eq_of_mem_iff hascending (missingIds_ascending _ _) fun id => by rw [hids, mem_missingIds]
    exact ⟨heq ▸ hsome, heq ▸ rfl⟩
  · rintro ⟨hsome, rfl⟩
    exact ⟨_, hsome, missingIds_ascending _ _, fun id => mem_missingIds, rfl⟩

theorem chosenAccounts_fails (ledger : Ledger) (requested : List String) :
    FailsFirst [Unknown ledger requested] (chosenAccounts requested (Keyed.values ledger.accounts)).outcome := by
  refine .single fun failure => ?_
  rw [unknown_iff]
  unfold chosenAccounts
  cases requested with
  | nil => simp [missingIds, ServiceFailure.sortedIds]
  | cons id requested =>
    rw [if_neg (by simp)]
    cases hmissing : missingIds (id :: requested) (Keyed.values ledger.accounts) with
    | nil => simp
    | cons first missing =>
      have htold := unknownAccounts_missingIds (id :: requested) (Keyed.values ledger.accounts)
      rw [hmissing] at htold
      simp [htold, Except.bind, eq_comm]

variable {ledger : Ledger} {store : MarketStore}

/-- A collection is refused for want of a currency first, then for unknown accounts. -/
theorem run_fails (haware : ledger.Aware) {options : CollectOptions}
    (hknown : ledger.AssetsKnown options.accountIds) :
    FailsFirst [Untargeted options, Unknown ledger options.accountIds]
      (run ledger.reads store.reads options).outcome := by
  -- what follows the choice of accounts need not be opened: it ends well because the whole run does
  obtain ⟨rest, hrun⟩ : ∃ rest : List Account → Except Failure (List ChangePoint),
      (run ledger.reads store.reads options).outcome =
        if options.includeRates && (options.target.getD "").isEmpty then .error (.service
          (.validation "A target currency is required to collect FX change points" (some "currency")))
        else (chosenAccounts options.accountIds (Keyed.values ledger.accounts)).outcome.bind rest := by
    unfold run
    split
    · exact ⟨fun _ => .ok [], rfl⟩
    · exact ⟨_, by simp only [Journaled.outcome_bind, Journaled.outcome_of]; rfl⟩
  rw [hrun]
  refine .guard fun htarget => (chosenAccounts_fails ledger options.accountIds).bind fun accounts haccounts => ?_
  have hanswerable : Answerable ledger options := by
    refine ⟨fun hrates => ?_, (chosenAccounts_ok_iff.1 haccounts).1⟩
    simpa [hrates] using htarget
  obtain ⟨points, hpoints⟩ : ∃ points, (run ledger.reads store.reads options).outcome = .ok points :=
    exists_points haware hanswerable hknown
  rw [hrun, if_neg htarget, haccounts] at hpoints
  have hrest : rest accounts = .ok points := hpoints
  rw [hrest]
  exact .ok points

end Collection

namespace Ledger

/-- All snapshots have a date in universal time. -/
def Dated (ledger : Ledger) : Prop := ∀ id, ∀ s ∈ ledger.snapshotsOf id, s.timestamp.utcDate?.isSome = true

end Ledger

namespace Collection

variable {ledger : Ledger} {store : MarketStore} {options : CollectOptions}

theorem placeable_of_collected (haware : ledger.Aware) (hdated : ledger.Dated) {points : List ChangePoint}
    (h : (run ledger.reads store.reads options).outcome = .ok points) :
    ∀ p ∈ points, Granularity.Placeable p.timestamp := by
  intro p hp
  have hpoints := pointsOf_of_run h
  obtain ⟨trigger, htrigger⟩ := List.exists_mem_of_ne_nil _ (hpoints.nonempty p hp)
  obtain ⟨event, hevent, hmoment, -⟩ := hpoints.exists_event hp htrigger
  have hplaced : event.timestamp.isAware = true ∧ event.timestamp.utcDate?.isSome = true := by
    obtain hbalance | ⟨id, price, rfl⟩ | ⟨code, rate, rfl⟩ := timeline_cases hevent
    · obtain ⟨a, -, s, hs, -, -, -, -, rfl⟩ := mem_balanceEvents.1 hbalance
      exact ⟨haware a.id s hs, hdated a.id s hs⟩
    · exact ⟨rfl, by simp [priceEvent]⟩
    · exact ⟨rfl, by simp [rateEvent]⟩
  have hinstant : event.timestamp.instant = p.timestamp.instant := congrArg Prod.snd hmoment
  have hoffset : event.timestamp.isAware = p.timestamp.isAware := congrArg Prod.fst hmoment
  exact ⟨Timestamp.utcDate?_congr hinstant ▸ hplaced.2, .inl (hoffset ▸ hplaced.1)⟩

end Collection

/-- Points that have dates can be told inside a range from those outside. -/
theorem DateRange.exists_kept {α : Type} {time : α → Timestamp} {points : List α} (range : DateRange)
    (hdated : ∀ p ∈ points, (time p).utcDate?.isSome) : ∃ kept, range.keep time points = .ok kept := by
  unfold keep
  split
  · exact ⟨points, rfl⟩
  · refine Outcome.exists_filterM fun p hp => ?_
    obtain ⟨date, hdate⟩ := Option.isSome_iff_exists.1 (hdated p hp)
    exact ⟨range.contains date, by rw [holds, hdate]⟩

theorem Granularity.exists_thinned {α : Type} {time : α → Timestamp} {points : List α} (g : Granularity)
    (which : Keep) (h : ∀ p ∈ points, Placeable (time p)) :
    ∃ thinned, g.thin which time points = .ok thinned := by
  cases hall : g.keepsAll with
  | true => exact ⟨points, if_pos hall⟩
  | false => exact ⟨_, thin_eq hall h⟩

namespace TimelineQuery

variable {ledger : Ledger} {store : MarketStore}

/-- Everything that can be wrong with a request, in the order in which it is looked at. -/
def complaints (ledger : Ledger) (query : TimelineQuery) : List (Failure → Prop) :=
  [DateBound.Malformed "start" query.first, DateBound.Malformed "end" query.last, Reversed query,
    Granularity.Misspelled query.granularity, Granularity.Overlong query.granularity,
    Collection.Untargeted query.options, Collection.Unknown ledger query.accountIds]

theorem points_fails (haware : ledger.Aware) (hdated : ledger.Dated) {query : TimelineQuery}
    (hknown : ledger.AssetsKnown query.accountIds) (range : DateRange) :
    FailsFirst [Granularity.Misspelled query.granularity, Granularity.Overlong query.granularity,
        Collection.Untargeted query.options, Collection.Unknown ledger query.accountIds]
      (query.points ledger.reads store.reads range).outcome := by
  simp only [points, Journaled.outcome_bind, Journaled.outcome_of]
  refine (Granularity.parse_fails query.granularity).bind fun g _ => ?_
  refine (Collection.run_fails haware hknown).bind fun collected hcollected => ?_
  have hplaceable := Collection.placeable_of_collected haware hdated hcollected
  obtain ⟨kept, hkept⟩ := range.exists_kept fun p hp => (hplaceable p hp).dated
  obtain ⟨thinned, hthinned⟩ := g.exists_thinned .last fun p hp => hplaceable p (DateRange.subset_of_keep hkept hp)
  rw [hkept]
  show FailsFirst [] (g.thin .last ChangePoint.timestamp kept)
  rw [hthinned]
  exact .ok thinned

end TimelineQuery

namespace ChangeReport

variable {ledger : Ledger} {store : MarketStore} {query : TimelineQuery}

/-- A change report fails for the first thing that is wrong with its request. -/
theorem run_fails (haware : ledger.Aware) (hdated : ledger.Dated) (hknown : ledger.AssetsKnown query.accountIds) :
    FailsFirst (query.complaints ledger) (run ledger.reads store.reads query).outcome := by
  simp only [run, Journaled.outcome_bind, Journaled.outcome_of, Journaled.outcome_pure]
  refine query.range_fails.bind fun range _ => ?_
  exact (TimelineQuery.points_fails haware hdated hknown range).bind fun points _ => .ok _

def Within (query : TimelineQuery) (point : ChangePoint) : Prop :=
  ∃ date, point.timestamp.utcDate? = some date ∧
    (∀ first, query.first.bind DateBound.date? = some first → first ≤ date) ∧
    ∀ last, query.last.bind DateBound.date? = some last → date ≤ last

theorem within_bounds (haware : ledger.Aware) (hdated : ledger.Dated) {report : ChangeReport}
    (h : (run ledger.reads store.reads query).outcome = .ok report) : ∀ p ∈ report.points, Within query p := by
  simp only [run, TimelineQuery.points, Journaled.outcome_bind, Journaled.outcome_of, Journaled.outcome_pure,
    Outcome.bind_ok_iff, Except.ok.injEq] at h
  obtain ⟨range, hrange, points, ⟨g, -, collected, hcollected, kept, hkept, hthinned⟩, rfl⟩ := h
  have hplaceable := Collection.placeable_of_collected haware hdated hcollected
  intro p hp
  have hmem : p ∈ kept := Granularity.subset_of_thin hthinned hp
  rw [DateRange.eq_filter_of_keep hkept fun p hp => (hplaceable p hp).dated, List.mem_filter] at hmem
  obtain ⟨date, hdate⟩ := Option.isSome_iff_exists.1 (hplaceable p hmem.1).dated
  have hcontains : range.contains date = true := by
    have hcovers := hmem.2
    rwa [DateRange.covers, hdate, Option.any_some] at hcovers
  obtain ⟨hfirst, hlast⟩ := TimelineQuery.range_eq hrange
  rw [DateRange.contains, hfirst, hlast, Bool.and_eq_true] at hcontains
  refine ⟨date, hdate, fun first hbound => ?_, fun last hbound => ?_⟩
  · simpa [hbound] using hcontains.1
  · simpa [hbound] using hcontains.2

end ChangeReport

/-- A history is refused for what the change report of its request is refused for. -/
theorem HistoryReport.error_of_changes {ledger : LedgerReads} {market : MarketReads} {timeline : TimelineQuery}
    {currency : String} (places : Option Int) {failure : Failure}
    (h : (ChangeReport.run ledger market { timeline with currency := some currency }).outcome = .error failure) :
    (run ledger market (.make timeline currency places)).outcome = .error failure := by
  simp only [ChangeReport.run, Journaled.outcome_bind, Journaled.outcome_of, Outcome.bind_error_iff] at h
  rw [outcome_run]
  rcases h with hrange | ⟨range, hrange, hpoints⟩
  · exact Outcome.bind_error_iff.2 (.inl hrange)
  · refine Outcome.bind_error_iff.2 (.inr ⟨range, hrange, Outcome.bind_error_iff.2 (.inl ?_)⟩)
    rcases hpoints with hrefused | ⟨points, -, hanswered⟩
    · exact hrefused
    · cases hanswered

/-- A request for change points is refused for the first thing that is wrong with it, and if nothing is, it is
answered with points between its bounds. A history is refused for the same. -/
theorem TimelineQuery.refused_for_first_complaint {ledger : Ledger} (hledger : ledger.Recorded)
    (hdated : ledger.Dated) (store : MarketStore) (query : TimelineQuery)
    (hknown : ledger.AssetsKnown query.accountIds) :
    (∀ failure, (ChangeReport.run ledger.reads store.reads query).outcome = .error failure ↔
      FirstOf (query.complaints ledger) failure) ∧
    ((∀ failure, ¬ FirstOf (query.complaints ledger) failure) →
      ∃ report, (ChangeReport.run ledger.reads store.reads query).outcome = .ok report ∧
        ∀ p ∈ report.points, ChangeReport.Within query p) ∧
    (∀ places failure, FirstOf (query.complaints ledger) failure →
      (HistoryReport.run ledger.reads store.reads
        (.make query (query.currency.getD "") places)).outcome = .error failure) := by
  have hfails : FailsFirst (query.complaints ledger) (ChangeReport.run ledger.reads store.reads query).outcome :=
    ChangeReport.run_fails hledger.aware hdated hknown
  refine ⟨hfails, fun hnone => ?_, fun places failure hfirst => ?_⟩
  · obtain ⟨report, hreport⟩ := hfails.exists_ok hnone
    exact ⟨report, hreport, ChangeReport.within_bounds hledger.aware hdated hreport⟩
  · refine HistoryReport.error_of_changes places ((ChangeReport.run_fails hledger.aware hdated ?_ failure).2 ?_)
    · exact hknown
    · exact hfirst

namespace TimelineQuery

open Collection (shareLedger shareStore tradingDay acme)

/-- Two unknown accounts are asked for beside a known one, one of them twice. -/
def savingsTimeline : TimelineQuery :=
  ⟨none, none, "Daily", true, true, ["savings", "depot", "cash", "savings"], some "USD"⟩

theorem shareLedger_snapshots : ∀ id, ∀ s ∈ shareLedger.snapshotsOf id,
    s = .at (.endOfDay tradingDay) [⟨.known acme, .text "10"⟩] := by
  intro id s hs
  rw [shareLedger, Ledger.snapshotsOf_addSnapshot] at hs
  split at hs
  · exact List.mem_singleton.1 hs
  · contradiction

theorem savings_first_complaint : FirstOf (savingsTimeline.complaints shareLedger)
    (.service (.accountsNotFound ["cash", "savings"])) := by
  have hdaily : Granularity.Spells (Granularity.folded "Daily") .daily := .name (by decide +kernel)
  have hunread : Granularity.ofWord? (Granularity.folded "Daily") ≠ none := by decide +kernel
  refine .inr ⟨?_, .inr ⟨?_, .inr ⟨?_, .inr ⟨?_, .inr ⟨?_, .inr ⟨?_, .inl ?_⟩⟩⟩⟩⟩⟩
  · rintro failure ⟨value, ⟨⟩, -⟩
  · rintro failure ⟨value, ⟨⟩, -⟩
  · rintro failure ⟨first, last, ⟨⟩, -⟩
  · exact fun failure hmisspelled => hmisspelled.1 .daily hdaily
  · rintro failure ⟨duration, hduration, -⟩
    exact hunread hduration.ofWord?
  · rintro failure ⟨hrates, -⟩
    exact absurd hrates (by decide)
  · refine ⟨["cash", "savings"], by decide, by decide, fun id => ?_, rfl⟩
    have haccounts : Keyed.values shareLedger.accounts = [⟨"depot", "Depot", "broker", [], true⟩] := rfl
    simp only [savingsTimeline, haccounts, List.mem_cons, List.not_mem_nil, or_false, forall_eq]
    constructor
    · rintro (rfl | rfl) <;> decide
    · rintro ⟨rfl | rfl | rfl | rfl, hdepot⟩ <;> simp_all

/-- The share's change report is refused for the accounts that nobody knows, each named once and in order. -/
theorem savings_are_unknown : shareLedger.Recorded ∧ shareLedger.Dated ∧
    shareLedger.AssetsKnown savingsTimeline.accountIds ∧
    (ChangeReport.run shareLedger.reads shareStore.reads savingsTimeline).outcome =
      .error (.service (.accountsNotFound ["cash", "savings"])) := by
  have hledger : shareLedger.Recorded :=
    .snapshot "depot" (.endOfDay tradingDay) _ (.account _ (.connection _ .empty))
  have hdated : shareLedger.Dated := by
    intro id s hs
    rw [shareLedger_snapshots id s hs]
    show (Timestamp.endOfDay tradingDay).utcDate?.isSome = true
    simp
  have hknown : shareLedger.AssetsKnown savingsTimeline.accountIds := by
    intro a _ s hs b hb
    rw [shareLedger_snapshots a.id s hs] at hb
    obtain rfl := List.mem_singleton.1 hb
    exact ⟨acme, rfl⟩
  exact ⟨hledger, hdated, hknown,
    ((refused_for_first_complaint hledger hdated shareStore savingsTimeline hknown).1 _).2 savings_first_complaint⟩

def longDays (count : Nat) : String := String.ofList (List.replicate count '1' ++ ['d'])

theorem folded_longDays (count : Nat) :
    (Granularity.folded (longDays count)).toList = List.replicate count '1' ++ ['d'] := by
  have hsolid : ∀ c ∈ List.replicate count '1' ++ ['d'],
      Text.isBlank c = false ∧ Text.lowerChar c = [c] ∧ c ≠ 'Σ' := by
    intro c hc
    rcases List.mem_append.1 hc with hdigit | hunit
    · rw [(List.mem_replicate.1 hdigit).2]
      decide +kernel
    · rw [List.mem_singleton.1 hunit]
      decide +kernel
  have htrimmed : Text.Trimmed (List.replicate count '1' ++ ['d']) :=
    ⟨fun c hc => (hsolid c (List.mem_of_mem_head? hc)).1, fun c hc => (hsolid c (List.mem_of_mem_getLast? hc)).1⟩
  rw [Granularity.folded, Text.toList_lower, Text.toList_trim, longDays, String.toList_ofList, htrimmed.trimChars_eq,
    Text.lowerChars, Text.lowerAfter_eq_self fun c hc => (hsolid c hc).2]

theorem parse_longDays {count : Nat} (h : Failure.greatestDigits < count) :
    Granularity.parse (longDays count) = .error (.tooManyDigits count) := by
  have hdigits : List.replicate count '1' ≠ [] := by
    rw [ne_eq, List.replicate_eq_nil_iff]
    omega
  have hall : ∀ c ∈ List.replicate count '1', Text.isDigit c = true := by
    intro c hc
    rw [(List.mem_replicate.1 hc).2]
    decide
  have hwritten : Granularity.Duration.WrittenAs ⟨List.replicate count '1', 86400000⟩
      (Granularity.folded (longDays count)).toList := by
    rw [folded_longDays, ← List.nil_append ['d']]
    exact .intro hdigits hall nofun (by simp [Granularity.units])
  rw [Granularity.parse_of_overlong hwritten (by rwa [List.length_replicate]), List.length_replicate]

/-- A duration of more digits than numbers may have is not read, and yet it is not refused as no granularity. -/
theorem long_days_are_no_invalid_granularity :
    (∀ g, Granularity.parse (longDays 4301) ≠ .ok g) ∧
    (ChangeReport.run Ledger.empty.reads MarketStore.empty.reads
      ⟨none, none, longDays 4301, true, false, [], none⟩).outcome = .error (.tooManyDigits 4301) ∧
    Failure.tooManyDigits 4301 ≠ .service (.invalidGranularity (longDays 4301)) := by
  have hparse := parse_longDays (show Failure.greatestDigits < 4301 by decide)
  refine ⟨fun g hg => ?_, ?_, nofun⟩
  · rw [hparse] at hg
    cases hg
  · simp only [ChangeReport.run, points, Journaled.outcome_bind, Journaled.outcome_of, hparse]
    rfl

end TimelineQuery

end NetWorth
