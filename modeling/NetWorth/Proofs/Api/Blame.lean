import NetWorth.Api.Server
import NetWorth.Proofs.History.Rejections
import NetWorth.Proofs.Valuation.Failures

/-! # What failures are held against

A failure is held against a part of the request, against what a record says, or against nothing in
particular. A valuation can blame recorded amounts, prices and rates only, a timeline its bounds and its
granularity, so a request that leaves a part to the settings is refused for that part exactly if the settings
cannot be used for it. -/
namespace NetWorth

open Outcome (FailsOnly)

namespace Failure

/-- What a failure is held against. Only the numbers of durations are ever too long. -/
def blamed : Failure → Option String
  | .service cause => cause.field
  | .tooManyDigits _ => some "granularity"
  | _ => none

/-- Whatever the failure is held against is one of the parts. -/
def Blames (parts : List String) (failure : Failure) : Prop := ∀ part ∈ failure.blamed, part ∈ parts

variable {parts : List String} {failure : Failure}

theorem Blames.nothing (h : failure.blamed = none) : failure.Blames parts := by
  simp [Blames, h]

theorem Blames.part {part : String} (h : failure.blamed = some part) (hpart : part ∈ parts) :
    failure.Blames parts := by
  simpa [Blames, h] using hpart

theorem Blames.spares (h : failure.Blames parts) {part : String} (hpart : part ∉ parts) :
    failure.blamed ≠ some part :=
  fun hblamed => hpart (h part hblamed)

theorem blames_arithmetic (signal : Decimal.Signal) : (arithmetic signal).Blames parts := .nothing rfl

end Failure

section

variable {parts : List String}

/-- What is no decimal is held against the part that it stands for. -/
theorem Amount.read_blames {value : Json} {field : Option String} (h : ∀ part ∈ field, part ∈ parts) :
    FailsOnly (Failure.Blames parts) (Amount.read value field) := by
  intro failure hfailure
  obtain ⟨-, rfl⟩ := Amount.read_error hfailure
  exact h

theorem Amount.format_blames (value : Number) (places : Option Int) :
    FailsOnly (Failure.Blames parts) (Amount.format value places) := by
  unfold Amount.format
  split
  · exact .ok _
  · refine FailsOnly.map ?_ _
    unfold Amount.round
    split
    · exact .error (.nothing rfl)
    · exact ofSignal_failsOnly Failure.blames_arithmetic _

theorem AssetRecord.asset_blames (record : AssetRecord) : FailsOnly (Failure.Blames parts) record.asset := by
  cases record with
  | known asset => exact .ok asset
  | unrecognised value => exact .error (.nothing rfl)

theorem EffectiveBalance.date_blames (effective : EffectiveBalance) :
    FailsOnly (Failure.Blames parts) effective.date := by
  unfold EffectiveBalance.date
  split
  · exact .ok _
  · exact .error (.nothing rfl)

theorem Backfill.ofWord_blames (word : String) : FailsOnly (Failure.Blames parts) (Backfill.ofWord word) := by
  unfold Backfill.ofWord
  split_ifs
  · exact .ok _
  · exact .ok _
  · exact .ok _
  · exact .error (.nothing rfl)

namespace Valuation

variable (ledger : Ledger) (store : MarketStore) (query : ValuationQuery)

theorem effectiveBalance_blames (account : Account) :
    FailsOnly (Failure.Blames parts) (effectiveBalance ledger.reads query account).outcome := by
  simp only [effectiveBalance, Journaled.outcome_bind, Journaled.outcome_of]
  refine (FailsOnly.ok _).bind fun overrides _ => ?_
  split
  · exact .ok none
  · simp only [Journaled.outcome_bind, Journaled.outcome_of]
    refine (FailsOnly.ok _).bind fun snapshots _ => ?_
    refine (Backfill.ofWord_blames _).bind fun policy _ => ?_
    rw [EffectiveBalance.select_outcome]
    exact .ok _

/-- A valuation of any ledger blames what was recorded only, whatever is asked of it. -/
theorem run_blames (hparts : Valuation.parts ⊆ parts) :
    FailsOnly (Failure.Blames parts) (run ledger.reads store.reads query).outcome := by
  refine StepsFail.run ⟨effectiveBalance_blames ledger query, ?_, ?_, ?_, Failure.blames_arithmetic, ?_⟩
  · exact fun balances _ e _ => e.date_blames
  · exact fun balances _ e _ b _ => b.asset.asset_blames
  · exact fun value _ field hfield => Amount.read_blames fun part hpart => hparts (hfield part hpart)
  · exact fun n => Amount.format_blames n query.places

end Valuation

end

section

variable {parts : List String}

theorem Date.read_blames {value field : String} (h : field ∈ parts) :
    FailsOnly (Failure.Blames parts) (Date.read value (some field)) := by
  unfold Date.read
  split
  · exact .ok _
  · exact .error (.part rfl h)

theorem DateBound.read_blames {field : String} (h : field ∈ parts) (bound : Option DateBound) :
    FailsOnly (Failure.Blames parts) (DateBound.read field bound) := by
  unfold DateBound.read
  split
  · exact .ok _
  · exact .ok _
  · exact (Date.read_blames h).map some

def TimelineQuery.bounds : List String := ["start", "end"]

theorem TimelineQuery.range_blames (hbounds : bounds ⊆ parts) (query : TimelineQuery) :
    FailsOnly (Failure.Blames parts) query.range := by
  refine FailsOnly.bind (DateBound.read_blames (hbounds (by decide)) query.first) fun first _ => ?_
  refine FailsOnly.bind (DateBound.read_blames (hbounds (by decide)) query.last) fun last _ => ?_
  split
  · split
    · exact .error (.part rfl (hbounds (by decide)))
    · exact .ok _
  · exact .ok _

theorem Granularity.blamed_of_parse {value : String} {failure : Failure} (h : parse value = .error failure) :
    failure.blamed = some "granularity" := by
  rcases (parse_fails value failure).1 h with ⟨-, rfl⟩ | ⟨-, ⟨duration, -, -, rfl⟩ | ⟨-, ⟨⟩⟩⟩
  · rfl
  · rfl

namespace Collector

theorem requireOpen_blames (collector : Collector) : FailsOnly (Failure.Blames parts) collector.requireOpen := by
  unfold requireOpen
  split
  · exact .error (.nothing rfl)
  · exact .ok ()

theorem addBalance_blames (collector : Collector) (t : Timestamp) (accountId : String) (record : AssetRecord) :
    FailsOnly (Failure.Blames parts) (collector.addBalance t accountId record) :=
  FailsOnly.bind collector.requireOpen_blames fun _ _ =>
    FailsOnly.bind record.asset_blames fun _ _ => .ok _

theorem addPrice_blames (collector : Collector) (t : Timestamp) (id : AssetId) :
    FailsOnly (Failure.Blames parts) (collector.addPrice t id) :=
  FailsOnly.bind collector.requireOpen_blames fun _ _ => .ok _

theorem addRate_blames (collector : Collector) (t : Timestamp) (base quote : String) :
    FailsOnly (Failure.Blames parts) (collector.addRate t base quote) :=
  FailsOnly.bind collector.requireOpen_blames fun _ _ => .ok _

theorem finish_blames (collector : Collector) : FailsOnly (Failure.Blames parts) collector.finish.1 := by
  unfold finish
  split
  · exact .error (.nothing rfl)
  · split
    · exact .ok _
    · exact .error (.nothing rfl)

end Collector

namespace Collection

variable (ledger : Ledger) (store : MarketStore) (options : CollectOptions)

theorem chosenAccounts_blames (requested : List String) (accounts : List Account) :
    FailsOnly (Failure.Blames parts) (chosenAccounts requested accounts).outcome := by
  unfold chosenAccounts
  split
  · exact .ok _
  · simp only
    split
    · exact .ok _
    · simp only [Journaled.outcome_bind, Journaled.outcome_note, Journaled.outcome_refuse]
      exact (FailsOnly.ok ()).bind fun _ _ => .error (.nothing rfl)

theorem addAccount_blames (collector : Collector) (account : Account) :
    FailsOnly (Failure.Blames parts) (addAccount ledger.reads collector account) := by
  have hoverrides : FailsOnly (Failure.Blames parts) (ledger.reads.overrides account.id) := .ok _
  have hsnapshots : FailsOnly (Failure.Blames parts) (ledger.reads.snapshots account.id) := .ok _
  unfold addAccount
  refine hoverrides.bind fun overrides _ => ?_
  simp only
  split
  · exact .ok _
  · refine hsnapshots.bind fun snapshots _ => FailsOnly.foldlM (fun c s _ => ?_) collector
    exact FailsOnly.foldlM (fun c b _ => c.addBalance_blames _ _ _) c

theorem addHeld_blames (passage : Passage) (entry : AssetId × Asset) :
    FailsOnly (Failure.Blames parts) (addHeld store.reads options passage entry) := by
  simp only [addHeld]
  split
  · have hprices : FailsOnly (Failure.Blames parts) (store.reads.prices entry.1) := .ok _
    refine hprices.bind fun prices _ => FailsOnly.foldlM (fun p price _ => ?_) _
    simp only [addPriceOf]
    split
    · exact FailsOnly.bind (p.collector.addPrice_blames _ _) fun c _ => .ok _
    · exact .ok _
  · exact .ok _

theorem addRates_blames (passage : Passage) :
    FailsOnly (Failure.Blames parts) (addRates store.reads options passage) := by
  unfold addRates
  split
  · refine FailsOnly.foldlM (fun c code _ => ?_) _
    have hrates (target : String) : FailsOnly (Failure.Blames parts) (store.reads.rates code target) := .ok _
    exact (hrates _).bind fun rates _ => FailsOnly.foldlM (fun c _ _ => c.addRate_blames _ _ _) c
  · exact .ok _

/-- Towards a currency, collecting blames nothing that was asked for. -/
theorem run_blames (htarget : (options.target.getD "").isEmpty = false) :
    FailsOnly (Failure.Blames parts) (run ledger.reads store.reads options).outcome := by
  -- the complaint about a missing currency is the only one with a name, and `htarget` rules it out
  simp only [run, htarget, Bool.and_false, Bool.false_eq_true, if_false, Journaled.outcome_bind,
    Journaled.outcome_of]
  refine (FailsOnly.ok _).bind fun known _ => ?_
  refine (chosenAccounts_blames _ known).bind fun accounts _ => ?_
  refine (FailsOnly.foldlM (fun c account _ => addAccount_blames ledger c account) _).bind fun balances _ => ?_
  refine (FailsOnly.foldlM (fun p entry _ => addHeld_blames store options p entry) _).bind fun passage _ => ?_
  refine (addRates_blames store options passage).bind fun collector _ => ?_
  exact collector.finish_blames.bind fun points _ => (FailsOnly.ok _).bind fun _ _ => .ok points

end Collection

section

variable {α : Type} (time : α → Timestamp) (points : List α)

theorem DateRange.keep_blames (range : DateRange) :
    FailsOnly (Failure.Blames parts) (range.keep time points) := by
  unfold keep
  split
  · exact .ok _
  · refine FailsOnly.filterM fun point _ => ?_
    unfold holds
    split
    · exact .ok _
    · exact .error (.nothing rfl)

theorem Granularity.bucketOf_blames (g : Granularity) (point : α) :
    FailsOnly (Failure.Blames parts) (g.bucketOf time point) := by
  refine FailsOnly.map ?_ _
  unfold placed
  split
  · exact .error (.nothing rfl)
  · split
    · exact .ok _
    · exact .error (.nothing rfl)

theorem Granularity.thin_blames (g : Granularity) (which : Keep) :
    FailsOnly (Failure.Blames parts) (g.thin which time points) := by
  unfold thin
  split
  · exact .ok _
  · refine FailsOnly.bind (FailsOnly.foldlM (fun buckets point _ => ?_) []) fun buckets _ => .ok _
    refine FailsOnly.bind (g.bucketOf_blames time point) fun key _ => ?_
    split <;> exact .ok _

end

variable (ledger : Ledger) (store : MarketStore)

/-- A timeline towards a currency blames its granularity at most. -/
theorem TimelineQuery.points_blames {query : TimelineQuery} (htarget : (query.currency.getD "").isEmpty = false)
    (hgranularity : FailsOnly (Failure.Blames parts) (Granularity.parse query.granularity)) (range : DateRange) :
    FailsOnly (Failure.Blames parts) (query.points ledger.reads store.reads range).outcome := by
  simp only [points, Journaled.outcome_bind, Journaled.outcome_of]
  refine hgranularity.bind fun g _ => ?_
  refine (Collection.run_blames ledger store query.options htarget).bind fun collected _ => ?_
  exact (range.keep_blames _ collected).bind fun kept _ => g.thin_blames _ kept .last

theorem HistorySummary.ofValues_blames (values : List String) :
    FailsOnly (Failure.Blames parts) (ofValues values) := by
  unfold ofValues
  split
  · refine FailsOnly.map ?_ some
    refine FailsOnly.bind (Amount.read_blames (by simp)) fun initial _ => ?_
    refine FailsOnly.bind (Amount.read_blames (by simp)) fun final _ => ?_
    refine FailsOnly.bind (ofSignal_failsOnly Failure.blames_arithmetic _) fun change _ => ?_
    exact FailsOnly.bind (ofSignal_failsOnly Failure.blames_arithmetic _) fun percent _ => .ok _
  · exact .ok none

theorem ChangeReport.run_blames (hbounds : TimelineQuery.bounds ⊆ parts) (query : TimelineQuery)
    (htarget : (query.currency.getD "").isEmpty = false)
    (hgranularity : FailsOnly (Failure.Blames parts) (Granularity.parse query.granularity)) :
    FailsOnly (Failure.Blames parts) (run ledger.reads store.reads query).outcome := by
  simp only [run, Journaled.outcome_bind, Journaled.outcome_of]
  refine (query.range_blames hbounds).bind fun range _ => ?_
  exact (TimelineQuery.points_blames ledger store htarget hgranularity range).bind fun points _ => .ok _

theorem HistoryReport.valued_blames (hparts : Valuation.parts ⊆ parts) (query : HistoryQuery)
    (point : ChangePoint) : FailsOnly (Failure.Blames parts) (valued ledger.reads store.reads query point) := by
  unfold valued
  split
  · exact .error (.nothing rfl)
  · exact ((Valuation.run_blames ledger store _ hparts).map _).map _

theorem HistoryReport.run_blames (hbounds : TimelineQuery.bounds ⊆ parts) (hparts : Valuation.parts ⊆ parts)
    (query : HistoryQuery) (htarget : (query.timeline.currency.getD "").isEmpty = false)
    (hgranularity : FailsOnly (Failure.Blames parts) (Granularity.parse query.timeline.granularity)) :
    FailsOnly (Failure.Blames parts) (run ledger.reads store.reads query).outcome := by
  rw [outcome_run]
  refine FailsOnly.bind (query.timeline.range_blames hbounds) fun range _ => ?_
  refine FailsOnly.bind (TimelineQuery.points_blames ledger store htarget hgranularity range) fun timeline _ => ?_
  refine FailsOnly.bind (FailsOnly.mapM fun point _ => valued_blames ledger store hparts query point)
    fun points _ => ?_
  exact FailsOnly.bind (HistorySummary.ofValues_blames _) fun summary _ => .ok _

theorem Body.instant_blames (write : Timestamp → Option String) (t : Timestamp) :
    FailsOnly (Failure.Blames parts) (instant write t) := by
  unfold instant
  split
  · exact .ok _
  · exact .error (.nothing rfl)

end

/-- The parts of a request that are left to the settings. -/
def SnapshotParams.leftOpen (params : SnapshotParams) : List String :=
  if (params.currency.getD "").isEmpty then ["currency"] else []

def TimelineParams.leftOpen (params : TimelineParams) : List String :=
  (if (params.currency.getD "").isEmpty then ["currency"] else []) ++
    if (params.granularity.getD "").isEmpty then ["granularity"] else []

/-- The endpoints at work on a ledger and a store. -/
def Wiring.ofStores (ledger : Ledger) (store : MarketStore) (s : Settings) (today : Date) (opening : List Line) :
    Wiring := ⟨ledger.reads, store.reads, s, today, opening⟩

/-- No request that leaves a part to the settings is refused for that part. -/
def Settings.Serves (s : Settings) (part : String) : Prop :=
  ∀ (ledger : Ledger) (store : MarketStore) (today : Date) (opening : List Line),
    (∀ params : SnapshotParams, part ∈ params.leftOpen → FailsOnly (·.blamed ≠ some part)
      (Server.snapshot (.ofStores ledger store s today opening) params).outcome) ∧
    ∀ params : TimelineParams, part ∈ params.leftOpen →
      FailsOnly (·.blamed ≠ some part)
        (Server.history (.ofStores ledger store s today opening) params).outcome ∧
      FailsOnly (·.blamed ≠ some part)
        (Server.changePoints (.ofStores ledger store s today opening) params).outcome

namespace Server

theorem orElse_of_open {given : Option String} {fallback : String} (h : (given.getD "").isEmpty = true) :
    orElse given fallback = fallback := if_pos h

theorem orElse_ne_empty {fallback : String} (h : fallback ≠ "") (given : Option String) :
    (orElse given fallback).isEmpty = false := by
  unfold orElse
  simp only
  split
  · simpa using h
  · rename_i hgiven
    exact Bool.eq_false_iff.2 hgiven

variable {parts : List String} (ledger : Ledger) (store : MarketStore) (s : Settings) (today : Date)
  (opening : List Line)

/-- An endpoint for snapshots blames the date and what was recorded. -/
theorem snapshot_blames (params : SnapshotParams) (hdate : "date" ∈ parts) (hparts : Valuation.parts ⊆ parts) :
    FailsOnly (Failure.Blames parts) (snapshot (.ofStores ledger store s today opening) params).outcome := by
  simp only [snapshot, Journaled.outcome_bind, Journaled.outcome_of]
  refine FailsOnly.bind ?_ fun date _ => ?_
  · unfold snapshotDate
    simp only
    split
    · exact .ok _
    · exact Date.read_blames hdate
  refine (Valuation.run_blames ledger store _ hparts).bind fun valuation _ => ?_
  refine FailsOnly.bind ?_ fun body _ => .ok _
  refine FailsOnly.bind (AssetRow.optionally_failsOnly fun rows _ => FailsOnly.mapM fun row _ => ?_)
    fun assets _ => .ok _
  exact FailsOnly.bind (AssetRow.optionally_failsOnly fun t _ => Body.instant_blames _ t) fun captured _ => .ok _

variable (hbounds : TimelineQuery.bounds ⊆ parts) (hcurrency : s.reportingCurrency ≠ "") (params : TimelineParams)
  (hgranularity : FailsOnly (Failure.Blames parts)
    (Granularity.parse (orElse params.granularity s.defaultGranularity)))

include hbounds hcurrency hgranularity

theorem changePoints_blames :
    FailsOnly (Failure.Blames parts) (changePoints (.ofStores ledger store s today opening) params).outcome := by
  have hreport := ChangeReport.run_blames ledger store hbounds
    (timelineQuery (.ofStores ledger store s today opening) params)
    (orElse_ne_empty hcurrency params.currency) hgranularity
  simp only [changePoints, Journaled.outcome_bind, Journaled.outcome_of]
  refine hreport.bind fun report _ => FailsOnly.bind ?_ fun body _ => .ok _
  refine FailsOnly.bind (FailsOnly.mapM fun point _ => ?_) fun lines _ => .ok _
  exact FailsOnly.bind (Body.instant_blames _ _) fun text _ => .ok _

theorem history_blames (hparts : Valuation.parts ⊆ parts) :
    FailsOnly (Failure.Blames parts) (history (.ofStores ledger store s today opening) params).outcome := by
  have hreport := HistoryReport.run_blames ledger store hbounds hparts
    (.make (timelineQuery (.ofStores ledger store s today opening) params)
      (orElse params.currency s.reportingCurrency) s.currencyDecimals)
    (orElse_ne_empty hcurrency params.currency) hgranularity
  simp only [history, Journaled.outcome_bind, Journaled.outcome_of]
  refine hreport.bind fun report _ => FailsOnly.bind ?_ fun body _ => .ok _
  refine FailsOnly.bind (FailsOnly.mapM fun point _ => ?_) fun lines _ => .ok _
  exact FailsOnly.bind (Body.instant_blames _ _) fun text _ => .ok _

/-- Neither endpoint for timelines blames another part. -/
theorem timelines_spare (hparts : Valuation.parts ⊆ parts) {part : String} (hpart : part ∉ parts) :
    FailsOnly (·.blamed ≠ some part) (history (.ofStores ledger store s today opening) params).outcome ∧
      FailsOnly (·.blamed ≠ some part)
        (changePoints (.ofStores ledger store s today opening) params).outcome :=
  ⟨(history_blames ledger store s today opening hbounds hcurrency params hgranularity hparts).mono
      fun _ h => h.spares hpart,
    (changePoints_blames ledger store s today opening hbounds hcurrency params hgranularity).mono
      fun _ h => h.spares hpart⟩

end Server

theorem SnapshotParams.eq_of_mem_leftOpen {params : SnapshotParams} {part : String}
    (h : part ∈ params.leftOpen) : part = "currency" := by
  unfold leftOpen at h
  split at h
  · exact List.mem_singleton.1 h
  · simp at h

theorem TimelineParams.mem_leftOpen {params : TimelineParams} {part : String} : part ∈ params.leftOpen ↔
    (part = "currency" ∧ (params.currency.getD "").isEmpty = true) ∨
      part = "granularity" ∧ (params.granularity.getD "").isEmpty = true := by
  unfold leftOpen
  split <;> split <;> simp_all

/-- A request for everything that leaves all it can to the settings. -/
def TimelineParams.standard : TimelineParams := ⟨none, none, none, none, true, false, []⟩

namespace Settings

variable {s : Settings}

theorem refused_of_parse {failure : Failure} (h : Granularity.parse s.defaultGranularity = .error failure)
    (ledger : Ledger) (store : MarketStore) (today : Date) (opening : List Line) :
    (Server.changePoints (.ofStores ledger store s today opening) .standard).outcome = .error failure := by
  have hopen : (Server.timelineQuery (.ofStores ledger store s today opening) .standard).granularity =
      s.defaultGranularity := by
    show Server.orElse none s.defaultGranularity = s.defaultGranularity
    exact Server.orElse_of_open (by decide)
  have hrange : (Server.timelineQuery (.ofStores ledger store s today opening) .standard).range =
      .ok ⟨none, none⟩ := rfl
  simp only [Server.changePoints, ChangeReport.run, TimelineQuery.points, Journaled.outcome_bind,
    Journaled.outcome_of, hrange, hopen, h]
  rfl

/-- Whatever the currency of the settings is, no request is refused for it. -/
theorem serves_currency (hcurrency : s.reportingCurrency ≠ "") : s.Serves "currency" := by
  intro ledger store today opening
  have hdate : "currency" ∉ "date" :: Valuation.parts := by decide
  -- a granularity may be blamed here, since it need not be the one of the settings
  have hpart : "currency" ∉ "granularity" :: (TimelineQuery.bounds ++ Valuation.parts) := by decide
  refine ⟨fun params _ => ?_, fun params _ => ?_⟩
  · refine (Server.snapshot_blames ledger store s today opening params List.mem_cons_self
      (List.subset_cons_self "date" Valuation.parts)).mono fun failure h => ?_
    exact h.spares hdate
  · exact Server.timelines_spare ledger store s today opening
      (fun part h => List.mem_cons_of_mem _ (List.mem_append_left _ h)) hcurrency params
      (fun failure h => .part (Granularity.blamed_of_parse h) List.mem_cons_self)
      (fun part h => List.mem_cons_of_mem _ (List.mem_append_right _ h)) hpart

/-- Where the granularity of the settings can be read, a request that leaves it to them is not refused for it. -/
theorem serves_granularity (hcurrency : s.reportingCurrency ≠ "") {g : Granularity}
    (hg : Granularity.parse s.defaultGranularity = .ok g) : s.Serves "granularity" := by
  intro ledger store today opening
  have hpart : "granularity" ∉ TimelineQuery.bounds ++ Valuation.parts := by decide
  refine ⟨fun params hopen => ?_, fun params hopen => ?_⟩
  · exact absurd (SnapshotParams.eq_of_mem_leftOpen hopen) (by decide)
  · obtain ⟨hother, -⟩ | ⟨-, hempty⟩ := TimelineParams.mem_leftOpen.1 hopen
    · exact absurd hother (by decide)
    · refine Server.timelines_spare ledger store s today opening (List.subset_append_left _ _) hcurrency params ?_
        (List.subset_append_right TimelineQuery.bounds Valuation.parts) hpart
      rw [Server.orElse_of_open hempty, hg]
      exact .ok g

/-- Where it cannot be read, the request for everything is refused for it. -/
theorem not_serves_of_parse {failure : Failure} (h : Granularity.parse s.defaultGranularity = .error failure) :
    ¬ s.Serves "granularity" := by
  intro hserves
  have hopen : "granularity" ∈ TimelineParams.standard.leftOpen := by decide
  have hspared := ((hserves .empty .empty Collection.tradingDay []).2 .standard hopen).2
  exact hspared failure (refused_of_parse h _ _ _ _) (Granularity.blamed_of_parse h)

/-- With a currency at all, no request is refused for what it leaves to the settings exactly if their
granularity can be read. -/
theorem serves_iff (hcurrency : s.reportingCurrency ≠ "") :
    (∀ part, s.Serves part) ↔ ∃ g, Granularity.parse s.defaultGranularity = .ok g := by
  constructor
  · intro hserves
    cases hparse : Granularity.parse s.defaultGranularity with
    | ok g => exact ⟨g, rfl⟩
    | error failure => exact absurd (hserves "granularity") (not_serves_of_parse hparse)
  · rintro ⟨g, hg⟩ part ledger store today opening
    have hcode := serves_currency hcurrency ledger store today opening
    have hread := serves_granularity hcurrency hg ledger store today opening
    refine ⟨fun params hopen => ?_, fun params hopen => ?_⟩
    · obtain rfl := SnapshotParams.eq_of_mem_leftOpen hopen
      exact hcode.1 params hopen
    · obtain ⟨rfl, -⟩ | ⟨rfl, -⟩ := TimelineParams.mem_leftOpen.1 hopen
      · exact hcode.2 params hopen
      · exact hread.2 params hopen

end Settings

end NetWorth
