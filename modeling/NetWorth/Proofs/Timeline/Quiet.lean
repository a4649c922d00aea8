import NetWorth.Proofs.Timeline.Observations
import NetWorth.Proofs.Valuation.Breakdowns
import NetWorth.Proofs.Valuation.SingleCurrency

/-! # Worth between change points

A snapshot makes a change point through its balances, so one without balances makes none. Where a
timeline is quiet nothing can happen to an account but that it is emptied: in one currency the total
stays the same if no account was, and otherwise falls by exactly what the emptied accounts were worth. -/
namespace NetWorth

open Decimal (HasPlaces precision)

namespace Timestamp

/-- Whether the date in universal time lies after the one date and by the other. -/
def fallsWithin (t : Timestamp) (first last : Date) : Bool :=
  t.utcDate?.any fun day => first < day && day ≤ last

theorem fallsWithin_congr {t u : Timestamp} (h : t.instant = u.instant) (first last : Date) :
    t.fallsWithin first last = u.fallsWithin first last := by
  rw [fallsWithin, fallsWithin, utcDate?_congr h]

def IsWholeSecond (t : Timestamp) : Prop := t.microsecond = 0 ∧ t.utcDate?.isSome

/-- What is over by the later date was over by the earlier one, or falls in between. -/
theorem IsWholeSecond.over_iff {t : Timestamp} (h : t.IsWholeSecond) {first last : Date}
    (hdates : first < last) : t.instant ≤ (endOfDay last).instant ↔
      t.instant ≤ (endOfDay first).instant ∨ t.fallsWithin first last = true := by
  obtain ⟨day, hday⟩ := Option.isSome_iff_exists.1 h.2
  rw [instant_le_endOfDay_iff h.1 hday, instant_le_endOfDay_iff h.1 hday]
  simp only [fallsWithin, hday, Option.any_some, Bool.and_eq_true, decide_eq_true_eq]
  have hdates : first.day < last.day := hdates
  show day.day ≤ last.day ↔ day.day ≤ first.day ∨ first.day < day.day ∧ day.day ≤ last.day
  omega

theorem IsWholeSecond.fallsWithin_iff {t : Timestamp} (h : t.IsWholeSecond) {first last : Date} :
    t.fallsWithin first last = true ↔
      ¬ t.instant ≤ (endOfDay first).instant ∧ t.instant ≤ (endOfDay last).instant := by
  obtain ⟨day, hday⟩ := Option.isSome_iff_exists.1 h.2
  rw [instant_le_endOfDay_iff h.1 hday, instant_le_endOfDay_iff h.1 hday]
  simp only [fallsWithin, hday, Option.any_some, Bool.and_eq_true, decide_eq_true_eq]
  show first.day < day.day ∧ day.day ≤ last.day ↔ ¬ day.day ≤ first.day ∧ day.day ≤ last.day
  omega

end Timestamp

namespace EffectiveBalance

variable {accountId : String} {snapshots : List BalanceSnapshot} {policy : Backfill} {first last : Date}
  {currency : String}

/-- Without a snapshot in between, the same balances count on both dates. -/
theorem choose_of_untouched (hwhole : ∀ s ∈ snapshots, s.timestamp.IsWholeSecond) (hdates : first < last)
    (h : ∀ s ∈ snapshots, s.timestamp.fallsWithin first last = false) :
    (choose accountId snapshots policy last currency).map (·.balances) =
      (choose accountId snapshots policy first currency).map (·.balances) := by
  have htaken : BalanceSnapshot.takenBy snapshots last = BalanceSnapshot.takenBy snapshots first := by
    refine List.filter_congr fun s hs => ?_
    have hover := (hwhole s hs).over_iff hdates
    rw [h s hs] at hover
    simpa using hover
  unfold choose
  rw [htaken]
  cases BalanceSnapshot.latest (BalanceSnapshot.takenBy snapshots first) with
  | some s => rfl
  | none =>
    cases policy with
    | none | carryEarliest => rfl
    | zero => simp only [zero, Option.map_some]

/-- A snapshot in between supersedes all before it, so what counts later was taken in between. -/
theorem choose_of_touched (hwhole : ∀ s ∈ snapshots, s.timestamp.IsWholeSecond)
    {s : BalanceSnapshot} (hs : s ∈ snapshots) (h : s.timestamp.fallsWithin first last = true)
    {effective : EffectiveBalance}
    (heffective : choose accountId snapshots policy last currency = some effective) :
    ∃ t ∈ snapshots, t.timestamp.fallsWithin first last = true ∧ effective.balances = t.balances := by
  obtain ⟨hafter, hby⟩ := (hwhole s hs).fallsWithin_iff.1 h
  have hmem : s ∈ BalanceSnapshot.takenBy snapshots last := BalanceSnapshot.mem_takenBy.2 ⟨hs, hby⟩
  obtain ⟨t, htaken, hle, hchosen⟩ := choose_of_takenBy hmem accountId policy currency
  obtain rfl := Option.some.inj (hchosen.symm.trans heffective)
  obtain ⟨ht, htby⟩ := BalanceSnapshot.mem_takenBy.1 htaken
  exact ⟨t, ht, (hwhole t ht).fallsWithin_iff.2 ⟨by omega, htby⟩, rfl⟩

end EffectiveBalance

namespace Contribution

def amounts (contribution : Contribution) : List Decimal := contribution.portions.map Portion.amount

def ofChosen : Option EffectiveBalance → Except Failure (List Contribution)
  | none => .ok []
  | some effective => (ofEffective effective).map fun c => [c]

theorem mapM_ofEffective_cons {e : Option EffectiveBalance} {es : List (Option EffectiveBalance)}
    {cs : List Contribution} :
    ((e :: es).filterMap id).mapM ofEffective = .ok cs ↔
      ∃ here rest, ofChosen e = .ok here ∧ (es.filterMap id).mapM ofEffective = .ok rest ∧
        here ++ rest = cs := by
  cases e with
  | none => simp [ofChosen]
  | some effective =>
    simp only [List.filterMap_cons, id_eq, List.mapM_cons, Outcome.andThen_ok_iff,
      Outcome.pure_ok_iff, ofChosen, Outcome.map_ok_iff]
    constructor
    · rintro ⟨c, hc, rest, hrest, rfl⟩
      exact ⟨[c], rest, ⟨c, hc, rfl⟩, hrest, rfl⟩
    · rintro ⟨-, rest, ⟨c, hc, rfl⟩, hrest, rfl⟩
      exact ⟨c, hc, rest, hrest, rfl⟩

theorem amounts_read {effective : EffectiveBalance} {contribution : Contribution}
    (h : ofEffective effective = .ok contribution) :
    effective.balances.mapM (fun b => Amount.read b.amount (some "amount")) = .ok contribution.amounts := by
  obtain ⟨date, portions, -, hportions, rfl⟩ := ofEffective_ok_iff.1 h
  rw [Outcome.mapM_ok_iff, amounts, List.forall₂_map_right_iff]
  refine Outcome.forall₂_of_mapM hportions fun b _ p hp => ?_
  obtain ⟨asset, amount, -, hamount, rfl⟩ := Portion.ofBalance_ok_iff.1 hp
  exact hamount

end Contribution

/-- What counts for an account on an earlier and on a later date, if in between it was at most emptied. -/
def Kept (gone : String → Bool) (before after : Option EffectiveBalance) : Prop :=
  ∃ accountId, (∀ e ∈ before, e.accountId = accountId) ∧
    if gone accountId then ∀ e ∈ after, e.balances = []
    else after.map (·.balances) = before.map (·.balances)

namespace Kept

variable {gone : String → Bool}

theorem amounts {before after : Option EffectiveBalance} (h : Kept gone before after)
    {cs ds : List Contribution} (hcs : Contribution.ofChosen before = .ok cs)
    (hds : Contribution.ofChosen after = .ok ds) :
    ds.flatMap Contribution.amounts =
      (cs.filter fun c => !gone c.accountId).flatMap Contribution.amounts := by
  obtain ⟨accountId, hid, hkept⟩ := h
  have hcsId : ∀ c ∈ cs, c.accountId = accountId := by
    intro c hc
    cases before with
    | none =>
      obtain rfl := Except.ok.inj hcs
      simp at hc
    | some e =>
      obtain ⟨d, hd, rfl⟩ := Outcome.map_ok_iff.1 hcs
      obtain rfl := List.mem_singleton.1 hc
      obtain ⟨date, portions, -, -, rfl⟩ := Contribution.ofEffective_ok_iff.1 hd
      exact hid e rfl
  split at hkept
  · rename_i hgone
    have hnone : cs.filter (fun c => !gone c.accountId) = [] := by
      simpa using fun c hc => (hcsId c hc).symm ▸ hgone
    rw [hnone]
    cases after with
    | none =>
      obtain rfl := Except.ok.inj hds
      rfl
    | some e =>
      obtain ⟨d, hd, rfl⟩ := Outcome.map_ok_iff.1 hds
      have hread := Contribution.amounts_read hd
      rw [hkept e rfl] at hread
      simpa using (Except.ok.inj hread).symm
  · rename_i hstays
    have hall : cs.filter (fun c => !gone c.accountId) = cs := by
      refine List.filter_eq_self.2 fun c hc => ?_
      rw [hcsId c hc]
      simpa using hstays
    rw [hall]
    cases before with
    | none =>
      cases after with
      | some e => simp at hkept
      | none =>
        obtain rfl := Except.ok.inj hcs
        obtain rfl := Except.ok.inj hds
        rfl
    | some b =>
      cases after with
      | none => simp at hkept
      | some e =>
        obtain ⟨c, hc, rfl⟩ := Outcome.map_ok_iff.1 hcs
        obtain ⟨d, hd, rfl⟩ := Outcome.map_ok_iff.1 hds
        have hreadc := Contribution.amounts_read hc
        have hreadd := Contribution.amounts_read hd
        have hsame : e.balances = b.balances := by simpa using hkept
        rw [hsame] at hreadd
        simpa using Except.ok.inj (hreadd.symm.trans hreadc)

theorem all_amounts {before after : List (Option EffectiveBalance)}
    (h : List.Forall₂ (Kept gone) before after) {cs ds : List Contribution}
    (hcs : (before.filterMap id).mapM Contribution.ofEffective = .ok cs)
    (hds : (after.filterMap id).mapM Contribution.ofEffective = .ok ds) :
    ds.flatMap Contribution.amounts =
      (cs.filter fun c => !gone c.accountId).flatMap Contribution.amounts := by
  induction h generalizing cs ds with
  | nil =>
    obtain rfl := Outcome.pure_ok_iff.1 hcs
    obtain rfl := Outcome.pure_ok_iff.1 hds
    rfl
  | @cons e f es fs hkept _ ih =>
    obtain ⟨here, rest, hhere, hrest, rfl⟩ := Contribution.mapM_ofEffective_cons.1 hcs
    obtain ⟨there, others, hthere, hothers, rfl⟩ := Contribution.mapM_ofEffective_cons.1 hds
    rw [List.flatMap_append, List.filter_append, List.flatMap_append, hkept.amounts hhere hthere,
      ih hrest hothers]

end Kept

namespace Ledger

/-- Whether a snapshot without balances was taken of an account in between. -/
def emptied (ledger : Ledger) (first last : Date) (accountId : String) : Bool :=
  (ledger.snapshotsOf accountId).any fun s => s.timestamp.fallsWithin first last && s.balances.isEmpty

/-- All snapshots are of whole seconds within the calendar, and hold nothing but one currency. -/
structure HoldsOnly (ledger : Ledger) (currency : String) : Prop where
  whole : ∀ id, ∀ s ∈ ledger.snapshotsOf id, s.timestamp.IsWholeSecond
  balances : ∀ id, ∀ s ∈ ledger.snapshotsOf id, ∀ b ∈ s.balances, ∃ code,
    b.asset = .known (.currency code) ∧ Currency.same code currency = true

end Ledger

namespace Collection

variable {ledger : Ledger} {store : MarketStore} {options : CollectOptions} {points : List ChangePoint}
  {first last : Date}

/-- No point falls after the one date and by the other. -/
def Quiet (points : List ChangePoint) (first last : Date) : Prop :=
  ∀ p ∈ points, p.timestamp.fallsWithin first last = false

theorem Quiet.balances (hquiet : Quiet points first last) {currency : String}
    (hledger : ledger.HoldsOnly currency) (hall : options.accountIds = [])
    (hpoints : (run ledger.reads store.reads options).outcome = .ok points) {a : Account}
    (ha : a ∈ ledger.participants []) {s : BalanceSnapshot} (hs : s ∈ ledger.snapshotsOf a.id)
    (hwithin : s.timestamp.fallsWithin first last = true) : s.balances = [] := by
  rw [List.eq_nil_iff_forall_not_mem]
  intro b hb
  obtain ⟨code, hcode, -⟩ := hledger.balances a.id s hs b hb
  have hevent : ⟨s.timestamp, .balance a.id (.currency code)⟩ ∈ timeline ledger store options := by
    rw [timeline, hall, List.append_assoc]
    exact List.mem_append_left _ (mem_balanceEvents.2 ⟨a, ha, s, hs, b, hb, _, hcode, rfl⟩)
  obtain ⟨p, hp, hmoment⟩ := (pointsOf_of_run hpoints).covers _ hevent
  have hinstant : p.timestamp.instant = s.timestamp.instant := congrArg Prod.snd hmoment
  have hpoint := hquiet p hp
  rw [Timestamp.fallsWithin_congr hinstant, hwithin] at hpoint
  contradiction

variable {market : MarketReads} {query : ValuationQuery} {before after : Valuation}

/-- Where a timeline is quiet, accounts are at most emptied. -/
theorem Quiet.kept (hquiet : Quiet points first last) (hdates : first < last)
    (hledger : ledger.HoldsOnly query.currency) (hall : options.accountIds = [])
    (hpoints : (run ledger.reads store.reads options).outcome = .ok points) {a : Account}
    (ha : a ∈ Keyed.values ledger.accounts) {e f : Option EffectiveBalance}
    (he : (Valuation.effectiveBalance ledger.reads { query with date := first } a).outcome = .ok e)
    (hf : (Valuation.effectiveBalance ledger.reads { query with date := last } a).outcome = .ok f) :
    Kept (ledger.emptied first last) e f := by
  obtain ⟨overrides, hoverrides, he⟩ := Valuation.effectiveBalance_ok_iff.1 he
  obtain ⟨others, hothers, hf⟩ := Valuation.effectiveBalance_ok_iff.1 hf
  obtain rfl := Except.ok.inj hoverrides
  obtain rfl := Except.ok.inj hothers
  refine ⟨a.id, ?_⟩
  by_cases hexcluded : ((Keyed.get? a.id ledger.overrides).getD .default).excluded = true
  · rw [if_pos hexcluded] at he hf
    subst he hf
    simp
  · rw [if_neg hexcluded] at he hf
    obtain ⟨snapshots, policy, hsnapshots, hpolicy, rfl⟩ := he
    obtain ⟨snapshots, policy', hsnapshots', hpolicy', rfl⟩ := hf
    obtain rfl := Except.ok.inj hsnapshots
    obtain rfl := Except.ok.inj hsnapshots'
    obtain rfl := Except.ok.inj (hpolicy.symm.trans hpolicy')
    have hwhole := hledger.whole a.id
    have hempty : ∀ s ∈ ledger.snapshotsOf a.id, s.timestamp.fallsWithin first last = true →
        s.balances = [] := by
      intro s hs hwithin
      have hparticipant : a ∈ ledger.participants [] := by
        simpa [Ledger.participants, Ledger.excludes, ha] using hexcluded
      exact hquiet.balances hledger hall hpoints hparticipant hs hwithin
    refine ⟨fun e he => EffectiveBalance.choose_accountId he, ?_⟩
    split
    · rename_i hgone
      obtain ⟨s, hs, hwithin⟩ := List.any_eq_true.1 hgone
      rw [Bool.and_eq_true] at hwithin
      intro e he
      obtain ⟨t, ht, htwithin, hbalances⟩ :=
        EffectiveBalance.choose_of_touched hwhole hs hwithin.1 he
      rw [hbalances, hempty t ht htwithin]
    · rename_i hstays
      refine EffectiveBalance.choose_of_untouched hwhole hdates fun s hs => ?_
      rw [Bool.eq_false_iff]
      intro hwithin
      exact hstays (List.any_eq_true.2 ⟨s, hs, by simp [hwithin, hempty s hs hwithin]⟩)

theorem Quiet.amounts (hquiet : Quiet points first last) (hdates : first < last)
    (hledger : ledger.HoldsOnly query.currency) (hall : options.accountIds = [])
    (hpoints : (run ledger.reads store.reads options).outcome = .ok points)
    (v : Workings ledger.reads market { query with date := first } before)
    (w : Workings ledger.reads market { query with date := last } after) :
    w.contributions.flatMap Contribution.amounts =
      (v.contributions.filter fun c => !ledger.emptied first last c.accountId).flatMap
        Contribution.amounts := by
  obtain ⟨chosen, hchosen, hbalances⟩ := Valuation.effectiveBalances_ok_iff.1 v.balances_eq
  obtain ⟨later, hlater, hlaterBalances⟩ := Valuation.effectiveBalances_ok_iff.1 w.balances_eq
  have hvcontributions := v.contributions_eq
  have hwcontributions := w.contributions_eq
  rw [← hbalances] at hvcontributions
  rw [← hlaterBalances] at hwcontributions
  rw [← Except.ok.inj v.accounts_eq] at hchosen
  rw [← Except.ok.inj w.accounts_eq] at hlater
  refine Kept.all_amounts ?_ hvcontributions hwcontributions
  exact Outcome.forall₂_of_mapM_mapM hchosen hlater fun a ha e f he hf =>
    hquiet.kept hdates hledger hall hpoints ha he hf

theorem portion_asset (hledger : ledger.HoldsOnly query.currency)
    (w : Workings ledger.reads market query before) {p : Portion}
    (hp : p ∈ w.contributions.flatMap (·.portions)) :
    p.asset = .currency (Currency.normalize query.currency) := by
  obtain ⟨asset, ⟨a, -, s, hs, b, hb, hnamed⟩, hnormal⟩ | hzero := Valuation.portion_source w hp
  · obtain ⟨code, hcode, hsame⟩ := hledger.balances a.id s hs b hb
    obtain rfl := AssetRecord.known.inj (hnamed.symm.trans hcode)
    rw [hnormal, Asset.normalize, of_decide_eq_true hsame]
  · exact hzero

theorem total_of_amounts (w : Workings ledger.reads market query before)
    (hledger : ledger.HoldsOnly query.currency) :
    Valuation.totalOf (w.contributions.flatMap Contribution.amounts) = .ok w.total := by
  have hsame : Currency.same (Currency.normalize query.currency) query.currency = true := by
    rw [Currency.same_normalize]
    exact Currency.same_refl _
  have htotal := w.totalOf_amounts hsame fun p hp => portion_asset hledger w hp
  rwa [List.map_flatMap] at htotal

/-- Accounts that contribute nothing make no difference. -/
theorem amounts_of_filter {contributions : List Contribution} {gone : Contribution → Bool}
    (h : ∀ c ∈ contributions, gone c = true → c.portions = []) :
    (contributions.filter fun c => !gone c).flatMap Contribution.amounts =
      contributions.flatMap Contribution.amounts := by
  induction contributions with
  | nil => rfl
  | cons c cs ih =>
    have hrest := ih fun d hd => h d (List.mem_cons_of_mem c hd)
    rw [List.filter_cons, List.flatMap_cons, ← hrest]
    cases hgone : gone c with
    | true => simp [Contribution.amounts, h c List.mem_cons_self hgone]
    | false => simp

/-- Amounts are exact with `k` places, and 28 digits hold the sum of their sizes. -/
structure AmountsWithin (k : Nat) (amounts : List Decimal) : Prop where
  places : ∀ a ∈ amounts, HasPlaces k a.toRat
  size : (amounts.map fun a => |a.toRat|).sum < 10 ^ (precision - k)

theorem AmountsWithin.filter {k : Nat} {contributions : List Contribution}
    (h : AmountsWithin k (contributions.flatMap Contribution.amounts)) (gone : Contribution → Bool) :
    AmountsWithin k ((contributions.filter fun c => !gone c).flatMap Contribution.amounts) ∧
      ((contributions.flatMap Contribution.amounts).map Decimal.toRat).sum =
        (((contributions.filter gone).flatMap Contribution.amounts).map Decimal.toRat).sum +
          (((contributions.filter fun c => !gone c).flatMap Contribution.amounts).map Decimal.toRat).sum := by
  have hperm : ((contributions.filter gone).flatMap Contribution.amounts ++
      (contributions.filter fun c => !gone c).flatMap Contribution.amounts).Perm
        (contributions.flatMap Contribution.amounts) := by
    rw [← List.flatMap_append]
    exact (List.filter_append_perm gone contributions).flatMap_right _
  refine ⟨⟨fun a ha => h.places a (hperm.mem_iff.1 (List.mem_append_right _ ha)), ?_⟩, ?_⟩
  · have hsize := h.size
    have hgone := Valuation.sum_abs_nonneg Decimal.toRat
      ((contributions.filter gone).flatMap Contribution.amounts)
    rw [← (hperm.map _).sum_eq, List.map_append, List.sum_append] at hsize
    linarith
  · rw [← (hperm.map _).sum_eq, List.map_append, List.sum_append]

/-- Over a quiet span the total of a portfolio in one currency stays the same if no account with a worth
was emptied, and falls by exactly what the emptied accounts were worth where the decimals lose nothing. -/
theorem worth_over_quiet_span (hquiet : Quiet points first last) (hdates : first < last)
    (hledger : ledger.HoldsOnly query.currency) (hall : options.accountIds = [])
    (hpoints : (run ledger.reads store.reads options).outcome = .ok points)
    (hbefore : (Valuation.run ledger.reads market { query with date := first }).outcome = .ok before)
    (hafter : (Valuation.run ledger.reads market { query with date := last }).outcome = .ok after) :
    ∃ contributions,
      Valuation.contributions ledger.reads { query with date := first } = .ok contributions ∧
      ((∀ c ∈ contributions, ledger.emptied first last c.accountId = true → c.portions = []) →
        before.totalValue = after.totalValue) ∧
      (query.places = none → ∀ k ≤ precision,
        AmountsWithin k (contributions.flatMap Contribution.amounts) →
        ∃ x y, Decimal.valueOf? before.totalValue = some x ∧ Decimal.valueOf? after.totalValue = some y ∧
          x = y + (((contributions.filter fun c => ledger.emptied first last c.accountId).flatMap
            Contribution.amounts).map Decimal.toRat).sum) := by
  obtain ⟨v⟩ := nonempty_workings hbefore
  obtain ⟨w⟩ := nonempty_workings hafter
  have hamounts := hquiet.amounts hdates hledger hall hpoints v w
  have hvtotal := total_of_amounts v hledger
  have hwtotal := total_of_amounts w hledger
  rw [hamounts] at hwtotal
  refine ⟨v.contributions, v.contributions_of, fun hworthless => ?_, fun hplaces k hk hwithin => ?_⟩
  · have hsame : (v.contributions.filter fun c => !ledger.emptied first last c.accountId).flatMap
        Contribution.amounts = v.contributions.flatMap Contribution.amounts :=
      amounts_of_filter hworthless
    rw [hsame, hvtotal] at hwtotal
    have hvtext := v.totalValue_eq
    rw [Except.ok.inj hwtotal] at hvtext
    exact Except.ok.inj (hvtext.symm.trans w.totalValue_eq)
  · obtain ⟨hkept, hsum⟩ := hwithin.filter fun c => ledger.emptied first last c.accountId
    have hvholds := Valuation.totalOf_exact hk hwithin.places hwithin.size hvtotal
    have hwholds := Valuation.totalOf_exact hk hkept.places hkept.size hwtotal
    have hvtext := v.totalValue_eq
    have hwtext := w.totalValue_eq
    simp only [hplaces, Amount.format_none, Except.ok.injEq] at hvtext hwtext
    exact ⟨_, _, hvtext ▸ hvholds.valueOf?, hwtext ▸ hwholds.valueOf?, hsum.trans (add_comm _ _)⟩

def firstDay : Date := ⟨738000, by decide⟩

def lastDay : Date := ⟨738001, by decide⟩

def purseLedger : Ledger :=
  (((Ledger.empty.putConnection ⟨"home", "Home", "manual"⟩).putAccount
    ⟨"purse", "Purse", "home", [], true⟩).addSnapshot "purse"
      (.at (.endOfDay firstDay) [⟨.known (.currency "USD"), .text "100"⟩])).addSnapshot "purse"
        (.at (.endOfDay lastDay) [])

def purseQuery : ValuationQuery := ⟨firstDay, "USD", none, false, none⟩

def pursePoints : List ChangePoint := [⟨.endOfDay firstDay, [.balance "purse" (.currency "USD")]⟩]

theorem purse_collected :
    (run purseLedger.reads MarketStore.empty.reads defaultOptions).outcome = .ok pursePoints :=
  Outcome.ok_of_toOption (by decide +kernel)

theorem pursePoints_quiet : Quiet pursePoints firstDay lastDay := by
  intro p hp
  obtain rfl := List.mem_singleton.1 hp
  decide

theorem purseLedger_holdsOnly : purseLedger.HoldsOnly "USD" := by
  have hsnapshots : ∀ id, ∀ s ∈ purseLedger.snapshotsOf id,
      s = .at (.endOfDay firstDay) [⟨.known (.currency "USD"), .text "100"⟩] ∨
        s = .at (.endOfDay lastDay) [] := by
    intro id s hs
    by_cases hid : "purse" = id
    · subst hid
      have hboth : purseLedger.snapshotsOf "purse" =
        [.at (.endOfDay firstDay) [⟨.known (.currency "USD"), .text "100"⟩], .at (.endOfDay lastDay) []] := rfl
      simpa [hboth] using hs
    · have hnone : purseLedger.snapshotsOf id = [] := by
        rw [purseLedger, Ledger.snapshotsOf_addSnapshot, if_neg hid, Ledger.snapshotsOf_addSnapshot,
          if_neg hid]
        rfl
      simp [hnone] at hs
  refine ⟨fun id s hs => ?_, fun id s hs b hb => ?_⟩
  · rcases hsnapshots id s hs with rfl | rfl
    · exact ⟨by decide, by decide⟩
    · exact ⟨by decide, by decide⟩
  · rcases hsnapshots id s hs with rfl | rfl
    · obtain rfl := List.mem_singleton.1 hb
      exact ⟨"USD", rfl, Currency.same_refl _⟩
    · simp [BalanceSnapshot.at] at hb

def purseValuation (date : Date) (total : String) (row : Option AssetRow) : Valuation :=
  ⟨date, "USD", total, some row.toList, some [⟨"purse", "Purse", "Home", some total⟩]⟩

def purseRow : AssetRow :=
  ⟨.currency "USD", "100", firstDay, none, none, none, none, none, some "100", none⟩

theorem purse_valued_first : (Valuation.run purseLedger.reads MarketStore.empty.reads
    { purseQuery with date := firstDay }).outcome = .ok (purseValuation firstDay "100" (some purseRow)) :=
  Outcome.ok_of_toOption (by decide +kernel)

theorem purse_valued_last : (Valuation.run purseLedger.reads MarketStore.empty.reads
    { purseQuery with date := lastDay }).outcome = .ok (purseValuation lastDay "0" none) :=
  Outcome.ok_of_toOption (by decide +kernel)

/-- The total falls although no change point lies in between. -/
theorem emptied_purse_makes_no_point : firstDay < lastDay ∧ purseLedger.HoldsOnly "USD" ∧
    ∃ points before after, (run purseLedger.reads MarketStore.empty.reads defaultOptions).outcome = .ok points ∧
      Quiet points firstDay lastDay ∧
      (Valuation.run purseLedger.reads MarketStore.empty.reads
        { purseQuery with date := firstDay }).outcome = .ok before ∧
      (Valuation.run purseLedger.reads MarketStore.empty.reads
        { purseQuery with date := lastDay }).outcome = .ok after ∧
      before.totalValue = "100" ∧ after.totalValue = "0" :=
  ⟨by decide, purseLedger_holdsOnly, _, _, _, purse_collected, pursePoints_quiet, purse_valued_first,
    purse_valued_last, rfl, rfl⟩

theorem emptied_purse_was_worth_hundred : ∃ x y, Decimal.valueOf? "100" = some x ∧
    Decimal.valueOf? "0" = some y ∧ x = y + 100 := by
  have hcontributions : Valuation.contributions purseLedger.reads { purseQuery with date := firstDay } =
      .ok [⟨"purse", [⟨.currency "USD", "purse", ⟨false, 100, 0⟩, firstDay⟩]⟩] :=
    Outcome.ok_of_toOption (by decide +kernel)
  have hhundred : Decimal.toRat ⟨false, 100, 0⟩ = 100 := by norm_num [Decimal.toRat, Decimal.signed]
  obtain ⟨contributions, hfound, -, hfalls⟩ := worth_over_quiet_span pursePoints_quiet (by decide)
    purseLedger_holdsOnly rfl purse_collected purse_valued_first purse_valued_last
  obtain rfl := Except.ok.inj (hfound.symm.trans hcontributions)
  have hwithin : AmountsWithin 0 (List.flatMap Contribution.amounts
      [⟨"purse", [⟨.currency "USD", "purse", ⟨false, 100, 0⟩, firstDay⟩]⟩]) := by
    have hamounts : List.flatMap Contribution.amounts
      [⟨"purse", [⟨.currency "USD", "purse", ⟨false, 100, 0⟩, firstDay⟩]⟩] = [⟨false, 100, 0⟩] := rfl
    rw [hamounts]
    refine ⟨fun a ha => ?_, ?_⟩
    · obtain rfl := List.mem_singleton.1 ha
      exact ⟨100, by rw [hhundred]; norm_num⟩
    · simp only [List.map_cons, List.map_nil, List.sum_cons, List.sum_nil, hhundred, precision]
      norm_num
  obtain ⟨x, y, hx, hy, heq⟩ := hfalls rfl 0 (by decide) hwithin
  have hemptied : purseLedger.emptied firstDay lastDay "purse" = true := by decide
  refine ⟨x, y, hx, hy, heq.trans ?_⟩
  simp [hemptied, Contribution.amounts, Portion.amount, hhundred]

end Collection

end NetWorth
