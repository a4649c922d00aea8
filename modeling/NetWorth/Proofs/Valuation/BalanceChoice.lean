import NetWorth.Proofs.Valuation.Selection

/-! # The snapshot that is chosen

Whatever the order in which snapshots were recorded, the balance that counts on a date is that of the latest
snapshot by then, the first recorded of several at one instant; without one the policy decides. As dates move
on, so does the snapshot that counts. -/
namespace NetWorth

section Argmax

variable {α β : Type} [LinearOrder β] {f : α → β} {l : List α} {s : α}

/-- What stands before an argument of the maximum is less, and what stands behind it is not greater. -/
theorem argmax_eq_some_iff : l.argmax f = some s ↔
    ∃ before after, l = before ++ s :: after ∧ (∀ t ∈ before, f t < f s) ∧ ∀ t ∈ after, f t ≤ f s := by
  constructor
  · intro h
    induction l with
    | nil => contradiction
    | cons a rest ih =>
      rw [List.argmax_cons] at h
      cases hrest : rest.argmax f with
      | none =>
        rw [hrest] at h
        obtain rfl := Option.some.inj h
        obtain rfl := List.argmax_eq_none.1 hrest
        exact ⟨[], [], rfl, by simp, by simp⟩
      | some c =>
        simp only [hrest] at h
        split at h
        · rename_i hless
          obtain rfl := Option.some.inj h
          obtain ⟨before, after, rfl, hbefore, hafter⟩ := ih hrest
          exact ⟨a :: before, after, rfl, List.forall_mem_cons.2 ⟨hless, hbefore⟩, hafter⟩
        · rename_i hnotless
          obtain rfl := Option.some.inj h
          exact ⟨[], rest, rfl, by simp, fun t ht => (List.le_of_mem_argmax ht hrest).trans (not_lt.1 hnotless)⟩
  · rintro ⟨before, after, rfl, hbefore, hafter⟩
    induction before with
    | nil =>
      rw [List.nil_append, List.argmax_cons]
      cases hrest : after.argmax f with
      | none => rfl
      | some c => exact if_neg (not_lt.2 (hafter c (List.argmax_mem hrest)))
    | cons a before ih =>
      obtain ⟨hless, hbefore⟩ := List.forall_mem_cons.1 hbefore
      rw [List.cons_append, List.argmax_cons, ih hbefore]
      exact if_pos hless

theorem argmax_filter_eq_some_iff {p : α → Bool} : (l.filter p).argmax f = some s ↔
    ∃ before after, l = before ++ s :: after ∧ p s ∧
      (∀ t ∈ before, p t → f t < f s) ∧ ∀ t ∈ after, p t → f t ≤ f s := by
  rw [argmax_eq_some_iff]
  constructor
  · rintro ⟨_, _, hsplit, hbefore, hafter⟩
    obtain ⟨front, rest, rfl, rfl, hrest⟩ := List.filter_eq_append_iff.1 hsplit
    obtain ⟨skipped, after, rfl, hskipped, hs, rfl⟩ := List.filter_eq_cons_iff.1 hrest
    refine ⟨front ++ skipped, after, by simp, hs, fun t ht hpt => ?_, fun t ht hpt => ?_⟩
    · rcases List.mem_append.1 ht with ht | ht
      · exact hbefore t (List.mem_filter.2 ⟨ht, hpt⟩)
      · exact absurd hpt (hskipped t ht)
    · exact hafter t (List.mem_filter.2 ⟨ht, hpt⟩)
  · rintro ⟨before, after, rfl, hs, hbefore, hafter⟩
    refine ⟨before.filter p, after.filter p, by rw [List.filter_append, List.filter_cons_of_pos hs], ?_, ?_⟩
    · exact fun t ht => hbefore t (List.mem_of_mem_filter ht) (List.mem_filter.1 ht).2
    · exact fun t ht => hafter t (List.mem_of_mem_filter ht) (List.mem_filter.1 ht).2

end Argmax

theorem Timestamp.endOfDay_mono {date date' : Date} (h : date ≤ date') :
    (endOfDay date).instant ≤ (endOfDay date').instant := by
  have hday : date.day ≤ date'.day := h
  rw [instant_endOfDay, instant_endOfDay]
  omega

namespace BalanceSnapshot

variable {snapshots : List BalanceSnapshot} {s : BalanceSnapshot} {date : Date}

theorem latest_takenBy_eq_some_iff : latest (takenBy snapshots date) = some s ↔
    ∃ before after, snapshots = before ++ s :: after ∧
      s.timestamp.instant ≤ (Timestamp.endOfDay date).instant ∧
      (∀ t ∈ before, t.timestamp.instant ≤ (Timestamp.endOfDay date).instant →
        t.timestamp.instant < s.timestamp.instant) ∧
      ∀ t ∈ after, t.timestamp.instant ≤ (Timestamp.endOfDay date).instant →
        t.timestamp.instant ≤ s.timestamp.instant := by
  rw [latest_eq_argmax, takenBy, argmax_filter_eq_some_iff]
  simp only [decide_eq_true_eq]

theorem earliest_eq_some_iff : earliest snapshots = some s ↔
    ∃ before after, snapshots = before ++ s :: after ∧
      (∀ t ∈ before, s.timestamp.instant < t.timestamp.instant) ∧
      ∀ t ∈ after, s.timestamp.instant ≤ t.timestamp.instant := by
  rw [earliest_eq_argmin]
  exact argmax_eq_some_iff (β := Intᵒᵈ)

theorem takenBy_eq_nil_iff : takenBy snapshots date = [] ↔
    ∀ t ∈ snapshots, (Timestamp.endOfDay date).instant < t.timestamp.instant := by
  simp [takenBy]

theorem takenBy_subset {date date' : Date} (h : date ≤ date') :
    takenBy snapshots date ⊆ takenBy snapshots date' := by
  intro t ht
  obtain ⟨hmem, htaken⟩ := mem_takenBy.1 ht
  exact mem_takenBy.2 ⟨hmem, htaken.trans (Timestamp.endOfDay_mono h)⟩

end BalanceSnapshot

namespace EffectiveBalance

open Timestamp (endOfDay)

/-- Which balance counts for an account on a date, if any. A choice of one of several snapshots says what was
recorded before it and after it. -/
inductive Counts (accountId : String) (snapshots : List BalanceSnapshot) (policy : Backfill) (date : Date)
    (currency : String) : Option EffectiveBalance → Prop
  | observed {before after : List BalanceSnapshot} {s : BalanceSnapshot} (hsplit : snapshots = before ++ s :: after)
    (htaken : s.timestamp.instant ≤ (endOfDay date).instant)
    (hbefore : ∀ t ∈ before, t.timestamp.instant ≤ (endOfDay date).instant →
      t.timestamp.instant < s.timestamp.instant)
    (hafter : ∀ t ∈ after, t.timestamp.instant ≤ (endOfDay date).instant →
      t.timestamp.instant ≤ s.timestamp.instant) :
    Counts accountId snapshots policy date currency (some ⟨accountId, s.timestamp, s.balances, none⟩)
  | skipped (hnone : ∀ t ∈ snapshots, (endOfDay date).instant < t.timestamp.instant) (hpolicy : policy = .none) :
    Counts accountId snapshots policy date currency none
  | zero (hnone : ∀ t ∈ snapshots, (endOfDay date).instant < t.timestamp.instant) (hpolicy : policy = .zero) :
    Counts accountId snapshots policy date currency
      (some ⟨accountId, endOfDay date, [⟨.known (.currency currency), .text "0"⟩], some .zero⟩)
  | carried {before after : List BalanceSnapshot} {s : BalanceSnapshot}
    (hnone : ∀ t ∈ snapshots, (endOfDay date).instant < t.timestamp.instant) (hpolicy : policy = .carryEarliest)
    (hsplit : snapshots = before ++ s :: after)
    (hbefore : ∀ t ∈ before, s.timestamp.instant < t.timestamp.instant)
    (hafter : ∀ t ∈ after, s.timestamp.instant ≤ t.timestamp.instant) :
    Counts accountId snapshots policy date currency
      (some ⟨accountId, s.timestamp, s.balances, some .carryEarliest⟩)
  | absent (hempty : snapshots = []) (hpolicy : policy = .carryEarliest) :
    Counts accountId snapshots policy date currency none

variable {accountId : String} {snapshots : List BalanceSnapshot} {policy : Backfill} {date : Date}
  {currency : String} {result : Option EffectiveBalance}

open BalanceSnapshot (latest earliest takenBy)

theorem choose_of_none (hnone : ∀ t ∈ snapshots, (endOfDay date).instant < t.timestamp.instant) :
    choose accountId snapshots policy date currency =
      match policy with
      | .none => none
      | .zero => some (zero accountId date currency)
      | .carryEarliest => (earliest snapshots).map (ofSnapshot accountId (some .carryEarliest)) := by
  have hlatest := BalanceSnapshot.latest_eq_none.2 (BalanceSnapshot.takenBy_eq_nil_iff.2 hnone)
  unfold choose
  split
  · rename_i hsome
    rw [hlatest] at hsome
    contradiction
  · rfl

theorem counts_iff : Counts accountId snapshots policy date currency result ↔
    result = choose accountId snapshots policy date currency := by
  constructor
  · intro h
    cases h with
    | observed hsplit htaken hbefore hafter =>
      unfold choose
      rw [BalanceSnapshot.latest_takenBy_eq_some_iff.2 ⟨_, _, hsplit, htaken, hbefore, hafter⟩]
      rfl
    | skipped hnone hpolicy => rw [choose_of_none hnone, hpolicy]
    | zero hnone hpolicy =>
      rw [choose_of_none hnone, hpolicy]
      rfl
    | carried hnone hpolicy hsplit hbefore hafter =>
      rw [choose_of_none hnone, hpolicy]
      simp only [BalanceSnapshot.earliest_eq_some_iff.2 ⟨_, _, hsplit, hbefore, hafter⟩]
      rfl
    | absent hempty hpolicy =>
      rw [hempty, hpolicy]
      rfl
  · rintro rfl
    cases hlatest : latest (takenBy snapshots date) with
    | some s =>
      obtain ⟨before, after, hsplit, htaken, hbefore, hafter⟩ :=
        BalanceSnapshot.latest_takenBy_eq_some_iff.1 hlatest
      unfold choose
      rw [hlatest]
      exact .observed hsplit htaken hbefore hafter
    | none =>
      have hnone := BalanceSnapshot.takenBy_eq_nil_iff.1 (BalanceSnapshot.latest_eq_none.1 hlatest)
      rw [choose_of_none hnone]
      cases policy with
      | none => exact .skipped hnone rfl
      | zero => exact .zero hnone rfl
      | carryEarliest =>
        cases hearliest : earliest snapshots with
        | some s =>
          obtain ⟨before, after, hsplit, hbefore, hafter⟩ := BalanceSnapshot.earliest_eq_some_iff.1 hearliest
          exact .carried hnone rfl hsplit hbefore hafter
        | none =>
          rw [BalanceSnapshot.earliest_eq_argmin, List.argmin_eq_none] at hearliest
          exact .absent hearliest rfl

variable {date' : Date} {effective effective' : EffectiveBalance}

/-- Where nothing counts on a date, nothing did on an earlier one. -/
theorem choose_eq_none_of_le (h : date ≤ date') (hnone : choose accountId snapshots policy date' currency = none) :
    choose accountId snapshots policy date currency = none := by
  cases counts_iff.2 hnone.symm with
  | skipped hlater hpolicy =>
    rw [choose_of_none fun t ht => (Timestamp.endOfDay_mono h).trans_lt (hlater t ht), hpolicy]
  | absent hempty hpolicy =>
    rw [hempty, hpolicy]
    rfl

/-- The instant of what counts moves forward with the date, as long as it is not a zero of the policy. -/
theorem instant_le_of_choose (h : date ≤ date')
    (hchoose : choose accountId snapshots policy date currency = some effective)
    (hchoose' : choose accountId snapshots policy date' currency = some effective')
    (hzero : effective.backfill ≠ some .zero) (hzero' : effective'.backfill ≠ some .zero) :
    effective.timestamp.instant ≤ effective'.timestamp.instant := by
  cases counts_iff.2 hchoose.symm with
  | @observed before after s hsplit htaken _ _ =>
    -- the snapshot is still there on the later date, so one that is no earlier counts
    have hs : s ∈ snapshots := by simp [hsplit]
    have hmem := BalanceSnapshot.takenBy_subset h (BalanceSnapshot.mem_takenBy.2 ⟨hs, htaken⟩)
    obtain ⟨t, -, hle, ht⟩ := choose_of_takenBy hmem accountId policy currency
    obtain rfl := Option.some.inj (ht.symm.trans hchoose')
    exact hle
  | zero => exact absurd rfl hzero
  | carried _ _ hsplit hbefore hafter =>
    -- the earliest of all snapshots is no later than the one that counts then
    have hearliest := BalanceSnapshot.earliest_eq_some_iff.2 ⟨_, _, hsplit, hbefore, hafter⟩
    obtain ⟨backfill, t, ht, rfl⟩ | rfl := choose_cases hchoose'
    · exact BalanceSnapshot.le_of_earliest hearliest ht
    · exact absurd rfl hzero'

/-- For every list of snapshots, in whatever order they were recorded, exactly the balance that counts is
selected; on a later date there is one if there was one before, and unless a zero stands for either it is no
earlier. -/
theorem select_counts (accountId : String) (snapshots : List BalanceSnapshot) (policy : Backfill)
    (currency : String) :
    (∀ date, ∃ result, (select accountId snapshots policy date currency).outcome = .ok result ∧
      ∀ other, Counts accountId snapshots policy date currency other ↔ other = result) ∧
    ∀ date date' result result', date ≤ date' →
      (select accountId snapshots policy date currency).outcome = .ok result →
      (select accountId snapshots policy date' currency).outcome = .ok result' →
      (∀ e ∈ result, ∀ e' ∈ result', e.backfill ≠ some .zero → e'.backfill ≠ some .zero →
        e.timestamp.instant ≤ e'.timestamp.instant) ∧ (result.isSome → result'.isSome) := by
  refine ⟨fun date => ⟨_, select_outcome, fun other => counts_iff⟩, ?_⟩
  intro date date' result result' hdates hresult hresult'
  obtain rfl := Except.ok.inj (hresult.symm.trans select_outcome)
  obtain rfl := Except.ok.inj (hresult'.symm.trans select_outcome)
  refine ⟨fun e he e' he' => instant_le_of_choose hdates he he', fun hsome => ?_⟩
  by_contra hnone
  rw [choose_eq_none_of_le hdates (Option.not_isSome_iff_eq_none.1 hnone)] at hsome
  contradiction

def firstDay : Date := ⟨Date.yearStart 2020, by decide⟩

def secondDay : Date := ⟨Date.yearStart 2020 + 1, by decide⟩

def recordedBackwards : List BalanceSnapshot := [.at (.endOfDay secondDay) [], .at (.endOfDay firstDay) []]

/-- On either day the snapshot of the day is selected. -/
theorem recordedBackwards_selected : ∃ e e', firstDay ≤ secondDay ∧
    (select "purse" recordedBackwards .zero firstDay "USD").outcome = .ok (some e) ∧
    (select "purse" recordedBackwards .zero secondDay "USD").outcome = .ok (some e') ∧
    e.backfill ≠ some .zero ∧ e'.backfill ≠ some .zero ∧ e.timestamp.instant ≤ e'.timestamp.instant := by
  have hfirst : (select "purse" recordedBackwards .zero firstDay "USD").outcome =
      .ok (some ⟨"purse", .endOfDay firstDay, [], none⟩) := rfl
  have hsecond : (select "purse" recordedBackwards .zero secondDay "USD").outcome =
      .ok (some ⟨"purse", .endOfDay secondDay, [], none⟩) := rfl
  have hdays : firstDay ≤ secondDay := by decide
  refine ⟨_, _, hdays, hfirst, hsecond, by simp, by simp, ?_⟩
  exact ((select_counts "purse" recordedBackwards .zero "USD").2 _ _ _ _ hdays hfirst hsecond).1
    _ rfl _ rfl (by simp) (by simp)

end EffectiveBalance

end NetWorth
