import NetWorth.Proofs.Decimal.Percentage
import NetWorth.Proofs.History.Slices

/-! # Summaries of histories

The summary compares the first value of a history with the last. Values with at most 22 digits on a common
grid are compared exactly. A summary fails only if its change in percent has more than 28 digits, which takes a
first value that is smaller than the last by 24 powers of ten. -/
namespace NetWorth.HistorySummary

open Decimal (valueOf? HasPlaces Rounds nearestUnits percentText)

def Writes (x : ℚ) (text : String) : Prop := ∃ d : Decimal, d.toRat = x ∧ text = d.canonical

/-- What a summary says of a first and a last value. -/
structure Compares (i f : ℚ) (s : HistorySummary) : Prop where
  initial : Writes i s.initial
  final : Writes f s.final
  absoluteChange : Writes (f - i) s.absoluteChange
  percentageChange : s.percentageChange = if i = 0 then "N/A" else percentText (100 * (f - i) / i)

theorem ofValues_of_short {values : List String} (h : values.length < 2) : ofValues values = .ok none := by
  match values with
  | [] => rfl
  | [_] => rfl
  | _ :: _ :: _ => simp at h

theorem ofValues_ends {points : List HistoryPoint} {first last : HistoryPoint} (hcount : 2 ≤ points.length)
    (hfirst : points.head? = some first) (hlast : points.getLast? = some last) :
    ofValues (points.map (·.totalValue)) = (ofEnds first.totalValue last.totalValue).map some := by
  match points with
  | a :: b :: rest =>
    obtain rfl := Option.some.inj hfirst
    rw [List.getLast?_cons_cons, List.getLast?_eq_some_getLast (by simp)] at hlast
    show (ofEnds a.totalValue (((b :: rest).map (·.totalValue)).getLast (by simp))).map some = _
    rw [List.getLast_map, Option.some.inj hlast]

theorem read_of_valueOf? {text : String} {x : ℚ} (h : valueOf? text = some x) :
    ∃ d, Amount.read (.text text) none = .ok d ∧ d.toRat = x := by
  obtain ⟨d, hd, rfl⟩ := Option.map_eq_some_iff.1 h
  exact ⟨d, by rw [Amount.read, hd], rfl⟩

variable {first last : String} {initial final change : Decimal}

theorem ofEnds_eq (hinitial : Amount.read (.text first) none = .ok initial)
    (hfinal : Amount.read (.text last) none = .ok final) (hchange : final.sub initial = .ok change) :
    ofEnds first last = (percentage initial final).map fun percent =>
      ⟨initial.canonical, final.canonical, change.canonical, percent⟩ := by
  simp only [ofEnds, hinitial, hfinal, hchange, ofSignal_ok, bind, Except.bind]
  cases percentage initial final <;> rfl

theorem percentage_of_zero (hzero : initial.toRat = 0) (final : Decimal) :
    percentage initial final = .ok "N/A" := by
  have hisZero : (Number.finite initial).isZero = true := by
    simpa [Number.isZero, Decimal.isZero] using Decimal.toRat_eq_zero.1 hzero
  have hsignalling : (Number.finite initial).isSignalling = false := rfl
  simp only [percentage, Number.percentageChange, hsignalling, hisZero, Bool.false_eq_true, if_false, if_true]
  rfl

theorem units_lt {k : Nat} {x : ℚ} (h : HasPlaces k x) (hsize : |x| < 10 ^ ((22 : Int) - k)) :
    ∃ n : Int, x * 10 ^ k = n ∧ |n| < 10 ^ 22 := by
  obtain ⟨n, hn⟩ := h
  refine ⟨n, hn, ?_⟩
  have hpow : (0 : ℚ) < 10 ^ k := by positivity
  have hcast : ((|n| : Int) : ℚ) < (10 ^ 22 : Int) := by
    rw [Int.cast_abs, ← hn, abs_mul, abs_of_pos hpow, ← lt_div_iff₀ hpow]
    rw [zpow_sub₀ (by norm_num), zpow_natCast, zpow_ofNat] at hsize
    push_cast
    exact hsize
  exact_mod_cast hcast

theorem sub_exact {k : Nat} (hk : k ≤ 1000) (hi : HasPlaces k initial.toRat) (hf : HasPlaces k final.toRat)
    (hisize : |initial.toRat| < 10 ^ ((22 : Int) - k)) (hfsize : |final.toRat| < 10 ^ ((22 : Int) - k)) :
    ∃ change, final.sub initial = .ok change ∧ change.toRat = final.toRat - initial.toRat := by
  have hless : |final.toRat - initial.toRat| < 10 ^ (-(k : Int) + Decimal.precision) := by
    have htriangle := abs_sub final.toRat initial.toRat
    have hpow : (10 : ℚ) ^ (-(k : Int) + Decimal.precision) = 10 ^ ((22 : Int) - k) * 10 ^ 6 := by
      rw [← zpow_natCast, ← zpow_add₀ (by norm_num)]
      congr 1
      simp only [Decimal.precision]
      omega
    have hpos := (abs_nonneg _).trans_lt hisize
    rw [hpow]
    linarith
  have hsize : |final.toRat - initial.toRat| < 10 ^ Decimal.greatestExponent := by
    refine hless.trans_le (zpow_le_zpow_right₀ (by norm_num) ?_)
    simp only [Decimal.precision, Decimal.greatestExponent]
    omega
  obtain ⟨change, hchange, hrounds⟩ := Decimal.sub_rounds hsize
  refine ⟨change, hchange, hrounds.eq_of_hasPlaces (hf.sub hi) hless ?_⟩
  simp only [Decimal.leastQuantum]
  omega

/-- A history whose first and last values are less than `10 ^ 22` units of a common grid has a summary: the
change is exact, and its percentage is rounded once. -/
theorem compares_ends {points : List HistoryPoint} {first last : HistoryPoint} {k : Nat} {i f : ℚ}
    (hcount : 2 ≤ points.length) (hfirst : points.head? = some first) (hlast : points.getLast? = some last)
    (hk : k ≤ 1000) (hi : valueOf? first.totalValue = some i) (hf : valueOf? last.totalValue = some f)
    (hiplaces : HasPlaces k i) (hfplaces : HasPlaces k f) (hisize : |i| < 10 ^ ((22 : Int) - k))
    (hfsize : |f| < 10 ^ ((22 : Int) - k)) :
    ∃ s, ofValues (points.map (·.totalValue)) = .ok (some s) ∧ Compares i f s ∧
      s.percentageChange ≠ "-0.00" := by
  obtain ⟨initial, hinitial, rfl⟩ := read_of_valueOf? hi
  obtain ⟨final, hfinal, rfl⟩ := read_of_valueOf? hf
  obtain ⟨change, hchange, hvalue⟩ := sub_exact hk hiplaces hfplaces hisize hfsize
  rw [ofValues_ends hcount hfirst hlast, ofEnds_eq hinitial hfinal hchange]
  by_cases hzero : initial.toRat = 0
  · rw [percentage_of_zero hzero]
    have hplain : "N/A" ≠ "-0.00" := by decide
    exact ⟨_, rfl, ⟨⟨_, rfl, rfl⟩, ⟨_, rfl, rfl⟩, ⟨_, hvalue, rfl⟩, (if_pos hzero).symm⟩, hplain⟩
  · have hpercent : percentage initial final =
        .ok (percentText (100 * (final.toRat - initial.toRat) / initial.toRat)) := by
      obtain ⟨m, hm, hmsize⟩ := units_lt hiplaces hisize
      obtain ⟨n, hn, hnsize⟩ := units_lt hfplaces hfsize
      have hpow : (10 : ℚ) ^ k ≠ 0 := by positivity
      have hm0 : m ≠ 0 := by
        rintro rfl
        exact (mul_ne_zero hzero hpow) (by rw [hm, Int.cast_zero])
      have hratio : change.toRat / initial.toRat = (n - m : Int) / m := by
        rw [hvalue, Int.cast_sub, ← hm, ← hn, ← sub_mul, mul_div_mul_right _ _ hpow]
      have hdifference : |n - m| < 2 * 10 ^ 22 := by
        have := abs_sub n m
        omega
      rw [percentage, Decimal.percentageChange_exact hzero hchange hratio hdifference hmsize hm0, hvalue,
        mul_div_assoc]
      rfl
    rw [hpercent]
    exact ⟨_, rfl, ⟨⟨_, rfl, rfl⟩, ⟨_, rfl, rfl⟩, ⟨_, hvalue, rfl⟩, (if_neg hzero).symm⟩, Decimal.percentText_ne _⟩

open HistoryReport (purseOn pursePoint purseChange nextDay wholeTimeline)
open Collection (tradingDay)

theorem valueOf?_of_parse? {text : String} {d : Decimal} {x : ℚ} (hd : Decimal.parse? text = some d)
    (hx : d.toRat = x) : valueOf? text = some x := by
  rw [valueOf?, hd, Option.map_some, hx]

/-- A purse that loses one of its three dollars is worth a third less. -/
theorem third_lost : ∃ s, ofValues ([pursePoint tradingDay "3", pursePoint nextDay "2"].map (·.totalValue)) =
      .ok (some s) ∧ Compares 3 2 s ∧ s.percentageChange ≠ "-0.00" := by
  have hthree : valueOf? "3" = some 3 := valueOf?_of_parse? (d := ⟨false, 3, 0⟩) (by decide +kernel)
    (by norm_num [Decimal.toRat, Decimal.signed])
  have htwo : valueOf? "2" = some 2 := valueOf?_of_parse? (d := ⟨false, 2, 0⟩) (by decide +kernel)
    (by norm_num [Decimal.toRat, Decimal.signed])
  exact compares_ends (k := 0) le_rfl rfl rfl (by decide) hthree htwo ⟨3, by norm_num⟩ ⟨2, by norm_num⟩
    (by norm_num) (by norm_num)

/-- The last value is so much larger than the first that the change in percent, with two places, has more than
28 digits. -/
def Outgrows (i f : ℚ) : Prop :=
  i ≠ 0 ∧ ∃ change : Decimal, Rounds (f - i) change ∧ 10 ^ 28 ≤ nearestUnits (100 * (change.toRat / i)) 2

/-- A canonical text of at most 28 digits, of zero or of a number that is neither tiny nor huge. -/
def Reported (text : String) : Prop := ∃ d : Decimal, text = d.canonical ∧
  Text.digitCount d.coefficient ≤ 28 ∧
  (d.toRat = 0 ∨ 10 ^ (-100 : Int) ≤ |d.toRat| ∧ |d.toRat| ≤ 10 ^ (100 : Int))

theorem Reported.value {text : String} (h : Reported text) :
    ∃ x, valueOf? text = some x ∧ (x = 0 ∨ 10 ^ (-100 : Int) ≤ |x|) ∧ |x| ≤ 10 ^ (100 : Int) := by
  obtain ⟨d, rfl, hdigits, hsize⟩ := h
  by_cases hzero : d.toRat = 0
  · refine ⟨0, ?_, .inl rfl, by norm_num⟩
    rw [Decimal.canonical_eq_of_toRat_eq (hzero.trans Decimal.toRat_zero.symm),
      Decimal.valueOf?_canonical Decimal.zero_inContext, Decimal.toRat_zero]
  · obtain ⟨hlower, hupper⟩ := hsize.resolve_left hzero
    have hd : d.coefficient ≠ 0 := fun h0 => hzero (Decimal.toRat_of_coefficient_zero h0)
    have habove : -100 < d.magnitude :=
      (zpow_lt_zpow_iff_right₀ (by norm_num : (1 : ℚ) < 10)).1 (hlower.trans_lt d.abs_toRat_lt)
    have hbelow : d.magnitude ≤ 101 := by
      refine Decimal.magnitude_le_of_abs_lt hd (hupper.trans_lt ?_)
      exact zpow_lt_zpow_right₀ (by norm_num) (by norm_num)
    have hcontext : d.InContext := by
      constructor <;> simp only [Decimal.magnitude, Decimal.leastQuantum, Decimal.greatestExponent] at * <;> omega
    exact ⟨d.toRat, Decimal.valueOf?_canonical hcontext, .inr hlower, hupper⟩

theorem ofEnds_error_iff {first last : String} {i f : ℚ} {failure : Failure} (hi : valueOf? first = some i)
    (hf : valueOf? last = some f) (hleast : i = 0 ∨ 10 ^ (-100 : Int) ≤ |i|) (hismall : |i| ≤ 10 ^ (100 : Int))
    (hfsmall : |f| ≤ 10 ^ (100 : Int)) :
    ofEnds first last = .error failure ↔ failure = .arithmetic .invalidOperation ∧ Outgrows i f := by
  obtain ⟨initial, hinitial, rfl⟩ := read_of_valueOf? hi
  obtain ⟨final, hfinal, rfl⟩ := read_of_valueOf? hf
  have hdifference : |final.toRat - initial.toRat| < 10 ^ (101 : Int) := by
    have htriangle := abs_sub final.toRat initial.toRat
    norm_num at hismall hfsmall ⊢
    linarith
  obtain ⟨change, hchange, hrounds⟩ := Decimal.sub_rounds (hdifference.trans_le
    (zpow_le_zpow_right₀ (by norm_num) (by decide : (101 : Int) ≤ Decimal.greatestExponent)))
  rw [ofEnds_eq hinitial hfinal hchange]
  by_cases hzero : initial.toRat = 0
  · rw [percentage_of_zero hzero]
    refine ⟨fun herror => ?_, fun h => absurd hzero h.2.1⟩
    contradiction
  · have hsize : |change.toRat / initial.toRat| < 10 ^ (Decimal.greatestExponent - 3) := by
      have hnumerator := hrounds.abs_le_pow (by decide) hdifference
      have hdenominator := hleast.resolve_left hzero
      have hpos : (0 : ℚ) < 10 ^ (-100 : Int) := zpow_pos (by norm_num) _
      have hquotient : |change.toRat / initial.toRat| ≤ 10 ^ (201 : Int) := by
        rw [abs_div, div_le_iff₀ (hpos.trans_le hdenominator)]
        calc |change.toRat| ≤ 10 ^ (101 : Int) := hnumerator
          _ = 10 ^ (201 : Int) * 10 ^ (-100 : Int) := by rw [← zpow_add₀ (by norm_num)]; rfl
          _ ≤ 10 ^ (201 : Int) * |initial.toRat| := by gcongr
      exact hquotient.trans_lt (zpow_lt_zpow_right₀ (by norm_num) (by decide))
    obtain ⟨ratio, hratio, hpercent⟩ := Decimal.percentageChange_eq hzero hchange hsize
    have houtgrows : Outgrows initial.toRat final.toRat ↔
        10 ^ 28 ≤ nearestUnits (100 * (change.toRat / initial.toRat)) 2 := by
      refine ⟨?_, fun hlong => ⟨hzero, change, hrounds, hlong⟩⟩
      rintro ⟨-, other, hother, hlong⟩
      rwa [hrounds.unique hother]
    have hlong := hratio.long_percent_iff
    rw [Decimal.precision] at hlong hpercent
    rw [percentage, hpercent, houtgrows, ← hlong]
    split
    · rename_i hlong
      simp only [ofSignal_error, Except.map, Except.error.injEq, hlong, and_true]
      exact eq_comm
    · rename_i hshort
      refine ⟨fun herror => ?_, fun h => absurd h.2 hshort⟩
      contradiction

/-- A last value that is not `10 ^ 24` times further from the first than the first is from zero does not
outgrow it. -/
theorem not_outgrows_of_le {i f : ℚ} (hleast : 10 ^ (-100 : Int) ≤ |i|) (h : |f - i| ≤ (10 ^ 24 - 1) * |i|) :
    ¬ Outgrows i f := by
  rintro ⟨-, change, hrounds, hlong⟩
  have hi : 0 < |i| := (zpow_pos (by norm_num : (0 : ℚ) < 10) (-100)).trans_le hleast
  have hlong := (Decimal.long_percent_iff _).1 hlong
  rw [abs_div, mul_div_assoc', le_div_iff₀ hi] at hlong
  by_cases hsmall : |f - i| < 10 ^ (-100 : Int)
  · have hchange := hrounds.abs_le_pow (by decide) hsmall
    have := hchange.trans hleast
    linarith
  · have herror := hrounds.error_le ((zpow_le_zpow_right₀ (by norm_num) (by decide)).trans (not_lt.1 hsmall))
    have hsizes := abs_sub_abs_le_abs_sub change.toRat (f - i)
    rw [abs_sub_comm change.toRat] at hsizes
    have hbound : |f - i| / (2 * 10 ^ 27) ≤ |i| / 2000 := by
      rw [div_le_iff₀ (by norm_num)]
      linarith
    linarith

/-- The last value of a history outgrows the first. -/
def Steep (points : List HistoryPoint) : Prop :=
  2 ≤ points.length ∧ ∃ first ∈ points.head?, ∃ last ∈ points.getLast?, ∃ i f,
    valueOf? first.totalValue = some i ∧ valueOf? last.totalValue = some f ∧ Outgrows i f

variable {points : List HistoryPoint}

theorem steep_iff {first last : HistoryPoint} {i f : ℚ} (hfirst : points.head? = some first)
    (hlast : points.getLast? = some last) (hi : valueOf? first.totalValue = some i)
    (hf : valueOf? last.totalValue = some f) : Steep points ↔ 2 ≤ points.length ∧ Outgrows i f := by
  refine and_congr_right fun _ => ⟨?_, fun h => ⟨first, hfirst, last, hlast, i, f, hi, hf, h⟩⟩
  rintro ⟨first', hfirst', last', hlast', i', f', hi', hf', h⟩
  obtain rfl := Option.some.inj (hfirst.symm.trans hfirst')
  obtain rfl := Option.some.inj (hlast.symm.trans hlast')
  obtain rfl := Option.some.inj (hi.symm.trans hi')
  obtain rfl := Option.some.inj (hf.symm.trans hf')
  exact h

/-- The summary of reported values fails only if the last outgrows the first. -/
theorem error_iff_steep (h : ∀ p ∈ points, Reported p.totalValue) {failure : Failure} :
    ofValues (points.map (·.totalValue)) = .error failure ↔
      failure = .arithmetic .invalidOperation ∧ Steep points := by
  rcases lt_or_ge points.length 2 with hshort | hcount
  · rw [ofValues_of_short (by rwa [List.length_map])]
    refine ⟨fun herror => ?_, fun hsteep => absurd hsteep.2.1 (not_le.2 hshort)⟩
    contradiction
  · have hne : points ≠ [] := List.ne_nil_of_length_pos (by omega)
    have hfirst := List.head?_eq_some_head hne
    have hlast := List.getLast?_eq_some_getLast hne
    generalize points.head hne = first at hfirst
    generalize points.getLast hne = last at hlast
    obtain ⟨i, hi, hleast, hismall⟩ := (h first (List.mem_of_mem_head? hfirst)).value
    obtain ⟨f, hf, -, hfsmall⟩ := (h last (List.mem_of_getLast? hlast)).value
    have herror : (ofEnds first.totalValue last.totalValue).map some = .error failure ↔
        ofEnds first.totalValue last.totalValue = .error failure := by
      cases ofEnds first.totalValue last.totalValue <;> simp [Except.map]
    rw [ofValues_ends hcount hfirst hlast, herror, ofEnds_error_iff hi hf hleast hismall hfsmall,
      steep_iff hfirst hlast hi hf, and_iff_right hcount]

/-- Once the points of a history are valued, it fails exactly if their summary does: with an invalid operation,
if the last value outgrows the first. It does not if it is less than `10 ^ 24` times as far from it as zero. -/
theorem history_fails_iff_steep (h : ∀ p ∈ points, Reported p.totalValue) :
    (∀ failure, ofValues (points.map (·.totalValue)) = .error failure ↔
      failure = .arithmetic .invalidOperation ∧ Steep points) ∧
    (∀ first ∈ points.head?, ∀ last ∈ points.getLast?, ∀ i f, valueOf? first.totalValue = some i →
      valueOf? last.totalValue = some f → |f - i| ≤ (10 ^ 24 - 1) * |i| →
        ∃ summary, ofValues (points.map (·.totalValue)) = .ok summary) ∧
    ∀ ledger market query range timeline, query.timeline.range = .ok range →
      (query.timeline.points ledger market range).outcome = .ok timeline →
      timeline.mapM (HistoryReport.valued ledger market query) = .ok points →
      (HistoryReport.run ledger market query).outcome =
        (ofValues (points.map (·.totalValue))).map fun summary =>
          ⟨query.currency, range, query.timeline.granularity, points, summary⟩ := by
  refine ⟨fun failure => error_iff_steep h, ?_, fun _ _ _ _ _ => HistoryReport.outcome_of_valued⟩
  intro first hfirst last hlast i f hi hf hnear
  cases hvalues : ofValues (points.map (·.totalValue)) with
  | ok summary => exact ⟨summary, rfl⟩
  | error failure =>
    obtain ⟨x, hx, hleast, -⟩ := (h first (List.mem_of_mem_head? hfirst)).value
    obtain rfl := Option.some.inj (hi.symm.trans hx)
    obtain ⟨-, houtgrows⟩ := (steep_iff hfirst hlast hi hf).1 ((error_iff_steep h).1 hvalues).2
    exact absurd houtgrows (not_outgrows_of_le (hleast.resolve_left houtgrows.1) hnear)

/-- A purse with a hundred-millionth of a dollar on the first day and ten quadrillion dollars more on the next. -/
def grownPurse : Ledger :=
  (((Ledger.empty.putConnection ⟨"home", "Home", "manual"⟩).putAccount
    ⟨"purse", "Purse", "home", [], true⟩).addSnapshot "purse" (purseOn tradingDay "0.00000001")).addSnapshot
      "purse" (purseOn nextDay "10000000000000000.00000001")

def grownPoints : List HistoryPoint :=
  [pursePoint tradingDay "0.00000001", pursePoint nextDay "10000000000000000.00000001"]

theorem grown_reported : ∀ p ∈ grownPoints, Reported p.totalValue := by
  intro p hp
  simp only [grownPoints, List.mem_cons, List.not_mem_nil, or_false] at hp
  rcases hp with rfl | rfl
  · refine ⟨⟨false, 1, -8⟩, by decide +kernel, by decide, .inr ?_⟩
    norm_num [Decimal.toRat, Decimal.signed]
  · refine ⟨⟨false, 1000000000000000000000001, -8⟩, by decide +kernel, by decide, .inr ?_⟩
    norm_num [Decimal.toRat, Decimal.signed]

theorem grown_refused : ofValues (grownPoints.map (·.totalValue)) = .error (.arithmetic .invalidOperation) := by
  decide +kernel

theorem grown_steep : (∀ p ∈ grownPoints, Reported p.totalValue) ∧ Steep grownPoints :=
  ⟨grown_reported, (((history_fails_iff_steep grown_reported).1 _).1 grown_refused).2⟩

def grownQuery : HistoryQuery := .make wholeTimeline "USD" none

/-- Its history is refused although every point has been valued. -/
theorem grown_purse_has_no_history : (∀ p ∈ grownPoints, Reported p.totalValue) ∧
    ofValues (grownPoints.map (·.totalValue)) = .error (.arithmetic .invalidOperation) ∧
    ∃ timeline, (grownQuery.timeline.points grownPurse.reads MarketStore.empty.reads ⟨none, none⟩).outcome =
        .ok timeline ∧
      timeline.mapM (HistoryReport.valued grownPurse.reads MarketStore.empty.reads grownQuery) = .ok grownPoints ∧
      (HistoryReport.run grownPurse.reads MarketStore.empty.reads grownQuery).outcome =
        .error (.arithmetic .invalidOperation) := by
  have htimeline : (grownQuery.timeline.points grownPurse.reads MarketStore.empty.reads ⟨none, none⟩).outcome =
      .ok [purseChange tradingDay, purseChange nextDay] := by cbv
  have hpoints : [purseChange tradingDay, purseChange nextDay].mapM
      (HistoryReport.valued grownPurse.reads MarketStore.empty.reads grownQuery) = .ok grownPoints :=
    Outcome.ok_of_toOption (by decide +kernel)
  refine ⟨grown_reported, grown_refused, _, htimeline, hpoints, ?_⟩
  rw [HistoryReport.outcome_of_valued rfl htimeline hpoints, grown_refused]
  rfl

end NetWorth.HistorySummary
