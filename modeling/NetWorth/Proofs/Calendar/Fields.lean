import Mathlib.Algebra.Order.Ring.Nat
import NetWorth.Calendar.Date

/-! # The fields of a date

The years divide the days up, and so do the months of a year. So every date is named by its year, its
month and its day of the month, and later dates have later months. -/
namespace NetWorth.Date

theorem yearStart_succ {year : Nat} (h : 1 ≤ year) :
    yearStart (year + 1) = yearStart year + if isLeap year then 366 else 365 := by
  obtain ⟨n, rfl⟩ := Nat.exists_eq_add_of_le' h
  have hcentury : n / 100 ≤ 365 * n + n / 4 + n / 400 :=
    (Nat.div_le_self n 100).trans (by omega)
  simp only [yearStart, isLeap, Nat.add_sub_cancel, Nat.succ_div, Nat.dvd_iff_mod_eq_zero,
    Bool.and_eq_true, Bool.or_eq_true, decide_eq_true_eq]
  split_ifs <;> omega

theorem yearStart_mono {year later : Nat} (h : year ≤ later) : yearStart year ≤ yearStart later := by
  induction later, h using Nat.le_induction with
  | base => exact Nat.le_refl _
  | succ later _ ih =>
    refine ih.trans ?_
    cases later with
    | zero => exact Nat.le_refl 0
    | succ n =>
      rw [yearStart_succ (Nat.le_add_left 1 n)]
      exact Nat.le_add_right _ _

theorem yearStart_yearOf_le (day : Nat) : yearStart (yearOf day) ≤ day := by
  unfold yearOf
  dsimp only
  split
  · unfold yearStart at *
    omega
  · split <;> omega

theorem lt_yearStart_yearOf_succ (day : Nat) : day < yearStart (yearOf day + 1) := by
  unfold yearOf
  dsimp only
  split
  · unfold yearStart at *
    omega
  · split
    · unfold yearStart at *
      omega
    · omega

theorem yearOf_eq {day year : Nat} (hstart : yearStart year ≤ day) (hend : day < yearStart (year + 1)) :
    yearOf day = year := by
  have hle := yearStart_yearOf_le day
  have hlt := lt_yearStart_yearOf_succ day
  by_contra hne
  rcases Nat.lt_or_gt_of_ne hne with hbefore | hafter
  · have := yearStart_mono (by omega : yearOf day + 1 ≤ year)
    omega
  · have := yearStart_mono (by omega : year + 1 ≤ yearOf day)
    omega

theorem one_le_yearOf (day : Nat) : 1 ≤ yearOf day := by
  by_contra h
  obtain hzero : yearOf day = 0 := by omega
  have := lt_yearStart_yearOf_succ day
  rw [hzero] at this
  simp [yearStart] at this

theorem yearOf_mono {day later : Nat} (h : day ≤ later) : yearOf day ≤ yearOf later := by
  by_contra hlt
  have hyears := yearStart_mono (by omega : yearOf later + 1 ≤ yearOf day)
  have := lt_yearStart_yearOf_succ later
  have := yearStart_yearOf_le day
  omega

theorem yearOf_le {day : Nat} (h : day < dayCount) : yearOf day ≤ 9999 := by
  by_contra hlt
  have hyears := yearStart_mono (by omega : 10000 ≤ yearOf day)
  have := yearStart_yearOf_le day
  have hend : yearStart 10000 = dayCount := by decide
  omega

/-- The day of a month that a count of days leads to lies in that month, and the months before make up the
rest of the count. -/
theorem monthOf_spec {lengths : List Nat} {n : Nat} (h : n < lengths.sum) :
    1 ≤ (monthOf lengths n).1 ∧ 1 ≤ (monthOf lengths n).2 ∧
      (monthOf lengths n).2 ≤ lengths.getD ((monthOf lengths n).1 - 1) 0 ∧
      (lengths.take ((monthOf lengths n).1 - 1)).sum + ((monthOf lengths n).2 - 1) = n := by
  induction lengths generalizing n with
  | nil => simp at h
  | cons length rest ih =>
    rw [monthOf]
    by_cases hn : n < length
    · rw [if_pos hn]
      simp
      omega
    · rw [if_neg hn]
      rw [List.sum_cons] at h
      obtain ⟨hmonth, hday, hlast, hsum⟩ := ih (by omega : n - length < rest.sum)
      obtain ⟨month, hm⟩ := Nat.exists_eq_add_of_le' hmonth
      simp only [hm, Nat.add_sub_cancel] at hlast hsum ⊢
      refine ⟨by omega, hday, hlast, ?_⟩
      rw [List.take_succ_cons, List.sum_cons]
      omega

theorem monthOf_mono {lengths : List Nat} {m n : Nat} (h : m ≤ n) (hn : n < lengths.sum) :
    (monthOf lengths m).1 ≤ (monthOf lengths n).1 := by
  induction lengths generalizing m n with
  | nil => simp at hn
  | cons length rest ih =>
    rw [List.sum_cons] at hn
    simp only [monthOf]
    by_cases hm : m < length
    · rw [if_pos hm]
      split
      · exact Nat.le_refl 1
      · exact Nat.le_add_left 1 _
    · rw [if_neg hm, if_neg (by omega)]
      exact Nat.succ_le_succ (ih (by omega) (by omega))

theorem monthOf_le_length {lengths : List Nat} {n : Nat} (h : n < lengths.sum) :
    (monthOf lengths n).1 ≤ lengths.length := by
  induction lengths generalizing n with
  | nil => simp at h
  | cons length rest ih =>
    rw [List.sum_cons] at h
    rw [monthOf]
    split
    · simp
    · exact Nat.succ_le_succ (ih (by omega))

/-- The months before a day of a month, and the days before it in its month, lead to that day. -/
theorem monthOf_eq {lengths : List Nat} {month day : Nat} (hmonth : 1 ≤ month) (hday : 1 ≤ day)
    (hlast : day ≤ lengths.getD (month - 1) 0) :
    (lengths.take (month - 1)).sum + (day - 1) < lengths.sum ∧
      monthOf lengths ((lengths.take (month - 1)).sum + (day - 1)) = (month, day) := by
  obtain ⟨earlier, rfl⟩ := Nat.exists_eq_add_of_le' hmonth
  rw [Nat.add_sub_cancel] at hlast ⊢
  induction lengths generalizing earlier with
  | nil =>
    rw [List.getD_nil] at hlast
    omega
  | cons length rest ih =>
    cases earlier with
    | zero =>
      rw [List.getD_cons_zero] at hlast
      rw [List.take_zero, List.sum_nil, Nat.zero_add, List.sum_cons, monthOf, if_pos (by omega)]
      exact ⟨by omega, by rw [Nat.sub_add_cancel hday]⟩
    | succ earlier =>
      rw [List.getD_cons_succ] at hlast
      obtain ⟨hlt, hrest⟩ := ih earlier (Nat.le_add_left 1 earlier) hlast
      rw [List.take_succ_cons, List.sum_cons, List.sum_cons, monthOf, if_neg (by omega),
        Nat.add_assoc, Nat.add_sub_cancel_left, hrest]
      exact ⟨by omega, rfl⟩

theorem sum_monthLengths (leap : Bool) : (monthLengths leap).sum = if leap then 366 else 365 := by
  cases leap <;> rfl

variable {d e : Date}

def dayOfYear (d : Date) : Nat := d.day - yearStart d.year

theorem yearStart_add_dayOfYear (d : Date) : yearStart d.year + d.dayOfYear = d.day :=
  Nat.add_sub_cancel' (yearStart_yearOf_le d.day)

theorem one_le_year (d : Date) : 1 ≤ d.year := one_le_yearOf d.day

theorem dayOfYear_lt (d : Date) : d.dayOfYear < (monthLengths (isLeap d.year)).sum := by
  have hday := yearStart_add_dayOfYear d
  have hnext : d.day < yearStart (d.year + 1) := lt_yearStart_yearOf_succ d.day
  rw [yearStart_succ d.one_le_year] at hnext
  rw [sum_monthLengths]
  omega

theorem year_le (d : Date) : d.year ≤ 9999 := yearOf_le d.day_lt

theorem month_pos (d : Date) : 1 ≤ d.month := (monthOf_spec d.dayOfYear_lt).1

theorem month_le (d : Date) : d.month ≤ 12 := monthOf_le_length d.dayOfYear_lt

theorem dayOfMonth_le (d : Date) : d.dayOfMonth ≤ 31 := by
  have hlast : d.dayOfMonth ≤ (monthLengths (isLeap d.year)).getD (d.month - 1) 0 :=
    (monthOf_spec d.dayOfYear_lt).2.2.1
  have hlengths : ∀ leap, ∀ length ∈ monthLengths leap, length ≤ 31 := by decide
  rw [List.getD_eq_getElem?_getD] at hlast
  cases hlength : (monthLengths (isLeap d.year))[d.month - 1]? with
  | none =>
    rw [hlength, Option.getD_none] at hlast
    omega
  | some length =>
    rw [hlength, Option.getD_some] at hlast
    exact hlast.trans (hlengths _ length (List.mem_of_getElem? hlength))

/-- A date is the one that its fields name. -/
theorem ofFields?_fields (d : Date) : ofFields? d.year d.month d.dayOfMonth = some d := by
  obtain ⟨hmonth, hday, hlast, hsum⟩ := monthOf_spec d.dayOfYear_lt
  have hfields : 1 ≤ d.year ∧ d.year ≤ 9999 ∧ 1 ≤ d.month ∧ 1 ≤ d.dayOfMonth ∧
      d.dayOfMonth ≤ (monthLengths (isLeap d.year)).getD (d.month - 1) 0 :=
    ⟨d.one_le_year, d.year_le, hmonth, hday, hlast⟩
  have hcount : yearStart d.year + ((monthLengths (isLeap d.year)).take (d.month - 1)).foldr (· + ·) 0
      + (d.dayOfMonth - 1) = d.day :=
    (Nat.add_assoc _ _ _).trans ((congrArg (yearStart d.year + ·) hsum).trans (yearStart_add_dayOfYear d))
  simp only [ofFields?, if_pos hfields]
  rw [dif_pos (hcount ▸ d.inRange)]
  exact congrArg some (ext_day hcount)

/-- The fields of a date tell it from every other. -/
theorem eq_iff_fields :
    d = e ↔ d.year = e.year ∧ d.month = e.month ∧ d.dayOfMonth = e.dayOfMonth := by
  constructor
  · rintro rfl
    exact ⟨rfl, rfl, rfl⟩
  · rintro ⟨hyear, hmonth, hday⟩
    have hd := ofFields?_fields d
    rw [hyear, hmonth, hday, ofFields?_fields e] at hd
    exact (Option.some.inj hd).symm

theorem eq_iff_day : d = e ↔ d.day = e.day := ⟨congrArg day, ext_day⟩

/-- The Monday on or before a date, as a count of days. The calendar starts on a Monday. -/
def monday (d : Date) : Nat := d.day - d.day % 7

theorem year_mono (h : d ≤ e) : d.year ≤ e.year := yearOf_mono h

theorem month_mono (h : d ≤ e) : d.year * 12 + d.month ≤ e.year * 12 + e.month := by
  rcases (year_mono h).lt_or_eq with hyear | hyear
  · have := d.month_le
    have := e.month_pos
    omega
  · have hle : d.dayOfYear ≤ e.dayOfYear := by
      unfold dayOfYear
      rw [hyear]
      exact Nat.sub_le_sub_right h _
    have hmonths : d.month ≤ e.month := by
      have hlengths : monthLengths (isLeap d.year) = monthLengths (isLeap e.year) := by rw [hyear]
      unfold month monthAndDay
      rw [hlengths]
      exact monthOf_mono hle e.dayOfYear_lt
    omega

theorem dayOfMonth_lt (h : d < e) (hyear : d.year = e.year) (hmonth : d.month = e.month) :
    d.dayOfMonth < e.dayOfMonth := by
  obtain ⟨-, hday, -, hsum⟩ := monthOf_spec d.dayOfYear_lt
  obtain ⟨-, hday', -, hsum'⟩ := monthOf_spec e.dayOfYear_lt
  have hstart := yearStart_add_dayOfYear d
  have hstart' := yearStart_add_dayOfYear e
  have hmonths : (monthOf (monthLengths (isLeap e.year)) e.dayOfYear).1 =
      (monthOf (monthLengths (isLeap d.year)) d.dayOfYear).1 := hmonth.symm
  have hlt : d.day < e.day := h
  rw [hmonths, ← hyear] at hsum'
  rw [← hyear] at hday' hstart'
  show (monthOf (monthLengths (isLeap d.year)) d.dayOfYear).2 <
    (monthOf (monthLengths (isLeap e.year)) e.dayOfYear).2
  rw [← hyear]
  omega

/-- Dates are in the order of their years, then their months, then their days. -/
theorem lt_iff_fields : d < e ↔ d.year < e.year ∨
    d.year = e.year ∧ (d.month < e.month ∨ d.month = e.month ∧ d.dayOfMonth < e.dayOfMonth) := by
  have hforward : ∀ {d e : Date}, d < e → d.year < e.year ∨
      d.year = e.year ∧ (d.month < e.month ∨ d.month = e.month ∧ d.dayOfMonth < e.dayOfMonth) := by
    intro d e h
    have hyears := year_mono (Nat.le_of_lt h)
    have hmonths := month_mono (Nat.le_of_lt h)
    have hdays := dayOfMonth_lt h
    omega
  refine ⟨hforward, fun h => ?_⟩
  by_contra hle
  rcases Nat.lt_or_eq_of_le (Nat.le_of_not_lt hle) with hlt | heq
  · have := hforward (d := e) (e := d) hlt
    omega
  · obtain rfl : e = d := ext_day heq
    omega

end NetWorth.Date
