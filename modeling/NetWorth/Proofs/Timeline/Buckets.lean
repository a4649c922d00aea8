import Mathlib.Algebra.Order.Floor.Ring
import Mathlib.Data.Rat.Floor
import NetWorth.Proofs.Calendar.Fields
import NetWorth.Timeline.Granularity

/-! # Buckets

Two instants are in one bucket exactly if the calendar names the same hour, day, week, month or year for
both, or if the same number of whole windows lies between each of them and 1970-01-01. Bucket numbers
never go back as time goes on. -/
namespace NetWorth

namespace Timestamp

theorem day_date (t : Timestamp) : t.date.day = t.wall / 86400000000 := rfl

theorem date_mono {a b : Timestamp} (h : a.wall ≤ b.wall) : a.date ≤ b.date :=
  Nat.div_le_div_right h

end Timestamp

namespace Granularity

/-- A timestamp with a date in universal time. A clock without an offset must not stand on the first day of
the calendar. -/
structure Placeable (t : Timestamp) : Prop where
  dated : t.utcDate?.isSome
  notFirst : t.isAware ∨ Timestamp.microsPerDay ≤ t.wall

theorem placed_ok_iff {t u : Timestamp} : placed t = .ok u ↔ Placeable t ∧ t.toUtc? = some u := by
  unfold placed
  constructor
  · intro h
    split at h
    · contradiction
    · rename_i hfirst
      split at h
      · rename_i v hv
        obtain rfl := Except.ok.inj h
        refine ⟨⟨by simp [Timestamp.utcDate?, hv], ?_⟩, hv⟩
        rw [not_and_or, not_lt] at hfirst
        exact hfirst.imp_left fun hoffset => Option.isSome_iff_ne_none.2 hoffset
      · contradiction
  · rintro ⟨hplaceable, hu⟩
    have hfirst : ¬ (t.offset = none ∧ t.wall < Timestamp.microsPerDay) := by
      rintro ⟨hoffset, hwall⟩
      rcases hplaceable.notFirst with haware | hday
      · simp [Timestamp.isAware, hoffset] at haware
      · omega
    rw [if_neg hfirst, hu]

theorem Placeable.exists_utc {t : Timestamp} (h : Placeable t) : ∃ u, t.toUtc? = some u := by
  have hdated := h.dated
  rw [Timestamp.utcDate?, Option.isSome_map] at hdated
  exact Option.isSome_iff_exists.1 hdated

def bucketAt (g : Granularity) (t : Timestamp) : Int := (t.toUtc?.map g.bucket).getD 0

theorem bucketAt_of_utc (g : Granularity) {t u : Timestamp} (h : t.toUtc? = some u) :
    g.bucketAt t = g.bucket u := by
  rw [bucketAt, h, Option.map_some, Option.getD_some]

variable {α : Type} {g : Granularity} {time : α → Timestamp}

theorem bucketOf_of_placeable {point : α} (h : Placeable (time point)) :
    g.bucketOf time point = .ok (g.bucketAt (time point)) := by
  obtain ⟨u, hu⟩ := h.exists_utc
  rw [bucketOf, placed_ok_iff.2 ⟨h, hu⟩, bucketAt_of_utc g hu]
  rfl

theorem placeable_of_bucketOf {point : α} {key : Int} (h : g.bucketOf time point = .ok key) :
    Placeable (time point) := by
  unfold bucketOf at h
  cases hplaced : placed (time point) with
  | error failure => simp [hplaced, Except.map] at h
  | ok u => exact (placed_ok_iff.1 hplaced).1

/-- What the readings of all clocks in one bucket have in common. -/
def fields (g : Granularity) (utc : Timestamp) : List Int :=
  match g with
  | .full => [utc.instant]
  | .hourly => [utc.date.year, utc.date.month, utc.date.dayOfMonth, utc.hour]
  | .daily => [utc.date.year, utc.date.month, utc.date.dayOfMonth]
  | .weekly => [utc.date.monday]
  | .monthly => [utc.date.year, utc.date.month]
  | .yearly => [utc.date.year]
  | .window milliseconds => [⌊((utc.instant - Timestamp.epoch : Int) : ℚ) / (1000 * milliseconds : Int)⌋]

/-- Whether two timestamps share a bucket, whatever the offsets of their clocks. -/
def SameBucket (g : Granularity) (s t : Timestamp) : Prop :=
  s.toUtc?.map g.fields = t.toUtc?.map g.fields

instance (g : Granularity) (s t : Timestamp) : Decidable (g.SameBucket s t) :=
  inferInstanceAs (Decidable (_ = _))

theorem window_pos {milliseconds : Int} (h : (window milliseconds).keepsAll = false) : 0 < milliseconds := by
  simpa [keepsAll] using h

/-- Windows are counted in whole milliseconds, which comes to the same as counting them in microseconds. -/
theorem bucket_window_ediv {milliseconds : Int} (h : 0 ≤ milliseconds) (utc : Timestamp) :
    (window milliseconds).bucket utc = (utc.instant - Timestamp.epoch) / (1000 * milliseconds) := by
  rw [bucket, Int.fdiv_eq_ediv_of_nonneg _ h, Int.fdiv_eq_ediv_of_nonneg _ (by decide),
    Int.ediv_ediv_of_nonneg (by decide)]

/-- The number of a window of some width is the whole number of such widths since 1970-01-01. -/
theorem bucket_window {milliseconds : Int} (h : 0 < milliseconds) (utc : Timestamp) :
    (window milliseconds).bucket utc =
      ⌊((utc.instant - Timestamp.epoch : Int) : ℚ) / (1000 * milliseconds : Int)⌋ := by
  have hwidth : 0 ≤ 1000 * milliseconds := by omega
  rw [Int.floor_div_cast_of_nonneg hwidth, Int.floor_intCast, bucket_window_ediv h.le]

theorem bucket_eq_iff (hg : g.keepsAll = false) {a b : Timestamp} :
    g.bucket a = g.bucket b ↔ g.fields a = g.fields b := by
  cases g with
  | full => contradiction
  | hourly =>
    simp only [bucket, fields, List.cons.injEq, and_true, Nat.cast_inj]
    rw [← and_assoc, ← and_assoc, and_assoc (a := a.date.year = b.date.year), ← Date.eq_iff_fields,
      Date.eq_iff_day]
    simp only [Timestamp.day_date, Timestamp.hour, Timestamp.microsPerDay, Timestamp.microsPerHour]
    omega
  | daily =>
    simp only [bucket, fields, List.cons.injEq, and_true, Nat.cast_inj]
    rw [← Date.eq_iff_fields, Date.eq_iff_day]
  | weekly =>
    simp only [bucket, fields, List.cons.injEq, and_true, Date.monday]
    omega
  | monthly =>
    simp only [bucket, fields, List.cons.injEq, and_true, Nat.cast_inj]
    have := a.date.month_pos
    have := a.date.month_le
    have := b.date.month_pos
    have := b.date.month_le
    omega
  | yearly => simp [bucket, fields]
  | window milliseconds =>
    have hpos := window_pos hg
    simp only [bucket_window hpos, fields, List.cons.injEq, and_true]

/-- Buckets are numbered in the order of the calendar: by year first, then by month, and so on. -/
theorem bucket_lt_iff (hg : g.keepsAll = false) {a b : Timestamp} :
    g.bucket a < g.bucket b ↔ g.fields a < g.fields b := by
  have hdates : a.date.day < b.date.day ↔ a.date.year < b.date.year ∨ a.date.year = b.date.year ∧
      (a.date.month < b.date.month ∨ a.date.month = b.date.month ∧
        a.date.dayOfMonth < b.date.dayOfMonth) := Date.lt_iff_fields
  cases g with
  | full => contradiction
  | hourly =>
    have hsame : a.date.day = b.date.day ↔ a.date.year = b.date.year ∧ a.date.month = b.date.month ∧
        a.date.dayOfMonth = b.date.dayOfMonth := Date.eq_iff_day.symm.trans Date.eq_iff_fields
    have hhours : a.wall / 3600000000 < b.wall / 3600000000 ↔
        a.date.day < b.date.day ∨ a.date.day = b.date.day ∧ a.hour < b.hour := by
      simp only [Timestamp.day_date, Timestamp.hour, Timestamp.microsPerDay, Timestamp.microsPerHour]
      omega
    simp only [bucket, fields, List.cons_lt_cons_iff, Nat.cast_lt, Nat.cast_inj, List.lt_irrefl, and_false,
      or_false]
    omega
  | daily =>
    simp only [bucket, fields, List.cons_lt_cons_iff, Nat.cast_lt, Nat.cast_inj, List.lt_irrefl, and_false,
      or_false, hdates]
  | weekly =>
    simp only [bucket, fields, List.cons_lt_cons_iff, List.lt_irrefl, and_false, or_false, Date.monday]
    omega
  | monthly =>
    simp only [bucket, fields, List.cons_lt_cons_iff, Nat.cast_lt, Nat.cast_inj, List.lt_irrefl, and_false,
      or_false]
    have := a.date.month_pos
    have := a.date.month_le
    have := b.date.month_pos
    have := b.date.month_le
    omega
  | yearly => simp only [bucket, fields, List.cons_lt_cons_iff, List.lt_irrefl, and_false, or_false]
  | window milliseconds =>
    have hpos := window_pos hg
    simp only [bucket_window hpos, fields, List.cons_lt_cons_iff, List.lt_irrefl, and_false, or_false]

theorem sameBucket_iff (hg : g.keepsAll = false) {s t : Timestamp} (hs : Placeable s) (ht : Placeable t) :
    g.SameBucket s t ↔ g.bucketAt s = g.bucketAt t := by
  obtain ⟨u, hu⟩ := hs.exists_utc
  obtain ⟨v, hv⟩ := ht.exists_utc
  rw [bucketAt_of_utc g hu, bucketAt_of_utc g hv, bucket_eq_iff hg, SameBucket, hu, hv, Option.map_some,
    Option.map_some, Option.some_inj]

/-- No bucket reaches over midnight. -/
def WithinDays : Granularity → Prop
  | .full | .hourly | .daily => True
  | .window milliseconds => milliseconds ≤ 0 ∨ milliseconds ∣ 86400000
  | .weekly | .monthly | .yearly => False

/-- Whole windows of a width that divides the day make up whole days. -/
theorem day_eq_of_bucket_window {width : Int} (hpos : 0 < width) (hwidth : width ∣ 86400000)
    {a b : Timestamp} (ha : a.offset = some 0) (hb : b.offset = some 0)
    (h : (window width).bucket a = (window width).bucket b) : a.date = b.date := by
  obtain ⟨count, hcount⟩ := hwidth
  have hday : 1000 * width * count = 86400000000 := by
    rw [Int.mul_assoc, ← hcount]
    rfl
  simp only [bucket_window_ediv hpos.le, Timestamp.instant, ha, hb] at h
  have hdays := congrArg (· / count) h
  simp only [Int.ediv_ediv_of_nonneg (by omega : 0 ≤ 1000 * width), hday, Timestamp.epoch] at hdays
  rw [Date.eq_iff_day, Timestamp.day_date, Timestamp.day_date]
  simp only [Option.getD_some] at hdays
  omega

theorem date_eq_of_bucket (hg : g.keepsAll = false) (hdays : g.WithinDays) {a b : Timestamp}
    (ha : a.offset = some 0) (hb : b.offset = some 0) (h : g.bucket a = g.bucket b) : a.date = b.date := by
  cases g with
  | full => contradiction
  | weekly | monthly | yearly => exact hdays.elim
  | hourly =>
    simp only [bucket] at h
    rw [Date.eq_iff_day, Timestamp.day_date, Timestamp.day_date]
    omega
  | daily => exact Date.ext_day (Int.ofNat_inj.1 h)
  | window milliseconds =>
    have hpos := window_pos hg
    exact day_eq_of_bucket_window hpos (hdays.resolve_left (by omega)) ha hb h

theorem utcDate?_eq_of_sameBucket (hg : g.keepsAll = false) (hdays : g.WithinDays) {s t : Timestamp}
    (hs : Placeable s) (ht : Placeable t) (h : g.SameBucket s t) : s.utcDate? = t.utcDate? := by
  obtain ⟨u, hu⟩ := hs.exists_utc
  obtain ⟨v, hv⟩ := ht.exists_utc
  have hbucket := (sameBucket_iff hg hs ht).1 h
  rw [bucketAt_of_utc g hu, bucketAt_of_utc g hv] at hbucket
  have hdate := date_eq_of_bucket hg hdays (Timestamp.toUtc?_eq_some hu).1
    (Timestamp.toUtc?_eq_some hv).1 hbucket
  rw [Timestamp.utcDate?, Timestamp.utcDate?, hu, hv, Option.map_some, Option.map_some, hdate]

theorem bucket_mono (hg : g.keepsAll = false) {a b : Timestamp} (ha : a.offset = some 0)
    (hb : b.offset = some 0) (h : a.wall ≤ b.wall) : g.bucket a ≤ g.bucket b := by
  have hdate := Timestamp.date_mono h
  have hday : a.date.day ≤ b.date.day := hdate
  cases g with
  | full => contradiction
  | hourly =>
    simp only [bucket]
    omega
  | daily => exact Int.ofNat_le.2 hday
  | weekly =>
    simp only [bucket]
    omega
  | monthly =>
    have := Date.month_mono hdate
    simp only [bucket]
    omega
  | yearly => exact Int.ofNat_le.2 (Date.year_mono hdate)
  | window milliseconds =>
    have hpos := window_pos hg
    simp only [bucket_window_ediv hpos.le, Timestamp.instant, ha, hb]
    exact Int.ediv_le_ediv (by omega) (by omega)

theorem bucketAt_mono (hg : g.keepsAll = false) {s t : Timestamp} (hs : Placeable s) (ht : Placeable t)
    (h : s.instant ≤ t.instant) : g.bucketAt s ≤ g.bucketAt t := by
  obtain ⟨u, hu⟩ := hs.exists_utc
  obtain ⟨v, hv⟩ := ht.exists_utc
  obtain ⟨huniversal, hwall⟩ := Timestamp.toUtc?_eq_some hu
  obtain ⟨hvniversal, hvall⟩ := Timestamp.toUtc?_eq_some hv
  rw [bucketAt_of_utc g hu, bucketAt_of_utc g hv]
  exact bucket_mono hg huniversal hvniversal (by omega)

end Granularity

end NetWorth
