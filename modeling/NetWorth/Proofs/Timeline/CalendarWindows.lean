import NetWorth.Proofs.Timeline.Thinning

/-! # Hours and days are windows

The hours and days of the calendar are the windows of an hour and of a day since 1970-01-01: they divide
time up alike and in the same order, also before that date. So a timeline in any order, its timestamps on
clocks with any offset, is thinned alike by both. -/
namespace NetWorth

namespace Granularity

/-- Granularities that come to the same. The calendar puts instants into the same order by either of them;
either leaves the same points of every timeline, in the same order, or fails alike; and it leaves some
exactly if all timestamps can be placed. -/
structure Coincides (g h : Granularity) : Prop where
  order : ∀ a b : Timestamp, a.offset = some 0 → b.offset = some 0 →
    (g.fields a < g.fields b ↔ h.fields a < h.fields b)
  thins : ∀ {α : Type} (which : Keep) (time : α → Timestamp) (points : List α),
    g.thin which time points = h.thin which time points
  answers : ∀ {α : Type} (which : Keep) (time : α → Timestamp) (points : List α),
    (∃ kept, g.thin which time points = .ok kept) ↔ ∀ p ∈ points, Placeable (time p)

variable {g h : Granularity}

theorem thin_congr {α : Type} {which : Keep} {time : α → Timestamp} {points : List α}
    (hg : g.keepsAll = false) (hh : h.keepsAll = false)
    (horder : ∀ a b : Timestamp, a.offset = some 0 → b.offset = some 0 →
      (g.fields a < g.fields b ↔ h.fields a < h.fields b)) :
    g.thin which time points = h.thin which time points := by
  cases hthin : g.thin which time points with
  | error failure => exact ((thin_error_iff hh).2 ((thin_error_iff hg).1 hthin)).symm
  | ok kept =>
    have hplaceable := placeable_of_thin hg hthin
    rw [← hthin, thin_eq hg hplaceable, thin_eq hh hplaceable]
    refine congrArg Except.ok (values_gather_congr fun p hp q hq => ?_)
    obtain ⟨u, hu⟩ := (hplaceable p hp).exists_utc
    obtain ⟨v, hv⟩ := (hplaceable q hq).exists_utc
    have hlt := horder u v (Timestamp.toUtc?_eq_some hu).1 (Timestamp.toUtc?_eq_some hv).1
    rw [bucketAt_of_utc g hu, bucketAt_of_utc g hv, bucketAt_of_utc h hu, bucketAt_of_utc h hv,
      bucket_lt_iff hg, bucket_lt_iff hh, hlt]

/-- Granularities coincide where their buckets are numbered in the same order. -/
theorem coincides_of_bucket (hg : g.keepsAll = false) (hh : h.keepsAll = false)
    (hbucket : ∀ a b : Timestamp, a.offset = some 0 → b.offset = some 0 →
      (g.bucket a < g.bucket b ↔ h.bucket a < h.bucket b)) : g.Coincides h := by
  have horder : ∀ a b : Timestamp, a.offset = some 0 → b.offset = some 0 →
      (g.fields a < g.fields b ↔ h.fields a < h.fields b) := by
    intro a b ha hb
    rw [← bucket_lt_iff hg, ← bucket_lt_iff hh]
    exact hbucket a b ha hb
  refine ⟨horder, fun which time points => thin_congr hg hh horder, fun which time points => ⟨?_, ?_⟩⟩
  · rintro ⟨kept, hkept⟩
    exact placeable_of_thin hg hkept
  · exact fun hplaceable => ⟨_, thin_eq hg hplaceable⟩

theorem hourly_coincides : hourly.Coincides (window 3600000) := by
  refine coincides_of_bucket rfl rfl fun a b ha hb => ?_
  rw [bucket_window_ediv (by decide), bucket_window_ediv (by decide)]
  simp only [bucket, Timestamp.instant, Timestamp.epoch, ha, hb, Option.getD_some]
  omega

theorem daily_coincides : daily.Coincides (window 86400000) := by
  refine coincides_of_bucket rfl rfl fun a b ha hb => ?_
  rw [bucket_window_ediv (by decide), bucket_window_ediv (by decide)]
  simp only [bucket, Timestamp.instant, Timestamp.epoch, ha, hb, Option.getD_some, Timestamp.day_date]
  omega

theorem coincides_refl (hg : g.keepsAll = false) : g.Coincides g :=
  coincides_of_bucket hg hg fun _ _ _ _ => Iff.rfl

theorem exists_parse {texts : List String} (hg : g.keepsAll = false) (hgh : g.Coincides h)
    (htexts : ∀ text ∈ texts, (parse text).toOption = some g ∨ (parse text).toOption = some h) :
    ∀ text ∈ texts, ∃ parsed, parse text = .ok parsed ∧ g.Coincides parsed := by
  intro text htext
  rcases htexts text htext with hparse | hparse
  · exact ⟨g, Outcome.ok_of_toOption hparse, coincides_refl hg⟩
  · exact ⟨h, Outcome.ok_of_toOption hparse, hgh⟩

/-- Hours and days come to the same as windows of their length, by whichever unit these are written. -/
theorem hours_and_days_are_windows :
    hourly.Coincides (window 3600000) ∧ daily.Coincides (window 86400000) ∧
      (∀ text ∈ ["hourly", "1h", "60m"], ∃ parsed, parse text = .ok parsed ∧ hourly.Coincides parsed) ∧
      ∀ text ∈ ["daily", "24h", "1d"], ∃ parsed, parse text = .ok parsed ∧ daily.Coincides parsed := by
  refine ⟨hourly_coincides, daily_coincides, ?_, ?_⟩
  · exact exists_parse rfl hourly_coincides (by decide +kernel)
  · exact exists_parse rfl daily_coincides (by decide +kernel)

end Granularity

end NetWorth
