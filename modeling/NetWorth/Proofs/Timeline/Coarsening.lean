import NetWorth.Proofs.Timeline.Thinning

/-! # Thinning twice

Hours lie within days, days within weeks and months, months within years, and windows within windows of a
multiple of their width. So a timeline that is thinned by the finer and then by the coarser of two such
granularities loses what it loses by the coarser one alone: the last of the last points is the last. -/
namespace NetWorth

namespace Keep

variable {which : Keep} {s t u : Timestamp}

/-- What is preferred to a point is not outdone by less than what is preferred to it itself. -/
theorem Prefers.of_not (h : which.Prefers s t) (hnot : ¬ which.Prefers s u) : which.Prefers u t := by
  cases which with
  | first | last =>
    simp only [Prefers] at *
    omega

end Keep

namespace Granularity

/-- Granularities each of whose buckets lies within a bucket of the other. -/
inductive Within : Granularity → Granularity → Prop
  | hoursInDays : Within hourly daily
  | daysInWeeks : Within daily weekly
  | daysInMonths : Within daily monthly
  | monthsInYears : Within monthly yearly
  | windows {width count : Int} (hwidth : 1 ≤ width) (hcount : 1 ≤ count) :
    Within (window width) (window (width * count))

namespace Within

variable {fine coarse : Granularity}

theorem keepsAll_fine (h : Within fine coarse) : fine.keepsAll = false := by
  cases h with
  | hoursInDays | daysInWeeks | daysInMonths | monthsInYears => rfl
  | windows hwidth _ => exact decide_eq_false (by omega)

theorem keepsAll_coarse (h : Within fine coarse) : coarse.keepsAll = false := by
  cases h with
  | hoursInDays | daysInWeeks | daysInMonths | monthsInYears => rfl
  | windows hwidth hcount =>
    have := Int.mul_pos hwidth hcount
    exact decide_eq_false (by omega)

theorem bucket_eq (h : Within fine coarse) {a b : Timestamp} (hbucket : fine.bucket a = fine.bucket b) :
    coarse.bucket a = coarse.bucket b := by
  have hfields := (bucket_eq_iff h.keepsAll_fine).1 hbucket
  cases h with
  | hoursInDays =>
    simp only [bucket, Timestamp.day_date] at hbucket ⊢
    omega
  | daysInWeeks =>
    simp only [bucket] at hbucket ⊢
    omega
  | daysInMonths | monthsInYears =>
    rw [bucket_eq_iff rfl]
    simp only [fields, List.cons.injEq] at hfields ⊢
    simp only [hfields, and_self]
  | @windows width count hwidth hcount =>
    have hnarrow : 0 ≤ width := by omega
    have hwide : 0 ≤ width * count := by
      have := Int.mul_pos hwidth hcount
      omega
    have hmicros : 0 ≤ 1000 * width := by omega
    rw [bucket_window_ediv hnarrow, bucket_window_ediv hnarrow] at hbucket
    rw [bucket_window_ediv hwide, bucket_window_ediv hwide, ← Int.mul_assoc,
      ← Int.ediv_ediv_of_nonneg hmicros, ← Int.ediv_ediv_of_nonneg hmicros, hbucket]

theorem sameBucket (h : Within fine coarse) {s t : Timestamp} (hs : Placeable s) (ht : Placeable t)
    (hsame : fine.SameBucket s t) : coarse.SameBucket s t := by
  rw [sameBucket_iff h.keepsAll_fine hs ht] at hsame
  rw [sameBucket_iff h.keepsAll_coarse hs ht]
  obtain ⟨u, hu⟩ := hs.exists_utc
  obtain ⟨v, hv⟩ := ht.exists_utc
  rw [bucketAt_of_utc fine hu, bucketAt_of_utc fine hv] at hsame
  rw [bucketAt_of_utc coarse hu, bucketAt_of_utc coarse hv]
  exact h.bucket_eq hsame

end Within

variable {α : Type} {fine coarse g : Granularity} {which : Keep} {time : α → Timestamp} {points : List α}

/-- Every point of an ascending timeline has a survivor in its bucket that it is not preferred to. -/
theorem exists_survivor (g : Granularity) (which : Keep) (hascending : Ascending time points) {q : α}
    (hq : q ∈ points) :
    ∃ r ∈ g.survivors which time points, g.SameBucket (time q) (time r) ∧
      ¬ which.Prefers (time q) (time r) := by
  have hbucket := hascending.filter fun r => decide (g.SameBucket (time q) (time r))
  have hmem : q ∈ points.filter fun r => decide (g.SameBucket (time q) (time r)) :=
    List.mem_filter.2 ⟨hq, decide_eq_true rfl⟩
  obtain ⟨r, hr⟩ := which.exists_pick (List.ne_nil_of_mem hmem)
  obtain ⟨hrmem, hbest⟩ := (which.pick_eq_some_iff hbucket).1 hr
  obtain ⟨hrpoints, hsame⟩ := List.mem_filter.1 hrmem
  have hsame : g.SameBucket (time q) (time r) := of_decide_eq_true hsame
  refine ⟨r, mem_survivors.2 ⟨hrpoints, fun s hs hprefers hrs => ?_⟩, hsame, hbest q hmem⟩
  exact hbest s (List.mem_filter.2 ⟨hs, decide_eq_true (hsame.trans hrs)⟩) hprefers

theorem survivors_of_survivors (hascending : Ascending time points)
    (hsame : ∀ p ∈ points, ∀ q ∈ points, fine.SameBucket (time p) (time q) →
      coarse.SameBucket (time p) (time q)) :
    coarse.survivors which time (fine.survivors which time points) = coarse.survivors which time points := by
  rw [survivors, survivors, survivors, List.filter_filter]
  refine List.filter_congr fun p hp => ?_
  rw [← Bool.decide_and, decide_eq_decide]
  constructor
  · rintro ⟨hsurvives, -⟩ q hq hprefers hbucket
    -- the finer bucket of whatever is preferred has a survivor, which is preferred as well
    obtain ⟨r, hr, hqr, hnot⟩ := exists_survivor fine which hascending hq
    have hcoarse := hsame q hq r (mem_survivors.1 hr).1 hqr
    exact hsurvives r hr (hprefers.of_not hnot) (hbucket.trans hcoarse)
  · intro hsurvives
    refine ⟨fun q hq => hsurvives q (mem_survivors.1 hq).1, fun q hq hprefers hbucket => ?_⟩
    exact hsurvives q hq hprefers (hsame p hp q hq hbucket)

theorem sublist_of_thin (hascending : Ascending time points) {kept : List α}
    (h : g.thin which time points = .ok kept) : kept.Sublist points := by
  cases hg : g.keepsAll with
  | true =>
    rw [thin, hg, if_pos rfl] at h
    exact Except.ok.inj h ▸ List.Sublist.refl points
  | false =>
    rw [thin_eq_survivors hg hascending (placeable_of_thin hg h)] at h
    exact Except.ok.inj h ▸ List.filter_sublist

theorem thin_survivors (hwithin : Within fine coarse) (hascending : Ascending time points)
    (hplaceable : ∀ p ∈ points, Placeable (time p)) :
    coarse.thin which time (fine.survivors which time points) = coarse.thin which time points := by
  have hfine : ∀ p ∈ fine.survivors which time points, Placeable (time p) :=
    fun p hp => hplaceable p (mem_survivors.1 hp).1
  have hsame : ∀ p ∈ points, ∀ q ∈ points, fine.SameBucket (time p) (time q) →
      coarse.SameBucket (time p) (time q) :=
    fun p hp q hq => hwithin.sameBucket (hplaceable p hp) (hplaceable q hq)
  rw [thin_eq_survivors hwithin.keepsAll_coarse (ascending_survivors hascending) hfine,
    thin_eq_survivors hwithin.keepsAll_coarse hascending hplaceable, survivors_of_survivors hascending hsame]

/-- Thinning by a finer granularity first changes nothing of what a coarser one leaves of a timeline, and no
granularity reorders it. Timelines that can be placed are thinned by every granularity; others fail alike. -/
structure Absorbed (fine coarse : Granularity) (which : Keep) (time : α → Timestamp) (points : List α) :
    Prop where
  thinned : fine.thin which time points >>= coarse.thin which time = coarse.thin which time points
  sublists : ∀ (g : Granularity) (kept : List α), g.thin which time points = .ok kept → kept.Sublist points
  answers : (∀ p ∈ points, Placeable (time p)) → ∀ g : Granularity, ∃ kept,
    g.thin which time points = .ok kept

/-- Thinning by a coarser granularity makes thinning by a finer one before it superfluous. -/
theorem coarser_absorbs_finer (hwithin : Within fine coarse) (hascending : Ascending time points) :
    Absorbed fine coarse which time points := by
  refine ⟨?_, fun _ _ => sublist_of_thin hascending, fun hplaceable g => ?_⟩
  · cases hthin : fine.thin which time points with
    | error failure =>
      have hplaced := (thin_error_iff hwithin.keepsAll_fine).1 hthin
      exact ((thin_error_iff hwithin.keepsAll_coarse).2 hplaced).symm
    | ok finer =>
      have hplaceable := placeable_of_thin hwithin.keepsAll_fine hthin
      rw [thin_eq_survivors hwithin.keepsAll_fine hascending hplaceable] at hthin
      obtain rfl := Except.ok.inj hthin
      exact thin_survivors hwithin hascending hplaceable
  · cases hg : g.keepsAll with
    | true => exact ⟨points, by rw [thin, hg, if_pos rfl]⟩
    | false => exact ⟨_, thin_eq hg hplaceable⟩

def weekStartEvening : Timestamp := ⟨739249 * 86400000000 + 64800000000, some 0, by decide⟩

def newYearWeek : List Timestamp := [weekStart, weekStartEvening, weekEnd, nextWeek]

theorem new_year_week_absorbed : Within daily weekly ∧ Ascending id newYearWeek ∧
    Absorbed daily weekly .last id newYearWeek := by
  have hascending : Ascending id newYearWeek := by
    unfold Ascending
    decide
  exact ⟨.daysInWeeks, hascending, coarser_absorbs_finer .daysInWeeks hascending⟩

end Granularity

end NetWorth
