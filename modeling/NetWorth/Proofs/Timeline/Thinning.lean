import Mathlib.Data.List.Sort
import NetWorth.Proofs.Keyed
import NetWorth.Proofs.Timeline.Buckets

/-! # Keeping one point of each bucket

A timeline in ascending order is thinned to the points after which, or before which, no other point of
their bucket stands. What is left ascends and has no more to lose. -/
namespace NetWorth

namespace Keep

variable {α : Type}

def choose (which : Keep) (point : α) : Option α → α
  | none => point
  | some earlier => match which with
    | .first => earlier
    | .last => point

def pick (which : Keep) (points : List α) : Option α :=
  match which with
  | .first => points.head?
  | .last => points.getLast?

/-- Whether a point is kept rather than another of its bucket. -/
def Prefers (which : Keep) (s t : Timestamp) : Prop :=
  match which with
  | .first => s.instant < t.instant
  | .last => t.instant < s.instant

instance (which : Keep) (s t : Timestamp) : Decidable (which.Prefers s t) := by
  cases which <;> exact inferInstanceAs (Decidable (_ < _))

theorem foldl_choose (which : Keep) (points : List α) :
    points.foldl (fun kept p => some (which.choose p kept)) none = which.pick points := by
  induction points using List.reverseRecOn with
  | nil => cases which <;> rfl
  | append_singleton points p ih =>
    rw [List.foldl_append, ih]
    cases which with
    | first => cases points <;> rfl
    | last =>
      have hlast : (points ++ [p]).getLast? = some p := List.getLast?_concat
      show some (choose .last p points.getLast?) = (points ++ [p]).getLast?
      rw [hlast]
      cases points.getLast? <;> rfl

theorem exists_pick (which : Keep) {points : List α} (h : points ≠ []) :
    ∃ p, which.pick points = some p := by
  cases which with
  | first => exact ⟨_, List.head?_eq_some_head h⟩
  | last => exact ⟨_, List.getLast?_eq_some_getLast h⟩

theorem mem_of_pick (which : Keep) {points : List α} {p : α} (h : which.pick points = some p) :
    p ∈ points := by
  cases which with
  | first => exact List.mem_of_head? h
  | last => exact List.mem_of_getLast? h

variable {time : α → Timestamp}

/-- Of points in ascending order, that one is picked which is preferred to all others. -/
theorem pick_eq_some_iff (which : Keep) {points : List α}
    (h : points.Pairwise fun p q => (time p).instant < (time q).instant) {p : α} :
    which.pick points = some p ↔ p ∈ points ∧ ∀ q ∈ points, ¬ which.Prefers (time q) (time p) := by
  cases which with
  | first =>
    cases points with
    | nil => simp [pick]
    | cons first rest =>
      have hrest := (List.pairwise_cons.1 h).1
      simp only [pick, List.head?_cons, Option.some.injEq, Prefers, List.mem_cons, forall_eq_or_imp, not_lt]
      constructor
      · rintro rfl
        exact ⟨.inl rfl, Int.le_refl _, fun q hq => (hrest q hq).le⟩
      · rintro ⟨rfl | hp, hle, -⟩
        · rfl
        · have := hrest p hp
          omega
  | last =>
    induction points using List.reverseRecOn with
    | nil => simp [pick]
    | append_singleton before last _ =>
      have hbefore := (List.pairwise_append.1 h).2.2
      simp only [pick, List.getLast?_concat, Option.some.injEq, Prefers, List.mem_append,
        List.mem_singleton, not_lt]
      constructor
      · rintro rfl
        refine ⟨.inr rfl, ?_⟩
        rintro q (hq | rfl)
        · exact (hbefore q hq last (by simp)).le
        · exact Int.le_refl _
      · rintro ⟨hp | rfl, hle⟩
        · have := hbefore p hp last (by simp)
          have := hle last (.inr rfl)
          omega
        · rfl

end Keep

namespace Granularity

variable {α : Type} {g : Granularity} {which : Keep} {time : α → Timestamp} {points : List α}

theorem eq_of_pairwise_lt {number : α → Int} {kept others : List α}
    (hkept : kept.Pairwise fun p q => number p < number q)
    (hothers : others.Pairwise fun p q => number p < number q) (hmem : ∀ p, p ∈ kept ↔ p ∈ others) :
    kept = others := by
  have : Std.Irrefl fun p q => number p < number q := ⟨fun _ => Int.lt_irrefl _⟩
  have : Std.Antisymm fun p q => number p < number q := ⟨fun _ _ hpq hqp => by omega⟩
  exact List.Pairwise.eq_of_mem_iff hkept hothers hmem

def gather (which : Keep) (key : α → Int) (points : List α) : Keyed Int α :=
  points.foldl (fun buckets p => Keyed.alter (key p) (which.choose p) buckets) []

theorem nodup_gather (which : Keep) (key : α → Int) (points : List α) :
    (Keyed.keys (gather which key points)).Nodup := by
  have hstart : (Keyed.keys ([] : Keyed Int α)).Nodup := List.nodup_nil
  exact (Keyed.keys_foldl_alter key which.choose points hstart).1

theorem get?_gather (which : Keep) (key : α → Int) (points : List α) (k : Int) :
    Keyed.get? k (gather which key points) = which.pick (points.filter (key · = k)) := by
  rw [gather, Keyed.get?_foldl_alter, Keyed.get?_nil, Keep.foldl_choose]

theorem enter_of_placeable {point : α} (h : Placeable (time point)) (buckets : Keyed Int α) :
    g.enter which time buckets point =
      .ok (Keyed.alter (g.bucketAt (time point)) (which.choose point) buckets) := by
  unfold enter Keyed.alter
  simp only [bucketOf_of_placeable h, bind, Except.bind]
  cases hget : Keyed.get? (g.bucketAt (time point)) buckets with
  | none => cases which <;> rfl
  | some earlier =>
    cases which with
    | first => exact congrArg Except.ok (Keyed.put_eq_self hget).symm
    | last => rfl

def inOrder (buckets : Keyed Int α) : Keyed Int α := buckets.mergeSort fun a b => decide (a.1 ≤ b.1)

theorem inOrder_strict {buckets : Keyed Int α} (h : (Keyed.keys buckets).Nodup) :
    (inOrder buckets).Pairwise fun a b => a.1 < b.1 :=
  Keyed.pairwise_mergeSort_lt h (fun number => number) fun _ _ _ _ heq => heq

/-- Thinning a timeline that can be placed leaves what stands in its buckets. -/
theorem thin_eq (hg : g.keepsAll = false) (h : ∀ p ∈ points, Placeable (time p)) :
    g.thin which time points =
      .ok (Keyed.values (inOrder (gather which (fun p => g.bucketAt (time p)) points))) := by
  have hfold : points.foldlM (g.enter which time) [] =
      .ok (gather which (fun p => g.bucketAt (time p)) points) :=
    Outcome.foldlM_eq_foldl (fun buckets p hp => enter_of_placeable (h p hp) buckets) []
  rw [thin, hg, if_neg Bool.false_ne_true, hfold]
  rfl

theorem placeable_of_thin {kept : List α} (hg : g.keepsAll = false)
    (h : g.thin which time points = .ok kept) : ∀ p ∈ points, Placeable (time p) := by
  intro p hp
  rw [thin, hg, if_neg Bool.false_ne_true] at h
  obtain ⟨buckets, hbuckets, -⟩ := Outcome.andThen_ok_iff.1 h
  obtain ⟨before, after, hstep⟩ := Outcome.exists_of_foldlM hbuckets hp
  obtain ⟨key, hkey, -⟩ := Outcome.andThen_ok_iff.1 hstep
  exact placeable_of_bucketOf hkey

/-- A point is entered unless it cannot be placed, whatever stands in the buckets. -/
theorem enter_error_iff {buckets : Keyed Int α} {point : α} {failure : Failure} :
    g.enter which time buckets point = .error failure ↔ placed (time point) = .error failure := by
  unfold enter bucketOf
  cases placed (time point) with
  | error first => simp only [Except.map, bind, Except.bind, Except.error.injEq]
  | ok utc =>
    simp only [Except.map, bind, Except.bind, reduceCtorEq, iff_false]
    cases which with
    | first => cases Keyed.get? (g.bucket utc) buckets <;> simp [pure, Except.pure]
    | last => simp [pure, Except.pure]

/-- Which timelines cannot be thinned, and why, does not depend on the buckets. -/
theorem thin_error_iff (hg : g.keepsAll = false) {failure : Failure} :
    g.thin which time points = .error failure ↔
      (points.mapM fun p => placed (time p)) = .error failure := by
  have hstep : ∀ buckets p failure, g.enter which time buckets p = .error failure ↔
      placed (time p) = .error failure := fun _ _ _ => enter_error_iff
  rw [thin, hg, if_neg Bool.false_ne_true, ← Outcome.foldlM_error_iff hstep (s := [])]
  cases points.foldlM (g.enter which time) [] with
  | error first => simp only [bind, Except.bind, Except.error.injEq]
  | ok buckets => simp [bind, Except.bind, pure, Except.pure]

theorem mem_values_gather {key : α → Int} {p : α} :
    p ∈ Keyed.values (inOrder (gather which key points)) ↔
      which.pick (points.filter (key · = key p)) = some p := by
  have hentry : ∀ k, (k, p) ∈ inOrder (gather which key points) ↔
      which.pick (points.filter (key · = k)) = some p := by
    intro k
    rw [inOrder, (List.mergeSort_perm _ _).mem_iff, Keyed.mem_iff_get? (nodup_gather _ _ _), get?_gather]
  simp only [Keyed.values, List.mem_map, Prod.exists, exists_eq_right, hentry]
  constructor
  · rintro ⟨k, hpick⟩
    obtain rfl : key p = k := by simpa using (List.mem_filter.1 (which.mem_of_pick hpick)).2
    exact hpick
  · exact fun hpick => ⟨key p, hpick⟩

theorem pairwise_values_gather (which : Keep) (key : α → Int) (points : List α) :
    (Keyed.values (inOrder (gather which key points))).Pairwise fun p q => key p < key q := by
  have hkey : ∀ entry ∈ inOrder (gather which key points), key entry.2 = entry.1 := by
    intro entry hentry
    rw [inOrder, (List.mergeSort_perm _ _).mem_iff, Keyed.mem_iff_get? (nodup_gather _ _ _),
      get?_gather] at hentry
    simpa using (List.mem_filter.1 (which.mem_of_pick hentry)).2
  rw [Keyed.values, List.pairwise_map]
  refine (inOrder_strict (nodup_gather _ _ _)).imp_of_mem fun {a b} ha hb hlt => ?_
  rw [hkey a ha, hkey b hb]
  exact hlt

/-- Numberings that put the points of a timeline into one order leave the same points. -/
theorem values_gather_congr {key key' : α → Int}
    (h : ∀ p ∈ points, ∀ q ∈ points, key p < key q ↔ key' p < key' q) :
    Keyed.values (inOrder (gather which key points)) = Keyed.values (inOrder (gather which key' points)) := by
  have hmem : ∀ {key : α → Int} {p : α}, p ∈ Keyed.values (inOrder (gather which key points)) → p ∈ points :=
    fun hp => List.mem_of_mem_filter (which.mem_of_pick (mem_values_gather.1 hp))
  have hpick : ∀ p ∈ points, points.filter (key · = key p) = points.filter (key' · = key' p) := by
    intro p hp
    refine List.filter_congr fun q hq => decide_eq_decide.2 ?_
    have := h p hp q hq
    have := h q hq p hp
    omega
  have hleft := pairwise_values_gather which key points
  have hright : (Keyed.values (inOrder (gather which key' points))).Pairwise fun p q => key p < key q :=
    (pairwise_values_gather which key' points).imp_of_mem fun hp hq hlt =>
      (h _ (hmem hp) _ (hmem hq)).2 hlt
  refine eq_of_pairwise_lt hleft hright fun p => ?_
  constructor
  · intro hp
    rw [mem_values_gather, ← hpick p (hmem hp)]
    exact mem_values_gather.1 hp
  · intro hp
    rw [mem_values_gather, hpick p (hmem hp)]
    exact mem_values_gather.1 hp

/-- Whether no point of a timeline is preferred to a point of its bucket. -/
def Survives (g : Granularity) (which : Keep) (time : α → Timestamp) (points : List α) (p : α) : Prop :=
  ∀ q ∈ points, which.Prefers (time q) (time p) → ¬ g.SameBucket (time p) (time q)

instance (g : Granularity) (which : Keep) (time : α → Timestamp) (points : List α) (p : α) :
    Decidable (g.Survives which time points p) :=
  inferInstanceAs (Decidable (∀ q ∈ points, _))

def survivors (g : Granularity) (which : Keep) (time : α → Timestamp) (points : List α) : List α :=
  points.filter fun p => g.Survives which time points p

theorem mem_survivors {p : α} :
    p ∈ g.survivors which time points ↔ p ∈ points ∧ g.Survives which time points p := by
  simp [survivors]

/-- Timelines in which every point is later than the one before. -/
def Ascending (time : α → Timestamp) (points : List α) : Prop :=
  points.Pairwise fun p q => (time p).instant < (time q).instant

theorem pick_eq_some_iff_survivor (hg : g.keepsAll = false) (hascending : Ascending time points)
    (hplaceable : ∀ p ∈ points, Placeable (time p)) {p : α} :
    which.pick (points.filter fun q => g.bucketAt (time q) = g.bucketAt (time p)) = some p ↔
      p ∈ g.survivors which time points := by
  rw [which.pick_eq_some_iff (hascending.filter _), mem_survivors]
  simp only [List.mem_filter, decide_eq_true_eq, and_true]
  refine and_congr_right fun hp => ⟨fun hbest q hq hprefers hsame => ?_, fun hsurvives q hq hprefers => ?_⟩
  · have hbucket := (sameBucket_iff hg (hplaceable p hp) (hplaceable q hq)).1 hsame
    exact hbest q ⟨hq, hbucket.symm⟩ hprefers
  · have hsame := (sameBucket_iff hg (hplaceable p hp) (hplaceable q hq.1)).2 hq.2.symm
    exact hsurvives q hq.1 hprefers hsame

theorem ascending_survivors (h : Ascending time points) : Ascending time (g.survivors which time points) :=
  h.filter _

/-- Thinning an ascending timeline leaves its survivors: later buckets have later points. -/
theorem thin_eq_survivors (hg : g.keepsAll = false) (hascending : Ascending time points)
    (hplaceable : ∀ p ∈ points, Placeable (time p)) :
    g.thin which time points = .ok (g.survivors which time points) := by
  have hmem : ∀ p, p ∈ Keyed.values (inOrder (gather which (fun p => g.bucketAt (time p)) points)) ↔
      p ∈ g.survivors which time points :=
    fun p => mem_values_gather.trans (pick_eq_some_iff_survivor hg hascending hplaceable)
  have hplaced : ∀ {p}, p ∈ g.survivors which time points → Placeable (time p) :=
    fun hp => hplaceable _ (mem_survivors.1 hp).1
  have hvalues : Ascending time
      (Keyed.values (inOrder (gather which (fun p => g.bucketAt (time p)) points))) := by
    refine (pairwise_values_gather _ _ _).imp_of_mem fun {p q} hp hq hlt => ?_
    by_contra hle
    have := bucketAt_mono hg (hplaced ((hmem q).1 hq)) (hplaced ((hmem p).1 hp)) (by omega)
    omega
  rw [thin_eq hg hplaceable, eq_of_pairwise_lt hvalues (ascending_survivors hascending) hmem]

/-- The last point of an ascending timeline is the last to be kept of its bucket. -/
theorem getLast?_survivors (h : Ascending time points) :
    (g.survivors .last time points).getLast? = points.getLast? := by
  rcases List.eq_nil_or_concat' points with rfl | ⟨before, last, rfl⟩
  · rfl
  · have hbefore := (List.pairwise_append.1 h).2.2
    have hlast : g.Survives .last time (before ++ [last]) last := by
      intro q hq hprefers
      have hlater : (time last).instant < (time q).instant := hprefers
      rcases List.mem_append.1 hq with hq | hq
      · have := hbefore q hq last (by simp)
        omega
      · rw [List.mem_singleton.1 hq] at hlater
        omega
    rw [survivors, List.filter_append, List.filter_cons_of_pos (by simpa using hlast), List.filter_nil,
      List.getLast?_concat, List.getLast?_concat]

/-- Survivors survive among themselves. -/
theorem survivors_survivors :
    g.survivors which time (g.survivors which time points) = g.survivors which time points := by
  refine List.filter_eq_self.2 fun p hp => decide_eq_true ?_
  intro q hq
  exact (mem_survivors.1 hp).2 q (mem_survivors.1 hq).1

/-- Where a choice of points takes whole buckets, it may be made before thinning or after it. -/
theorem survivors_filter {chosen : α → Bool}
    (h : ∀ p ∈ points, ∀ q ∈ points, g.SameBucket (time p) (time q) → chosen p = chosen q) :
    g.survivors which time (points.filter chosen) = (g.survivors which time points).filter chosen := by
  rw [survivors, survivors, List.filter_filter, List.filter_filter]
  refine List.filter_congr fun p hp => ?_
  cases hchosen : chosen p with
  | false => simp
  | true =>
    have hsame : g.Survives which time (points.filter chosen) p ↔ g.Survives which time points p := by
      constructor
      · intro hsurvives q hq hprefers hbucket
        have hq' := List.mem_filter.2 ⟨hq, (h p hp q hq hbucket).symm.trans hchosen⟩
        exact hsurvives q hq' hprefers hbucket
      · exact fun hsurvives q hq => hsurvives q (List.mem_filter.1 hq).1
    simp [hsame]

/-- What is left of a timeline: the points to which no other of their bucket is preferred, in their order.
They have no more to lose, and of those kept as the last ones the last is the last of all. -/
structure Thinned (g : Granularity) (which : Keep) (time : α → Timestamp) (points kept : List α) : Prop where
  exactly : kept = points.filter fun p => g.Survives which time points p
  ascending : Ascending time kept
  settled : g.thin which time kept = .ok kept
  last : which = .last → kept.getLast? = points.getLast?

/-- Every ascending timeline is thinned to one point of each bucket. -/
theorem thinned_to_extremes (hg : g.keepsAll = false) (hascending : Ascending time points)
    (hplaceable : ∀ p ∈ points, Placeable (time p)) :
    ∃ kept, g.thin which time points = .ok kept ∧ Thinned g which time points kept := by
  have hkept : Ascending time (g.survivors which time points) := ascending_survivors hascending
  refine ⟨_, thin_eq_survivors hg hascending hplaceable, rfl, hkept, ?_, ?_⟩
  · rw [thin_eq_survivors hg hkept fun p hp => hplaceable p (mem_survivors.1 hp).1, survivors_survivors]
  · rintro rfl
    exact getLast?_survivors hascending

def weekStart : Timestamp := ⟨739249 * 86400000000 + 43200000000, some 0, by decide⟩

/-- Two in the morning of 6 January 2025 on a clock six hours ahead: in universal time it is still Sunday. -/
def weekEnd : Timestamp := ⟨739256 * 86400000000 + 7200000000, some 21600, by decide⟩

def nextWeek : Timestamp := ⟨739256 * 86400000000, none, by decide⟩

theorem new_year_thinned : weekly.keepsAll = false ∧ Ascending id [weekStart, weekEnd, nextWeek] ∧
    (∀ p ∈ [weekStart, weekEnd, nextWeek], Placeable (id p)) ∧
    ∃ kept, weekly.thin .last id [weekStart, weekEnd, nextWeek] = .ok kept ∧
      Thinned weekly .last id [weekStart, weekEnd, nextWeek] kept := by
  have hascending : Ascending id [weekStart, weekEnd, nextWeek] := by
    unfold Ascending
    decide
  have hplaceable : ∀ p ∈ [weekStart, weekEnd, nextWeek], Placeable (id p) := by
    intro p hp
    simp only [List.mem_cons, List.not_mem_nil, or_false] at hp
    rcases hp with rfl | rfl | rfl <;> exact ⟨by decide, by decide⟩
  exact ⟨rfl, hascending, hplaceable, thinned_to_extremes rfl hascending hplaceable⟩

end Granularity

end NetWorth
