import NetWorth.Calendar.Date

/-! # Timestamps

A timestamp is a reading of a clock in the years 1 to 9999, to the microsecond, with the clock's offset
from universal time if it is known. Two timestamps denote one instant when their readings, less their
offsets, agree; a clock without an offset is taken to show universal time. -/
namespace NetWorth

structure Timestamp where
  /-- Microseconds since 0001-01-01T00:00:00 on the clock. -/
  wall : Nat
  /-- Seconds by which the clock is ahead of universal time. Clocks are taken to be ahead by whole seconds;
  offsets that have microseconds are left out. -/
  offset : Option Int
  inRange : wall < 3652059 * 86400000000
deriving DecidableEq, Repr

namespace Timestamp

def microsPerSecond : Nat := 1000000
def microsPerHour : Nat := 3600000000
def microsPerDay : Nat := 86400000000

/-- Microseconds from 0001-01-01T00:00:00 to 1970-01-01T00:00:00. -/
def epoch : Int := 719162 * 86400000000

/-- Microseconds of universal time since 0001-01-01T00:00:00. -/
def instant (t : Timestamp) : Int := t.wall - t.offset.getD 0 * microsPerSecond

def isAware (t : Timestamp) : Bool := t.offset.isSome

def assumeUtc (t : Timestamp) : Timestamp := { t with offset := some (t.offset.getD 0) }

def date (t : Timestamp) : Date :=
  ⟨t.wall / 86400000000, by have := t.inRange; omega⟩

/-- The same instant on a clock that shows universal time, if the calendar reaches that far. -/
def toUtc? (t : Timestamp) : Option Timestamp :=
  if h : 0 ≤ t.instant ∧ t.instant < 3652059 * 86400000000 then
    some ⟨t.instant.toNat, some 0, by omega⟩
  else none

def utcDate? (t : Timestamp) : Option Date := t.toUtc?.map date

/-- The last whole second of a date in universal time. -/
def endOfDay (d : Date) : Timestamp :=
  ⟨d.day * 86400000000 + 86399000000, some 0, by have := d.inRange; omega⟩

def hour (t : Timestamp) : Nat := t.wall % microsPerDay / microsPerHour
def minute (t : Timestamp) : Nat := t.wall / 60000000 % 60
def second (t : Timestamp) : Nat := t.wall / microsPerSecond % 60
def microsecond (t : Timestamp) : Nat := t.wall % microsPerSecond

@[simp] theorem instant_assumeUtc (t : Timestamp) : t.assumeUtc.instant = t.instant := rfl

@[simp] theorem instant_endOfDay (d : Date) :
    (endOfDay d).instant = d.day * 86400000000 + 86399000000 := by
  simp [endOfDay, instant]

@[simp] theorem date_endOfDay (d : Date) : (endOfDay d).date = d := by
  apply Date.ext_day; simp only [date, endOfDay]; omega

theorem instant_of_toUtc? {t u : Timestamp} (h : t.toUtc? = some u) : u.instant = t.instant := by
  unfold toUtc? at h
  split at h
  · rename_i hr
    obtain ⟨rfl⟩ := h
    have := Int.toNat_of_nonneg hr.1
    simp only [instant, Option.getD_some] at this ⊢
    omega
  · simp at h

theorem toUtc?_eq_some {t u : Timestamp} (h : t.toUtc? = some u) :
    u.offset = some 0 ∧ (u.wall : Int) = t.instant := by
  have hinstant := instant_of_toUtc? h
  unfold toUtc? at h
  split at h
  · obtain rfl := Option.some.inj h
    exact ⟨rfl, by simpa [instant] using hinstant⟩
  · contradiction

theorem toUtc?_congr {t u : Timestamp} (h : t.instant = u.instant) : t.toUtc? = u.toUtc? := by
  simp only [toUtc?, h]

/-- A date lasts from its first microsecond in universal time to that of the next one. -/
theorem utcDate?_eq_some_iff {t : Timestamp} {d : Date} :
    t.utcDate? = some d ↔ t.instant / 86400000000 = d.day := by
  have hday := d.inRange
  unfold utcDate? toUtc?
  split
  · rename_i hrange
    rw [Option.map_some, Option.some_inj]
    refine ⟨fun h => ?_, fun h => Date.ext_day ?_⟩
    · subst h
      simp only [date]
      omega
    · simp only [date]
      omega
  · simp only [Option.map_none, reduceCtorEq, false_iff]
    omega

theorem utcDate?_congr {t u : Timestamp} (h : t.instant = u.instant) : t.utcDate? = u.utcDate? := by
  refine Option.ext fun d => ?_
  rw [utcDate?_eq_some_iff, utcDate?_eq_some_iff, h]

@[simp] theorem utcDate?_endOfDay (d : Date) : (endOfDay d).utcDate? = some d := by
  rw [utcDate?_eq_some_iff, instant_endOfDay]
  omega

end Timestamp

end NetWorth
