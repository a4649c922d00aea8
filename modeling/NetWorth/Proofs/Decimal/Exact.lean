import NetWorth.Proofs.Decimal.RoundedArithmetic

/-! # Arithmetic that loses nothing

On numbers with few places and a bounded size, each operation of the context returns the exact result:
28 digits hold whatever has at most `k` places and lies below `10 ^ (28 - k)`. -/
namespace NetWorth

namespace Decimal

variable {a b : Decimal} {k : Nat}

theorem Rounds.eq_of_places {x : ℚ} {r : Decimal} (h : Rounds x r) (hk : k ≤ precision) (hplaces : HasPlaces k x)
    (hsize : |x| < 10 ^ (precision - k)) : r.toRat = x := by
  refine h.eq_of_hasPlaces hplaces ?_ ?_
  · rw [neg_add_eq_sub, ← Nat.cast_sub hk, zpow_natCast]
    exact hsize
  · simp only [leastQuantum, precision] at *
    omega

theorem lt_greatest {x : ℚ} (hsize : |x| < 10 ^ (precision - k)) : |x| < 10 ^ greatestExponent := by
  refine hsize.trans_le ?_
  rw [← zpow_natCast]
  refine zpow_le_zpow_right₀ (by norm_num) ?_
  simp only [precision, greatestExponent]
  omega

/-- A sum of numbers with few places is exact if it is small enough. -/
theorem add_exact (hk : k ≤ precision) (ha : HasPlaces k a.toRat) (hb : HasPlaces k b.toRat)
    (hsum : |a.toRat + b.toRat| < 10 ^ (precision - k)) :
    ∃ r, a.add b = .ok r ∧ r.InContext ∧ r.toRat = a.toRat + b.toRat := by
  obtain ⟨r, hr, hrounds⟩ := add_rounds (lt_greatest hsum)
  exact ⟨r, hr, finish_inContext hr, hrounds.eq_of_places hk (ha.add hb) hsum⟩

/-- Every partial sum is exact when the sizes of all numbers together stay within the digits. -/
theorem addAll_exact (hk : k ≤ precision) {ds : List Decimal} {start : Decimal}
    (hstart : HasPlaces k start.toRat) (hplaces : ∀ d ∈ ds, HasPlaces k d.toRat)
    (hsize : |start.toRat| + (ds.map fun d => |d.toRat|).sum < 10 ^ (precision - k)) :
    ∃ r, ds.foldlM add start = .ok r ∧ r.toRat = start.toRat + (ds.map toRat).sum := by
  induction ds generalizing start with
  | nil => exact ⟨start, rfl, by simp⟩
  | cons d ds ih =>
    simp only [List.map_cons, List.sum_cons] at hsize
    have hrest : 0 ≤ (ds.map fun d => |d.toRat|).sum := by
      refine List.sum_nonneg fun x hx => ?_
      obtain ⟨e, -, rfl⟩ := List.mem_map.1 hx
      exact abs_nonneg _
    have htriangle := abs_add_le start.toRat d.toRat
    have hstart0 := abs_nonneg start.toRat
    have hd0 := abs_nonneg d.toRat
    have hd := hplaces d (by simp)
    obtain ⟨next, hnext, -, hvalue⟩ := add_exact hk hstart hd (by linarith)
    have hsum : HasPlaces k next.toRat := hvalue ▸ hstart.add hd
    obtain ⟨r, hr, hrr⟩ := ih hsum
      (fun e he => hplaces e (by simp [he])) (by rw [hvalue]; linarith)
    refine ⟨r, ?_, ?_⟩
    · rw [List.foldlM_cons, hnext]
      exact hr
    · rw [hrr, hvalue, List.map_cons, List.sum_cons, add_assoc]

theorem mul_exact (hk : k ≤ precision) (hplaces : HasPlaces k (a.toRat * b.toRat))
    (hsize : |a.toRat * b.toRat| < 10 ^ (precision - k)) :
    ∃ r, a.mul b = .ok r ∧ r.InContext ∧ r.toRat = a.toRat * b.toRat := by
  obtain ⟨r, hr, hrounds⟩ := mul_rounds (lt_greatest hsize)
  exact ⟨r, hr, finish_inContext hr, hrounds.eq_of_places hk hplaces hsize⟩

end Decimal

end NetWorth
