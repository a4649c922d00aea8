/-! # Sets of code points as ascending spans

A property of characters is given as a list of disjoint spans in ascending order, each with its first
and its last code point, so a search ends at the first span that starts beyond the point. -/
namespace NetWorth.Text

abbrev Spans := List (Nat × Nat)

/-- A point is in the set when it lies in one of the spans, ends included. -/
def Spans.contains : Spans → Nat → Bool
  | [], _ => false
  | (first, last) :: rest, n =>
    if n < first then false else n ≤ last || Spans.contains rest n

@[simp] theorem Spans.contains_nil (n : Nat) : Spans.contains [] n = false := rfl

theorem Spans.contains_cons (first last : Nat) (rest : Spans) (n : Nat) :
    Spans.contains ((first, last) :: rest) n =
      if n < first then false else n ≤ last || Spans.contains rest n := rfl

/-- Membership is never claimed for a point outside every span. -/
theorem Spans.exists_of_contains {spans : Spans} {n : Nat} (h : spans.contains n = true) :
    ∃ s ∈ spans, s.1 ≤ n ∧ n ≤ s.2 := by
  induction spans with
  | nil => simp at h
  | cons s rest ih =>
    obtain ⟨first, last⟩ := s
    rw [Spans.contains_cons] at h
    split at h
    · simp at h
    · rename_i hfirst
      simp only [Bool.or_eq_true, decide_eq_true_eq] at h
      rcases h with hlast | hrest
      · exact ⟨(first, last), by simp, by simpa using hfirst, hlast⟩
      · obtain ⟨t, ht, hb⟩ := ih hrest
        exact ⟨t, List.mem_cons_of_mem _ ht, hb⟩

end NetWorth.Text
