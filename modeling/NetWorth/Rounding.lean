/-! # Rounding a quotient to a whole number

One rule for every rounding of the library: take the nearer neighbour, and let a stated preference
settle the middle. -/
namespace NetWorth

inductive Tie where
  | toEven
  | away
deriving DecidableEq, Repr

def Tie.goesUp (tie : Tie) (below : Nat) : Bool :=
  match tie with
  | .toEven => below % 2 = 1
  | .away => true

/-- The whole number nearest to a quotient. -/
def roundQuotient (tie : Tie) (numerator denominator : Nat) : Nat :=
  let below := numerator / denominator
  let twice := 2 * (numerator % denominator)
  if denominator < twice || (twice = denominator && tie.goesUp below) then below + 1 else below

/-- Rounding is off by half a unit at most. -/
theorem roundQuotient_near (tie : Tie) (n : Nat) {d : Nat} (hd : 0 < d) :
    2 * n ≤ 2 * (roundQuotient tie n d * d) + d ∧ 2 * (roundQuotient tie n d * d) ≤ 2 * n + d := by
  have hmod := Nat.div_add_mod n d
  have hlt := Nat.mod_lt n hd
  rw [Nat.mul_comm] at hmod
  unfold roundQuotient
  simp only
  split
  · rename_i h
    simp only [Bool.or_eq_true, decide_eq_true_eq, Bool.and_eq_true] at h
    rw [Nat.add_mul]
    omega
  · rename_i h
    simp only [Bool.or_eq_true, decide_eq_true_eq, Bool.and_eq_true, not_or] at h
    omega

@[simp] theorem roundQuotient_mul (tie : Tie) (n : Nat) {d : Nat} (hd : 0 < d) :
    roundQuotient tie (n * d) d = n := by
  simp [roundQuotient, Nat.mul_div_cancel n hd]; omega

theorem roundQuotient_of_lt (tie : Tie) {n d : Nat} (h : 2 * n < d) : roundQuotient tie n d = 0 := by
  have hlt : n < d := by omega
  rw [roundQuotient, Nat.div_eq_of_lt hlt, Nat.mod_eq_of_lt hlt, if_neg]
  simp only [Bool.or_eq_true, decide_eq_true_eq, Bool.and_eq_true, not_or, not_and]
  omega

/-- With ties away from zero, rounding adds a half and takes the whole part. -/
theorem roundQuotient_away (n : Nat) {d : Nat} (hd : 0 < d) :
    roundQuotient .away n d = (2 * n + d) / (2 * d) := by
  symm
  have hmod := Nat.div_add_mod n d
  have hlt := Nat.mod_lt n hd
  rw [Nat.mul_comm] at hmod
  unfold roundQuotient
  simp only [Tie.goesUp, Bool.and_true]
  rw [Nat.div_eq_iff (by omega)]
  have h1 : n / d * (2 * d) = 2 * (n / d * d) := by rw [Nat.mul_left_comm]
  have h2 : (n / d + 1) * (2 * d) = 2 * (n / d * d) + 2 * d := by rw [Nat.add_mul, h1]; omega
  split
  · rename_i h
    simp only [Bool.or_eq_true, decide_eq_true_eq] at h
    rw [h2]; omega
  · rename_i h
    simp only [Bool.or_eq_true, decide_eq_true_eq, not_or] at h
    rw [h1]; omega

end NetWorth
