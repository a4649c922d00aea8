/-! # Numerals in ASCII

How counts, offsets and code points are written: decimal without leading zeros, decimal filled to a
width, and lower-case hexadecimal filled to a width. -/
namespace NetWorth.Text

def numeral (n : Nat) : List Char := Nat.toDigits 10 n

def digitCount (n : Nat) : Nat := (numeral n).length

/-- A numeral filled with zeros on the left up to a width. -/
def filled (width : Nat) (digits : List Char) : List Char :=
  List.replicate (width - digits.length) '0' ++ digits

/-- Drops the zeros at the end of a run of digits. -/
def dropTrailingZeros (digits : List Char) : List Char :=
  (digits.reverse.dropWhile (· = '0')).reverse

def hexField (width n : Nat) : List Char := filled width (Nat.toDigits 16 n)

theorem numeral_of_lt {n : Nat} (h : n < 10) : numeral n = [n.digitChar] := by
  rw [numeral, Nat.toDigits_eq_if (by omega), if_pos h]

theorem numeral_of_le {n : Nat} (h : 10 ≤ n) : numeral n = numeral (n / 10) ++ [(n % 10).digitChar] := by
  rw [numeral, Nat.toDigits_eq_if (by omega), if_neg (by omega)]; rfl

theorem length_filled (width : Nat) (digits : List Char) :
    (filled width digits).length = max width digits.length := by
  simp [filled]; omega

end NetWorth.Text
