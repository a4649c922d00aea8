import Mathlib.Data.List.Basic
import Mathlib.Data.List.Induction
import Mathlib.Tactic.IntervalCases
import NetWorth.Text.Quoted

/-! # Quoted literals tell texts apart

A quoted character can be read back whatever follows it, so a text is known from its quoted literal. -/
namespace NetWorth.Text

/-- The number that lower-case hexadecimal digits write. -/
def hexValue (cs : List Char) : Nat :=
  cs.foldl (fun n c => 16 * n + if c.isDigit then c.toNat - '0'.toNat else c.toNat - 'a'.toNat + 10) 0

theorem hexValue_concat_digitChar (cs : List Char) {v : Nat} (h : v < 16) :
    hexValue (cs ++ [v.digitChar]) = 16 * hexValue cs + v := by
  have hdigit : (if v.digitChar.isDigit then v.digitChar.toNat - '0'.toNat
      else v.digitChar.toNat - 'a'.toNat + 10) = v := by
    interval_cases v <;> rfl
  rw [hexValue, List.foldl_append, List.foldl_cons, List.foldl_nil, hdigit]
  rfl

theorem hexValue_toDigits (n : Nat) : hexValue (Nat.toDigits 16 n) = n := by
  induction n using Nat.strong_induction_on with
  | _ n ih =>
    rw [Nat.toDigits_eq_if (by decide)]
    split
    · rename_i hn
      exact (hexValue_concat_digitChar [] hn).trans (Nat.zero_add n)
    · rw [hexValue_concat_digitChar _ (Nat.mod_lt n (by decide)), ih (n / 16) (by omega)]
      omega

theorem hexValue_hexField (width n : Nat) : hexValue (hexField width n) = n := by
  have hzeros : ∀ count cs, hexValue (List.replicate count '0' ++ cs) = hexValue cs := by
    intro count cs
    induction count with
    | zero => rfl
    | succ count ih => exact ih
  rw [hexField, filled, hzeros, hexValue_toDigits]

theorem length_hexField {width n : Nat} (hwidth : 0 < width) (h : n < 16 ^ width) :
    (hexField width n).length = width := by
  rw [hexField, length_filled]
  exact Nat.max_eq_left ((Nat.length_toDigits_le_iff (by decide) hwidth).2 h)

/-- The character that stands first in a quoted literal behind its mark, and what follows it. -/
def unquoteChar? : List Char → Option (Char × List Char)
  | '\\' :: 'n' :: rest => some ('\n', rest)
  | '\\' :: 'r' :: rest => some ('\r', rest)
  | '\\' :: 't' :: rest => some ('\t', rest)
  | '\\' :: 'x' :: rest => some (Char.ofNat (hexValue (rest.take 2)), rest.drop 2)
  | '\\' :: 'u' :: rest => some (Char.ofNat (hexValue (rest.take 4)), rest.drop 4)
  | '\\' :: 'U' :: rest => some (Char.ofNat (hexValue (rest.take 8)), rest.drop 8)
  | '\\' :: c :: rest => some (c, rest)
  | c :: rest => some (c, rest)
  | [] => none

theorem unquoteChar?_of_ne {c : Char} (h : c ≠ '\\') (rest : List Char) :
    unquoteChar? (c :: rest) = some (c, rest) := by
  unfold unquoteChar?
  split <;> simp_all

/-- A code point in a field of its width is read back. -/
theorem ofNat_hexField {width : Nat} {c : Char} (hwidth : 0 < width) (h : c.toNat < 16 ^ width) (rest : List Char) :
    (Char.ofNat (hexValue ((hexField width c.toNat ++ rest).take width)),
      (hexField width c.toNat ++ rest).drop width) = (c, rest) := by
  rw [List.take_left' (length_hexField hwidth h), List.drop_left' (length_hexField hwidth h), hexValue_hexField,
    Char.ofNat_toNat]

variable {mark : Char}

theorem unquoteChar?_quotedChar (hmark : mark = '\'' ∨ mark = '"') (c : Char) (rest : List Char) :
    unquoteChar? (quotedChar mark c ++ rest) = some (c, rest) := by
  have hpoint : c.toNat < 16 ^ 8 := by
    have : c.toNat < 2 ^ 32 := c.val.toNat_lt
    omega
  unfold quotedChar
  split_ifs with hself hnewline hreturn htab hprintable hshort hlong
  · simp only [Bool.or_eq_true, decide_eq_true_eq] at hself
    rcases hself with rfl | rfl
    · rcases hmark with rfl | rfl <;> rfl
    · rfl
  · rw [hnewline]
    rfl
  · rw [hreturn]
    rfl
  · rw [htab]
    rfl
  · refine unquoteChar?_of_ne ?_ rest
    rintro rfl
    simp at hself
  · exact congrArg some (ofNat_hexField (by decide) hshort rest)
  · exact congrArg some (ofNat_hexField (by decide) hlong rest)
  · exact congrArg some (ofNat_hexField (by decide) hpoint rest)

theorem flatMap_quotedChar_inj (hmark : mark = '\'' ∨ mark = '"') {cs ds : List Char}
    (h : cs.flatMap (quotedChar mark) = ds.flatMap (quotedChar mark)) : cs = ds := by
  -- no character is quoted as nothing, so two texts end together
  have hne : ∀ c ds, quotedChar mark c ++ ds ≠ [] := by
    intro c ds hnil
    have hread := unquoteChar?_quotedChar hmark c ds
    rw [hnil] at hread
    contradiction
  induction cs generalizing ds with
  | nil =>
    cases ds with
    | nil => rfl
    | cons d ds => exact absurd h.symm (hne d _)
  | cons c cs ih =>
    cases ds with
    | nil => exact absurd h (hne c _)
    | cons d ds =>
      have hread := congrArg unquoteChar? h
      rw [List.flatMap_cons, List.flatMap_cons, unquoteChar?_quotedChar hmark, unquoteChar?_quotedChar hmark] at hread
      obtain ⟨rfl, hrest⟩ := Prod.mk.inj (Option.some.inj hread)
      rw [ih hrest]

theorem quoteMark_eq_or (cs : List Char) : quoteMark cs = '\'' ∨ quoteMark cs = '"' := by
  unfold quoteMark
  split
  · exact .inr rfl
  · exact .inl rfl

theorem quoted_inj {s t : String} (h : quoted s = quoted t) : s = t := by
  have hchars := String.ofList_injective h
  obtain ⟨hmark, hbody⟩ := List.cons.inj hchars
  rw [hmark] at hbody
  exact String.toList_injective
    (flatMap_quotedChar_inj (quoteMark_eq_or t.toList) (List.append_cancel_right hbody))

end NetWorth.Text
