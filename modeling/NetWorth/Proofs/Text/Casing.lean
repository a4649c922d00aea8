import NetWorth.Text.Blank
import NetWorth.Text.CaseMap
import Mathlib.Data.List.Basic

/-! # Casing settles

Case mapping changes a character only where a table says so, and whatever the tables put in its place
is left alone by a second mapping, is no blank, and is no digit. So a text in upper or lower case stays
as it is under the same mapping, and trimming before the mapping is trimming after it. -/
namespace NetWorth.Text

def CaseRun.Covers (r : CaseRun) (n : Nat) : Prop :=
  r.first ≤ n ∧ n ≤ r.last ∧ (n - r.first) % r.step = 0

/-- The points to which a run moves its own. -/
def CaseRun.image (r : CaseRun) : CaseRun :=
  ⟨(r.first + r.shift).toNat, (r.last + r.shift).toNat, r.step, 0⟩

/-- Two runs without a common point, as far as ends and parity tell. -/
def CaseRun.misses (r s : CaseRun) : Bool :=
  Nat.blt r.last s.first || Nat.blt s.last r.first
    || ((r.step == 2 || r.first == r.last) && s.step == 2 && (r.first + s.first) % 2 == 1)

theorem CaseRun.not_covers_of_misses {r s : CaseRun} {n : Nat} (h : r.misses s = true)
    (hr : r.Covers n) : ¬ s.Covers n := by
  rintro ⟨hfirst, hlast, hstep⟩
  obtain ⟨hfirst', hlast', hstep'⟩ := hr
  simp only [misses, Bool.or_eq_true, Bool.and_eq_true, Nat.blt_eq, beq_iff_eq] at h
  rcases h with (h | h) | ⟨⟨htwo | hone, htwo'⟩, hparity⟩
  · omega
  · omega
  · rw [htwo'] at hstep
    rw [htwo] at hstep'
    omega
  · rw [htwo'] at hstep
    omega

theorem CaseRun.image_covers {r : CaseRun} {n : Nat} (h : r.Covers n) (hpos : 0 ≤ r.first + r.shift) :
    r.image.Covers (n + r.shift).toNat := by
  obtain ⟨hfirst, hlast, hstep⟩ := h
  refine ⟨by simp only [image]; omega, by simp only [image]; omega, ?_⟩
  have hsub : (n + r.shift).toNat - (r.first + r.shift).toNat = n - r.first := by omega
  simpa only [image, hsub] using hstep

theorem shifted_eq_or (n : Nat) (runs : List CaseRun) :
    shifted n runs = n ∨ ∃ r ∈ runs, r.Covers n ∧ shifted n runs = (n + r.shift).toNat := by
  induction runs with
  | nil => exact Or.inl rfl
  | cons r rest ih =>
    unfold shifted
    split
    · exact Or.inl rfl
    · rename_i hfirst
      split
      · rename_i hlast
        split
        · rename_i hstep
          exact Or.inr ⟨r, by simp, ⟨by omega, hlast, hstep⟩, rfl⟩
        · exact Or.inl rfl
      · rcases ih with hsame | ⟨s, hs, hcovers, hto⟩
        · exact Or.inl hsame
        · exact Or.inr ⟨s, List.mem_cons_of_mem _ hs, hcovers, hto⟩

theorem shifted_eq_self {n : Nat} {runs : List CaseRun} (h : ∀ r ∈ runs, ¬ r.Covers n) :
    shifted n runs = n := by
  rcases shifted_eq_or n runs with hsame | ⟨r, hr, hcovers, -⟩
  · exact hsame
  · exact absurd hcovers (h r hr)

theorem mem_of_expansionIn {n : Nat} {image : List Nat} {table : List (Nat × List Nat)}
    (h : expansionIn n table = some image) : (n, image) ∈ table := by
  induction table with
  | nil => simp [expansionIn] at h
  | cons e rest ih =>
    obtain ⟨point, target⟩ := e
    unfold expansionIn at h
    split at h
    · simp at h
    · split at h
      · rename_i hpoint
        simp_all
      · exact List.mem_cons_of_mem _ (ih h)

def CaseRun.ofSpan (span : Nat × Nat) : CaseRun := ⟨span.1, span.2, 1, 0⟩

theorem CaseRun.ofSpan_covers {first last n : Nat} (hfirst : first ≤ n) (hlast : n ≤ last) :
    (CaseRun.ofSpan (first, last)).Covers n :=
  ⟨hfirst, hlast, Nat.mod_one _⟩

/-- Where no mapping leads: the blanks, the ASCII digits, and the points that are no characters. -/
def forbidden : Spans := blankSpans ++ [(48, 57), (55296, 57343)]

/-- What the images of runs must miss to be settled under the runs and a table of exceptions. -/
def obstacles (runs : List CaseRun) (table : List (Nat × List Nat)) : List CaseRun :=
  forbidden.map CaseRun.ofSpan ++ table.map (fun e => CaseRun.ofSpan (e.1, e.1)) ++ runs

/-- The images of a run are points of Unicode that miss the obstacles. -/
def CaseRun.leadsClear (obstacles : List CaseRun) (r : CaseRun) : Bool :=
  0 ≤ r.first + r.shift && r.last + r.shift < 1114112 && obstacles.all r.image.misses

theorem upperRuns_clear :
    upperRuns.all (CaseRun.leadsClear (obstacles upperRuns upperExpansions)) = true := by
  decide +kernel

/-- The dotted capital i and the capital sigma, whose lower case has rules of its own. -/
def lowerExceptions : List (Nat × List Nat) := [(304, []), (931, [])]

theorem lowerRuns_clear :
    lowerRuns.all (CaseRun.leadsClear (obstacles lowerRuns lowerExceptions)) = true := by
  decide +kernel

theorem toNat_ofNat_of_valid {n : Nat} (h : n.isValidChar) : (Char.ofNat n).toNat = n := by
  rw [Char.ofNat, dif_pos h]
  rfl

/-- A point that is a character and that neither the runs nor the exceptions move. -/
structure Clear (runs : List CaseRun) (table : List (Nat × List Nat)) (n : Nat) : Prop where
  toNat_ofNat : (Char.ofNat n).toNat = n
  solid : blankSpans.contains n = false
  noDigit : ¬ (48 ≤ n ∧ n ≤ 57)
  unlisted : ∀ image, (n, image) ∉ table
  unmoved : shifted n runs = n

theorem clear_of_covers {runs : List CaseRun} {table : List (Nat × List Nat)} {r : CaseRun} {n : Nat}
    (hr : r.leadsClear (obstacles runs table) = true) (hn : r.Covers n) :
    Clear runs table (n + r.shift).toNat := by
  simp only [CaseRun.leadsClear, Bool.and_eq_true, decide_eq_true_eq, List.all_eq_true] at hr
  obtain ⟨⟨hpos, hbound⟩, hall⟩ := hr
  have hmiss : ∀ s ∈ obstacles runs table, ¬ s.Covers (n + r.shift).toNat :=
    fun s hs => CaseRun.not_covers_of_misses (hall s hs) (CaseRun.image_covers hn hpos)
  have hspan : ∀ span ∈ forbidden, ¬ (span.1 ≤ (n + r.shift).toNat ∧ (n + r.shift).toNat ≤ span.2) := by
    rintro ⟨first, last⟩ hs ⟨h, h'⟩
    refine hmiss (CaseRun.ofSpan (first, last)) ?_ (CaseRun.ofSpan_covers h h')
    simp only [obstacles, List.mem_append, List.mem_map]
    exact Or.inl (Or.inl ⟨_, hs, rfl⟩)
  refine ⟨?_, ?_, ?_, ?_, ?_⟩
  · have hsurrogate := hspan (55296, 57343) (by simp [forbidden])
    have hlast := hn.2.1
    exact toNat_ofNat_of_valid (by omega)
  · rw [Bool.eq_false_iff]
    intro hb
    obtain ⟨span, hs, h, h'⟩ := Spans.exists_of_contains hb
    exact hspan span (List.mem_append_left _ hs) ⟨h, h'⟩
  · exact hspan (48, 57) (by simp [forbidden])
  · intro image hm
    refine hmiss (CaseRun.ofSpan (_, _)) ?_ (CaseRun.ofSpan_covers (Nat.le_refl _) (Nat.le_refl _))
    simp only [obstacles, List.mem_append, List.mem_map]
    exact Or.inl (Or.inr ⟨_, hm, rfl⟩)
  · exact shifted_eq_self fun s hs => hmiss s (by simp [obstacles, hs])

/-- A character that a mapping may produce: the mapping leaves it alone, and it is neither a blank nor
an ASCII digit. -/
structure Settled (map : Char → List Char) (c : Char) : Prop where
  fixed : map c = [c]
  solid : isBlank c = false
  noDigit : ¬ (48 ≤ c.toNat ∧ c.toNat ≤ 57)

theorem Clear.upper {n : Nat} (h : Clear upperRuns upperExpansions n) :
    Settled upperChar (Char.ofNat n) := by
  have hnone : expansionIn n upperExpansions = none := by
    cases he : expansionIn n upperExpansions with
    | none => rfl
    | some image => exact absurd (mem_of_expansionIn he) (h.unlisted image)
  refine ⟨?_, ?_, ?_⟩
  · simp [upperChar, h.toNat_ofNat, hnone, h.unmoved]
  · simpa [isBlank, h.toNat_ofNat] using h.solid
  · simpa only [h.toNat_ofNat] using h.noDigit

theorem Clear.lower {n : Nat} (h : Clear lowerRuns lowerExceptions n) :
    Settled lowerChar (Char.ofNat n) ∧ Char.ofNat n ≠ 'Σ' := by
  have hsigma : Char.ofNat n ≠ 'Σ' := by
    intro he
    have hn : n = 931 := h.toNat_ofNat.symm.trans (congrArg Char.toNat he)
    exact h.unlisted [] (by simp [hn, lowerExceptions])
  have hdot : Char.ofNat n ≠ '\u0130' := by
    intro he
    have hn : n = 304 := h.toNat_ofNat.symm.trans (congrArg Char.toNat he)
    exact h.unlisted [] (by simp [hn, lowerExceptions])
  refine ⟨⟨?_, ?_, ?_⟩, hsigma⟩
  · simp [lowerChar, hdot, h.toNat_ofNat, h.unmoved]
  · simpa [isBlank, h.toNat_ofNat] using h.solid
  · simpa only [h.toNat_ofNat] using h.noDigit

private theorem upperExpansions_settled : ∀ e ∈ upperExpansions,
    e.2 ≠ [] ∧ ∀ n ∈ e.2, upperChar (Char.ofNat n) = [Char.ofNat n]
      ∧ isBlank (Char.ofNat n) = false ∧ ¬ (48 ≤ (Char.ofNat n).toNat ∧ (Char.ofNat n).toNat ≤ 57) := by
  decide +kernel

/-- Upper-casing leaves a character alone or puts settled ones in its place. -/
theorem upperChar_settles (c : Char) :
    upperChar c = [c] ∨ upperChar c ≠ [] ∧ ∀ d ∈ upperChar c, Settled upperChar d := by
  cases he : expansionIn c.toNat upperExpansions with
  | some image =>
    obtain ⟨hne, hall⟩ := upperExpansions_settled _ (mem_of_expansionIn he)
    refine Or.inr ⟨by simpa [upperChar, he] using hne, ?_⟩
    intro d hd
    simp only [upperChar, he, List.mem_map] at hd
    obtain ⟨n, hn, rfl⟩ := hd
    obtain ⟨hfixed, hsolid, hdigit⟩ := hall n hn
    exact ⟨hfixed, hsolid, hdigit⟩
  | none =>
    rcases shifted_eq_or c.toNat upperRuns with hsame | ⟨r, hr, hcovers, hto⟩
    · exact Or.inl (by simp [upperChar, he, hsame])
    · have hclear := clear_of_covers (List.all_eq_true.mp upperRuns_clear r hr) hcovers
      refine Or.inr ⟨by simp [upperChar, he], ?_⟩
      intro d hd
      simp only [upperChar, he, hto, List.mem_singleton] at hd
      exact hd ▸ hclear.upper

/-- Lower-casing does so too, and no lower case is the capital sigma unless the character is. -/
theorem lowerChar_settles (c : Char) :
    lowerChar c = [c] ∨ lowerChar c ≠ [] ∧ ∀ d ∈ lowerChar c, Settled lowerChar d ∧ d ≠ 'Σ' := by
  by_cases hdot : c = '\u0130'
  · subst hdot
    refine Or.inr ⟨by simp [lowerChar], ?_⟩
    intro d hd
    simp only [lowerChar, if_true, List.mem_cons, List.not_mem_nil, or_false] at hd
    rcases hd with rfl | rfl
    · exact ⟨⟨by decide +kernel, by decide, by decide⟩, by decide⟩
    · exact ⟨⟨by decide +kernel, by decide, by decide⟩, by decide⟩
  · rcases shifted_eq_or c.toNat lowerRuns with hsame | ⟨r, hr, hcovers, hto⟩
    · exact Or.inl (by simp [lowerChar, hdot, hsame])
    · have hclear := clear_of_covers (List.all_eq_true.mp lowerRuns_clear r hr) hcovers
      refine Or.inr ⟨by simp [lowerChar, hdot], ?_⟩
      intro d hd
      simp only [lowerChar, hdot, if_false, hto, List.mem_singleton] at hd
      exact hd ▸ hclear.lower

theorem upperChar_ne_nil (c : Char) : upperChar c ≠ [] := by
  rcases upperChar_settles c with h | h
  · simp [h]
  · exact h.1

theorem upperChar_solid {c d : Char} (hc : isBlank c = false) (hd : d ∈ upperChar c) :
    isBlank d = false := by
  rcases upperChar_settles c with h | h
  · rw [h, List.mem_singleton] at hd
    exact hd ▸ hc
  · exact (h.2 d hd).solid

theorem upperChar_upperChar {c d : Char} (hd : d ∈ upperChar c) : upperChar d = [d] := by
  rcases upperChar_settles c with h | h
  · rw [h, List.mem_singleton] at hd
    exact hd ▸ h
  · exact (h.2 d hd).fixed

@[simp] theorem upperChars_cons (c : Char) (cs : List Char) :
    upperChars (c :: cs) = upperChar c ++ upperChars cs := rfl

theorem upperChars_eq_self {cs : List Char} (h : ∀ c ∈ cs, upperChar c = [c]) : upperChars cs = cs := by
  induction cs with
  | nil => rfl
  | cons c cs ih =>
    rw [upperChars_cons, h c (by simp), ih fun d hd => h d (List.mem_cons_of_mem _ hd)]
    rfl

theorem upperChars_upperChars (cs : List Char) : upperChars (upperChars cs) = upperChars cs := by
  apply upperChars_eq_self
  intro d hd
  obtain ⟨c, -, hc⟩ := List.mem_flatMap.mp hd
  exact upperChar_upperChar hc

/-- A lower-cased piece: what stands in place of one character of a text. -/
def lowerPiece (before : List Char) (c : Char) (rest : List Char) : List Char :=
  if c = 'Σ' then [lowerSigma before rest] else lowerChar c

theorem lowerAfter_cons (before : List Char) (c : Char) (rest : List Char) :
    lowerAfter before (c :: rest) = lowerPiece before c rest ++ lowerAfter (c :: before) rest := rfl

theorem lowerSigma_eq_or (before rest : List Char) :
    lowerSigma before rest = 'ς' ∨ lowerSigma before rest = 'σ' := by
  unfold lowerSigma
  split
  · exact Or.inl rfl
  · exact Or.inr rfl

theorem lowerPiece_settled {before : List Char} {c d : Char} {rest : List Char}
    (hd : d ∈ lowerPiece before c rest) :
    lowerChar d = [d] ∧ d ≠ 'Σ' ∧ (isBlank c = false → isBlank d = false) := by
  unfold lowerPiece at hd
  split at hd
  · rcases lowerSigma_eq_or before rest with h | h <;> rw [h, List.mem_singleton] at hd <;> subst hd
    · exact ⟨by decide +kernel, by decide, fun _ => by decide⟩
    · exact ⟨by decide +kernel, by decide, fun _ => by decide⟩
  · rename_i hsigma
    rcases lowerChar_settles c with h | h
    · rw [h, List.mem_singleton] at hd
      subst hd
      exact ⟨h, hsigma, id⟩
    · exact ⟨(h.2 d hd).1.fixed, (h.2 d hd).2, fun _ => (h.2 d hd).1.solid⟩

theorem lowerPiece_ne_nil (before : List Char) (c : Char) (rest : List Char) :
    lowerPiece before c rest ≠ [] := by
  unfold lowerPiece
  split
  · simp
  · rcases lowerChar_settles c with h | h
    · simp [h]
    · exact h.1

theorem lowerAfter_settled {before cs : List Char} {d : Char} (hd : d ∈ lowerAfter before cs) :
    lowerChar d = [d] ∧ d ≠ 'Σ' := by
  induction cs generalizing before with
  | nil => simp [lowerAfter] at hd
  | cons c rest ih =>
    rw [lowerAfter_cons, List.mem_append] at hd
    rcases hd with hd | hd
    · obtain ⟨hfixed, hsigma, -⟩ := lowerPiece_settled hd
      exact ⟨hfixed, hsigma⟩
    · exact ih hd

theorem lowerAfter_eq_self {before cs : List Char} (h : ∀ c ∈ cs, lowerChar c = [c] ∧ c ≠ 'Σ') :
    lowerAfter before cs = cs := by
  induction cs generalizing before with
  | nil => rfl
  | cons c rest ih =>
    obtain ⟨hfixed, hsigma⟩ := h c (by simp)
    rw [lowerAfter_cons, ih fun d hd => h d (List.mem_cons_of_mem _ hd)]
    simp [lowerPiece, hsigma, hfixed]

theorem lowerChars_lowerChars (cs : List Char) : lowerChars (lowerChars cs) = lowerChars cs :=
  lowerAfter_eq_self fun _ hd => lowerAfter_settled hd

/-- A text without blanks at its ends. -/
structure Trimmed (cs : List Char) : Prop where
  head : ∀ c ∈ cs.head?, isBlank c = false
  last : ∀ c ∈ cs.getLast?, isBlank c = false

theorem dropWhile_isBlank_eq_self {cs : List Char} (h : ∀ c ∈ cs.head?, isBlank c = false) :
    cs.dropWhile isBlank = cs := by
  cases cs with
  | nil => rfl
  | cons c cs => simp [h c (by simp)]

theorem Trimmed.trimChars_eq {cs : List Char} (h : Trimmed cs) : trimChars cs = cs := by
  have hlast : cs.reverse.dropWhile isBlank = cs.reverse :=
    dropWhile_isBlank_eq_self (by simpa using h.last)
  rw [trimChars, dropWhile_isBlank_eq_self h.head, hlast, List.reverse_reverse]

theorem trimmed_trimChars (cs : List Char) : Trimmed (trimChars cs) := by
  have hhead (ds : List Char) : ∀ c ∈ (ds.dropWhile isBlank).head?, isBlank c = false := by
    intro c hc
    have h := List.head?_dropWhile_not isBlank ds
    rw [Option.mem_def.mp hc] at h
    simpa using h
  refine ⟨?_, ?_⟩
  · intro c hc
    -- what trimming the end keeps is a front part of what trimming the front leaves
    have hpre : trimChars cs <+: cs.dropWhile isBlank :=
      List.reverse_suffix.mp (by simpa [trimChars] using List.dropWhile_suffix isBlank)
    obtain ⟨rest, hrest⟩ := hpre
    apply hhead cs
    rw [← hrest, List.head?_append, Option.mem_def.mp hc]
    rfl
  · intro c hc
    rw [trimChars, List.getLast?_reverse] at hc
    exact hhead _ c hc

theorem Trimmed.upperChars {cs : List Char} (h : Trimmed cs) : Trimmed (upperChars cs) := by
  refine ⟨?_, ?_⟩
  · intro d hd
    cases cs with
    | nil => simp at hd
    | cons c cs =>
      rw [upperChars_cons, List.head?_append_of_ne_nil _ (upperChar_ne_nil c)] at hd
      exact upperChar_solid (h.head c (by simp)) (List.mem_of_mem_head? hd)
  · have hlast := h.last
    clear h
    induction cs with
    | nil => simp
    | cons c cs ih =>
      intro d hd
      rw [upperChars_cons] at hd
      cases cs with
      | nil =>
        rw [upperChars_nil, List.append_nil] at hd
        exact upperChar_solid (hlast c (by simp)) (List.mem_of_getLast? hd)
      | cons c' cs =>
        have hne : Text.upperChars (c' :: cs) ≠ [] := by simp [upperChar_ne_nil]
        rw [List.getLast?_append_of_ne_nil _ hne] at hd
        exact ih (by simpa using hlast) d hd

theorem lowerAfter_ne_nil {before cs : List Char} (h : cs ≠ []) : lowerAfter before cs ≠ [] := by
  cases cs with
  | nil => exact absurd rfl h
  | cons c rest => simp [lowerAfter_cons, lowerPiece_ne_nil]

theorem Trimmed.lowerChars {cs : List Char} (h : Trimmed cs) : Trimmed (lowerChars cs) := by
  refine ⟨?_, ?_⟩
  · intro d hd
    cases cs with
    | nil => simp [Text.lowerChars, lowerAfter] at hd
    | cons c rest =>
      rw [Text.lowerChars, lowerAfter_cons,
        List.head?_append_of_ne_nil _ (lowerPiece_ne_nil [] c rest)] at hd
      exact (lowerPiece_settled (List.mem_of_mem_head? hd)).2.2 (h.head c (by simp))
  · have hlast := h.last
    clear h
    unfold Text.lowerChars
    generalize [] = before
    induction cs generalizing before with
    | nil => simp [lowerAfter]
    | cons c rest ih =>
      intro d hd
      rw [lowerAfter_cons] at hd
      cases rest with
      | nil =>
        rw [lowerAfter, List.append_nil] at hd
        exact (lowerPiece_settled (List.mem_of_getLast? hd)).2.2 (hlast c (by simp))
      | cons c' rest =>
        rw [List.getLast?_append_of_ne_nil _ (lowerAfter_ne_nil (by simp))] at hd
        exact ih (by simpa using hlast) _ d hd

/-- A digit in upper case was that digit. -/
theorem eq_of_mem_upperChar {c d : Char} (hd : d ∈ upperChar c) (hdigit : 48 ≤ d.toNat ∧ d.toNat ≤ 57) :
    upperChar c = [c] ∧ d = c := by
  rcases upperChar_settles c with h | h
  · rw [h, List.mem_singleton] at hd
    exact ⟨h, hd⟩
  · exact absurd hdigit (h.2 d hd).noDigit

/-- A text of digits is the upper case of itself only. -/
theorem eq_of_upperChars_digits {cs ds : List Char} (h : upperChars cs = ds)
    (hdigits : ∀ d ∈ ds, 48 ≤ d.toNat ∧ d.toNat ≤ 57) : cs = ds := by
  rw [← h]
  refine (upperChars_eq_self ?_).symm
  intro c hc
  obtain ⟨d, hd⟩ := List.exists_mem_of_ne_nil _ (upperChar_ne_nil c)
  exact (eq_of_mem_upperChar hd (hdigits d (h ▸ List.mem_flatMap.mpr ⟨c, hc, hd⟩))).1

theorem trim_upper_trim (s : String) : trim (upper (trim s)) = upper (trim s) := by
  simp [trim, upper, (trimmed_trimChars s.toList).upperChars.trimChars_eq]

theorem trim_lower_trim (s : String) : trim (lower (trim s)) = lower (trim s) := by
  simp [trim, lower, (trimmed_trimChars s.toList).lowerChars.trimChars_eq]

theorem upper_upper (s : String) : upper (upper s) = upper s := by
  simp [upper, upperChars_upperChars]

theorem lower_lower (s : String) : lower (lower s) = lower s := by
  simp [lower, lowerChars_lowerChars]

theorem upper_ne_empty {s : String} (h : s ≠ "") : upper s ≠ "" := by
  intro he
  have hchars : upperChars s.toList = [] := by simpa using congrArg String.toList he
  cases hs : s.toList with
  | nil => exact h (by simpa using hs)
  | cons c cs => simp [hs, upperChar_ne_nil] at hchars

theorem lower_ne_empty {s : String} (h : s ≠ "") : lower s ≠ "" := by
  intro he
  have hchars : lowerChars s.toList = [] := by simpa using congrArg String.toList he
  exact lowerAfter_ne_nil (by simpa using h) hchars

end NetWorth.Text
