import NetWorth.Proofs.Text.Casing
import NetWorth.Text.Printable

/-! # Casing and file names

No case mapping brings in a character that cannot be printed, a separator of paths or a full stop: where a
mapping changes a character, it puts presentable ones in its place. So a text in upper or lower case holds
nothing worse than the text did, and one that consists of full stops is the text itself. -/
namespace NetWorth.Text

/-- The full stop and both separators of paths. -/
def pathMarks : Spans := [(46, 47), (92, 92)]

/-- A character that is printable, no separator of paths and no full stop. -/
def isPresentable (c : Char) : Bool := isPrintable c && !pathMarks.contains c.toNat

/-- A run without a point in the spans, as far as ends and parity tell. -/
def CaseRun.avoids (r : CaseRun) : Spans → Bool
  | [] => true
  | span :: rest => Nat.blt r.last span.1 || (CaseRun.ofSpan span).misses r && r.avoids rest

theorem CaseRun.not_contains_of_avoids {r : CaseRun} {spans : Spans} {n : Nat} (h : r.avoids spans = true)
    (hn : r.Covers n) : spans.contains n = false := by
  induction spans with
  | nil => rfl
  | cons span rest ih =>
    obtain ⟨first, last⟩ := span
    simp only [avoids, Bool.or_eq_true, Nat.blt_eq, Bool.and_eq_true] at h
    rw [Spans.contains_cons]
    rcases h with hbefore | ⟨hmisses, hrest⟩
    · rw [if_pos (Nat.lt_of_le_of_lt hn.2.1 hbefore)]
    · have hoff : ¬ (first ≤ n ∧ n ≤ last) := fun hbounds =>
        CaseRun.not_covers_of_misses hmisses (CaseRun.ofSpan_covers hbounds.1 hbounds.2) hn
      split
      · rfl
      · simp only [ih hrest, Bool.or_false, decide_eq_false_iff_not]
        omega

/-- A run that leads to presentable characters only. -/
def CaseRun.presents (r : CaseRun) : Bool := r.image.avoids pathMarks && r.image.avoids unprintableSpans

private theorem upperRuns_present : upperRuns.all CaseRun.presents = true := by
  decide +kernel

private theorem lowerRuns_present : lowerRuns.all CaseRun.presents = true := by
  decide +kernel

private theorem upperExpansions_present : ∀ e ∈ upperExpansions, ∀ n ∈ e.2,
    isPresentable (Char.ofNat n) = true := by
  decide +kernel

theorem isPresentable_of_covers {runs : List CaseRun} {table : List (Nat × List Nat)} {r : CaseRun} {n : Nat}
    (hclear : r.leadsClear (obstacles runs table) = true) (hpresents : r.presents = true)
    (hn : r.Covers n) : isPresentable (Char.ofNat (n + r.shift).toNat) = true := by
  have hpos : 0 ≤ r.first + r.shift := by
    simp only [CaseRun.leadsClear, Bool.and_eq_true, decide_eq_true_eq] at hclear
    exact hclear.1.1
  have himage := CaseRun.image_covers hn hpos
  have hchar := (clear_of_covers hclear hn).toNat_ofNat
  simp only [CaseRun.presents, Bool.and_eq_true] at hpresents
  simp only [isPresentable, isPrintable, hchar, Bool.and_eq_true, Bool.not_eq_true']
  constructor
  · exact CaseRun.not_contains_of_avoids hpresents.2 himage
  · exact CaseRun.not_contains_of_avoids hpresents.1 himage

theorem upperChar_presents (c : Char) :
    upperChar c = [c] ∨ ∀ d ∈ upperChar c, isPresentable d = true := by
  cases he : expansionIn c.toNat upperExpansions with
  | some image =>
    apply Or.inr
    intro d hd
    simp only [upperChar, he, List.mem_map] at hd
    rcases hd with ⟨n, hn, rfl⟩
    exact upperExpansions_present _ (mem_of_expansionIn he) n hn
  | none =>
    rcases shifted_eq_or c.toNat upperRuns with hsame | ⟨r, hr, hcovers, hto⟩
    · exact Or.inl (by simp [upperChar, he, hsame])
    · apply Or.inr
      intro d hd
      simp only [upperChar, he, hto, List.mem_singleton] at hd
      rw [hd]
      exact isPresentable_of_covers (List.all_eq_true.mp upperRuns_clear r hr)
        (List.all_eq_true.mp upperRuns_present r hr) hcovers

theorem lowerPiece_presents (before : List Char) (c : Char) (rest : List Char) :
    lowerPiece before c rest = [c] ∨ ∀ d ∈ lowerPiece before c rest, isPresentable d = true := by
  unfold lowerPiece
  split
  · apply Or.inr
    intro d hd
    rw [List.mem_singleton] at hd
    rcases lowerSigma_eq_or before rest with h | h
    · rw [hd, h]
      decide +kernel
    · rw [hd, h]
      decide +kernel
  · by_cases hdot : c = '\u0130'
    · apply Or.inr
      rw [hdot]
      exact List.all_eq_true.mp (by decide +kernel)
    · rcases shifted_eq_or c.toNat lowerRuns with hsame | ⟨r, hr, hcovers, hto⟩
      · exact Or.inl (by simp [lowerChar, hdot, hsame])
      · apply Or.inr
        intro d hd
        simp only [lowerChar, hdot, if_false, hto, List.mem_singleton] at hd
        rw [hd]
        exact isPresentable_of_covers (List.all_eq_true.mp lowerRuns_clear r hr)
          (List.all_eq_true.mp lowerRuns_present r hr) hcovers

/-- A mapping of texts that changes them by bringing in presentable characters only. -/
structure Presents (map : List Char → List Char) : Prop where
  mem : ∀ cs, ∀ d ∈ map cs, d ∈ cs ∨ isPresentable d = true
  self : ∀ cs, (∀ d ∈ map cs, isPresentable d = false) → map cs = cs

theorem upperChars_presents : Presents upperChars := by
  constructor
  · intro cs d hd
    rcases List.mem_flatMap.mp hd with ⟨c, hc, hdc⟩
    rcases upperChar_presents c with h | h
    · rw [h, List.mem_singleton] at hdc
      exact Or.inl (hdc ▸ hc)
    · exact Or.inr (h d hdc)
  · intro cs h
    apply upperChars_eq_self
    intro c hc
    rcases upperChar_presents c with hsame | hpresents
    · exact hsame
    · obtain ⟨d, hd⟩ := List.exists_mem_of_ne_nil _ (upperChar_ne_nil c)
      have hnot := h d (List.mem_flatMap.mpr ⟨c, hc, hd⟩)
      rw [hpresents d hd] at hnot
      contradiction

theorem mem_of_lowerAfter {before cs : List Char} {d : Char} (hd : d ∈ lowerAfter before cs) :
    d ∈ cs ∨ isPresentable d = true := by
  induction cs generalizing before with
  | nil => simp [lowerAfter] at hd
  | cons c rest ih =>
    rw [lowerAfter_cons, List.mem_append] at hd
    rcases hd with hd | hd
    · rcases lowerPiece_presents before c rest with h | h
      · rw [h, List.mem_singleton] at hd
        exact Or.inl (by simp [hd])
      · exact Or.inr (h d hd)
    · exact (ih hd).imp_left (List.mem_cons_of_mem c)

theorem lowerAfter_eq_self_of_unpresentable {before cs : List Char}
    (h : ∀ d ∈ lowerAfter before cs, isPresentable d = false) : lowerAfter before cs = cs := by
  induction cs generalizing before with
  | nil => rfl
  | cons c rest ih =>
    rw [lowerAfter_cons] at h ⊢
    have hrest := ih fun d hd => h d (List.mem_append_right _ hd)
    rcases lowerPiece_presents before c rest with hsame | hpresents
    · rw [hsame, hrest]
      rfl
    · obtain ⟨d, hd⟩ := List.exists_mem_of_ne_nil _ (lowerPiece_ne_nil before c rest)
      have hnot := h d (List.mem_append_left _ hd)
      rw [hpresents d hd] at hnot
      contradiction

theorem lowerChars_presents : Presents lowerChars :=
  ⟨fun _ _ hd => mem_of_lowerAfter hd, fun _ h => lowerAfter_eq_self_of_unpresentable h⟩

end NetWorth.Text
