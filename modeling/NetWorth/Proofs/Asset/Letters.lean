import NetWorth.Proofs.Asset.Paths
import NetWorth.Text.Letter

/-! # Codes of letters

A letter is printable and no separator, so it stays as it is in a segment of an identity, and nothing else
turns into one on the way. A currency whose code consists of letters shares its identity with no other
asset in normal form. -/
namespace NetWorth

namespace Text

/-- Walks along two sets of spans in a number of steps and finds no common point. -/
def Spans.apart : Nat → Spans → Spans → Bool
  | 0, _, _ => false
  | _ + 1, [], _ => true
  | _ + 1, _, [] => true
  | steps + 1, s :: xs, t :: ys =>
    if Nat.blt s.2 t.1 then Spans.apart steps xs (t :: ys)
    else Nat.blt t.2 s.1 && Spans.apart steps (s :: xs) ys

theorem Spans.not_contains_of_apart {steps : Nat} {xs ys : Spans} {n : Nat}
    (h : Spans.apart steps xs ys = true) (hn : xs.contains n = true) : ys.contains n = false := by
  induction steps generalizing xs ys with
  | zero => contradiction
  | succ steps ih =>
    match xs, ys with
    | [], _ => contradiction
    | _ :: _, [] => rfl
    | (first, last) :: xs, (first', last') :: ys =>
      have hbounds := hn
      rw [Spans.contains_cons] at hbounds ⊢
      unfold Spans.apart at h
      simp only [Nat.blt_eq] at h
      split at hbounds <;> rename_i hfirst
      · contradiction
      · split at h <;> rename_i hlast
        · -- the first set starts before the second, which has nothing there
          rw [Bool.or_eq_true, decide_eq_true_eq] at hbounds
          rcases hbounds with hin | hrest
          · exact if_pos (by omega)
          · rw [← Spans.contains_cons]
            exact ih h hrest
        · rw [Bool.and_eq_true, Nat.blt_eq] at h
          have hpast : ¬ n ≤ last' := by omega
          split
          · rfl
          · simpa [hpast] using ih h.2 hn

theorem letterSpans_apart : Spans.apart 2000 letterSpans unprintableSpans = true ∧
    Spans.apart 2000 letterSpans pathMarks = true := by
  decide +kernel

theorem isPresentable_of_isLetter {c : Char} (h : isLetter c = true) : isPresentable c = true := by
  simp only [isPresentable, isPrintable, Bool.and_eq_true, Bool.not_eq_true']
  constructor
  · exact Spans.not_contains_of_apart letterSpans_apart.1 h
  · exact Spans.not_contains_of_apart letterSpans_apart.2 h

end Text

theorem segmentChar_letter {c : Char} (h : Text.isLetter c = true) : segmentChar c = c := by
  obtain ⟨hslash, hbackslash, hprintable⟩ := Text.isPresentable.safe (Text.isPresentable_of_isLetter h)
  simp [segmentChar, hslash, hbackslash, hprintable]

theorem segmentChar_eq_self_or (c : Char) : segmentChar c = c ∨ segmentChar c = '-' := by
  unfold segmentChar
  split
  · exact Or.inr rfl
  · exact Or.inl rfl

/-- A trimmed text of letters is a segment as it is. -/
theorem segmentChars_letters {cs : List Char} (hne : cs ≠ []) (htrimmed : Text.Trimmed cs)
    (hletters : ∀ c ∈ cs, Text.isLetter c = true) : segmentChars cs = cs := by
  have hstop : Text.isLetter '.' = false := by decide +kernel
  refine segmentChars_eq_self htrimmed (fun c hc => segmentChar_letter (hletters c hc)) ⟨hne, ?_, ?_⟩
  · rintro rfl
    simpa [hstop] using hletters '.' (by simp)
  · rintro rfl
    simpa [hstop] using hletters '.' (by simp)

/-- What becomes a segment of letters under upper-casing had nothing to be replaced. -/
theorem segmentChars_of_upper_letters {cs : List Char} (htrimmed : Text.Trimmed cs)
    (hletters : ∀ c ∈ Text.upperChars (segmentChars cs), Text.isLetter c = true) : segmentChars cs = cs := by
  have hhyphen : Text.upperChar '-' = ['-'] ∧ Text.isLetter '-' = false := by decide +kernel
  have hunderscore : Text.upperChars ['_'] = ['_'] ∧ Text.isLetter '_' = false := by decide +kernel
  unfold segmentChars at hletters ⊢
  simp only [htrimmed.trimChars_eq] at hletters ⊢
  split at hletters <;> rename_i hplain
  · rw [hunderscore.1] at hletters
    simpa [hunderscore.2] using hletters '_' (by simp)
  · rw [if_neg hplain]
    refine (List.map_congr_left fun c hc => ?_).trans (List.map_id' cs)
    rcases segmentChar_eq_self_or c with hsame | hreplaced
    · exact hsame
    · -- a hyphen in place of a character would still be there
      have hmem : '-' ∈ Text.upperChars (cs.map segmentChar) :=
        List.mem_flatMap.2 ⟨'-', List.mem_map.2 ⟨c, hc, hreplaced⟩, by simp [hhyphen.1]⟩
      simpa [hhyphen.2] using hletters '-' hmem

namespace Currency

/-- A code in normal form has no blanks at its ends and is in upper case. -/
theorem normalChars_settled (code : List Char) :
    Text.Trimmed (normalChars code) ∧ Text.upperChars (normalChars code) = normalChars code := by
  unfold normalChars
  dsimp only
  split
  · have hends : Text.isBlank 'U' = false ∧ Text.isBlank 'D' = false := by decide
    exact ⟨⟨by simp [hends], by simp [hends]⟩, by decide +kernel⟩
  · exact ⟨(Text.trimmed_trimChars code).upperChars, Text.upperChars_upperChars _⟩

theorem normalize_eq_of_segment {code target : String}
    (hletters : Text.isAlphabetic (normalize target) = true)
    (h : Text.upper (pathSegment (normalize code)) = Text.upper (pathSegment (normalize target))) :
    normalize code = normalize target := by
  obtain ⟨htrimmed, hupper⟩ := normalChars_settled code.toList
  obtain ⟨htrimmed', hupper'⟩ := normalChars_settled target.toList
  simp only [Text.isAlphabetic, normalize, String.toList_ofList, Bool.and_eq_true,
    List.all_eq_true] at hletters
  obtain ⟨hne, hletters⟩ := hletters
  have hne : normalChars target.toList ≠ [] := by
    intro hnil
    rw [hnil] at hne
    contradiction
  simp only [Text.upper, pathSegment, normalize, String.toList_ofList, String.ofList_inj,
    segmentChars_letters hne htrimmed' hletters, hupper'] at h
  have hkept := segmentChars_of_upper_letters htrimmed (h ▸ hletters)
  rw [hkept, hupper] at h
  rw [normalize, normalize, h]

end Currency

theorem Asset.eq_currency_of_letters {asset : Asset} {target : String}
    (hletters : Text.isAlphabetic (Currency.normalize target) = true)
    (hid : AssetId.ofAsset asset = AssetId.ofAsset (.currency target)) :
    asset.normalize = .currency (Currency.normalize target) := by
  obtain ⟨hkind, hsegments⟩ := AssetId.segments_of_ofAsset_eq hid
  cases asset with
  | currency code =>
    simp only [Asset.normalize, AssetId.segments, List.cons.injEq, and_true] at hsegments
    rw [Asset.normalize, Currency.normalize_eq_of_segment hletters hsegments]
  | equity ticker exchange => simp [AssetId.kind] at hkind
  | crypto symbol network => simp [AssetId.kind] at hkind

end NetWorth
