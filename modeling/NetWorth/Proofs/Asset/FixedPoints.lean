import NetWorth.Proofs.Asset.Letters

/-! # Fixed points

A text in upper or lower case keeps its case when it is made a segment, and a segment that is made a segment
once more stays as it is. So an asset in normal form is its own normal form, shares its identity with every
spelling that leads to it, and the segments of that identity are its fields made segments, which neither
another such step nor the case of the kind changes. -/
namespace NetWorth

namespace Text

theorem upperChar_of_mem {cs : List Char} (h : upperChars cs = cs) {c : Char} (hc : c ∈ cs) :
    upperChar c = [c] := by
  rw [← h] at hc
  obtain ⟨d, -, hd⟩ := List.mem_flatMap.1 hc
  exact upperChar_upperChar hd

/-- A character of a text in lower case is its own lower case, wherever it stands. -/
theorem lowerChar_of_mem {cs : List Char} (h : lowerChars cs = cs) {c : Char} (hc : c ∈ cs) :
    lowerChar c = [c] ∧ c ≠ 'Σ' :=
  lowerAfter_settled (h ▸ hc)

end Text

theorem isBlank_segmentChar {c : Char} (h : Text.isBlank c = false) : Text.isBlank (segmentChar c) = false := by
  rcases segmentChar_eq_self_or c with hsame | hreplaced
  · rwa [hsame]
  · rw [hreplaced]
    decide

theorem trimmed_segmentChars (cs : List Char) : Text.Trimmed (segmentChars cs) := by
  obtain ⟨hhead, hlast⟩ := Text.trimmed_trimChars cs
  simp only [segmentChars]
  split
  · have hmark : Text.isBlank '_' = false := by decide
    exact ⟨fun c hc => Option.some.inj hc ▸ hmark, fun c hc => Option.some.inj hc ▸ hmark⟩
  · constructor
    · intro c hc
      rw [List.head?_map] at hc
      obtain ⟨d, hd, rfl⟩ := Option.map_eq_some_iff.1 hc
      exact isBlank_segmentChar (hhead d hd)
    · intro c hc
      rw [List.getLast?_map] at hc
      obtain ⟨d, hd, rfl⟩ := Option.map_eq_some_iff.1 hc
      exact isBlank_segmentChar (hlast d hd)

theorem segmentChars_segmentChars (cs : List Char) : segmentChars (segmentChars cs) = segmentChars cs := by
  refine segmentChars_eq_self (trimmed_segmentChars cs) (fun c hc => ?_) (segmentChars_named cs)
  obtain ⟨hslash, hbackslash, hprintable⟩ := segmentChars_safe c hc
  simp [segmentChar, hslash, hbackslash, hprintable]

@[simp] theorem pathSegment_pathSegment (s : String) : pathSegment (pathSegment s) = pathSegment s := by
  simp [pathSegment, segmentChars_segmentChars]

theorem mem_segmentChars {cs : List Char} {c : Char} (h : c ∈ segmentChars cs) : c ∈ cs ∨ c = '-' ∨ c = '_' := by
  simp only [segmentChars] at h
  split at h
  · exact .inr (.inr (List.mem_singleton.1 h))
  · obtain ⟨d, hd, rfl⟩ := List.mem_map.1 h
    rcases segmentChar_eq_self_or d with hsame | hreplaced
    · exact .inl (hsame.symm ▸ (Text.trimChars_sublist cs).mem hd)
    · exact .inr (.inl hreplaced)

theorem upper_pathSegment {s : String} (h : Text.upper s = s) : Text.upper (pathSegment s) = pathSegment s := by
  have hmarks : Text.upperChar '-' = ['-'] ∧ Text.upperChar '_' = ['_'] := by decide +kernel
  have hchars : Text.upperChars s.toList = s.toList := by rw [← Text.toList_upper, h]
  rw [Text.upper, pathSegment, String.toList_ofList, Text.upperChars_eq_self fun c hc => ?_]
  rcases mem_segmentChars hc with hold | rfl | rfl
  · exact Text.upperChar_of_mem hchars hold
  · exact hmarks.1
  · exact hmarks.2

theorem lower_pathSegment {s : String} (h : Text.lower s = s) : Text.lower (pathSegment s) = pathSegment s := by
  have hmarks : (Text.lowerChar '-' = ['-'] ∧ '-' ≠ 'Σ') ∧ Text.lowerChar '_' = ['_'] ∧ '_' ≠ 'Σ' := by
    decide +kernel
  have hchars : Text.lowerChars s.toList = s.toList := by rw [← Text.toList_lower, h]
  rw [Text.lower, pathSegment, String.toList_ofList, Text.lowerChars, Text.lowerAfter_eq_self fun c hc => ?_]
  rcases mem_segmentChars hc with hold | rfl | rfl
  · exact Text.lowerChar_of_mem hchars hold
  · exact hmarks.1
  · exact hmarks.2

theorem Currency.upper_normalize (code : String) : Text.upper (normalize code) = normalize code := by
  rw [Text.upper, normalize, String.toList_ofList, (normalChars_settled code.toList).2]

namespace AssetId

/-- The fields of an asset that become segments, each with the case that its kind puts it in. -/
def casedFields : Asset → List ((String → String) × String)
  | .currency code => [(Text.upper, code)]
  | .equity ticker exchange => (Text.upper, ticker) :: (exchange.map (Text.upper, ·)).toList
  | .crypto symbol network => (Text.upper, symbol) :: (network.map (Text.lower, ·)).toList

theorem segments_eq_map (asset : Asset) :
    segments asset = (casedFields asset).map fun f => f.1 (pathSegment f.2) := by
  cases asset with
  | currency code => rfl
  | equity ticker exchange => cases exchange <;> rfl
  | crypto symbol network => cases network <;> rfl

theorem cased_normalize (asset : Asset) :
    ∀ f ∈ casedFields asset.normalize, f.1 (pathSegment f.2) = pathSegment f.2 := by
  intro f hf
  cases asset with
  | currency code =>
    obtain rfl := List.mem_singleton.1 hf
    exact upper_pathSegment (Currency.upper_normalize code)
  | equity ticker exchange =>
    simp only [Asset.normalize, casedFields, List.mem_cons, Option.mem_toList, Option.map_eq_some_iff] at hf
    obtain rfl | ⟨_, ⟨name, -, rfl⟩, rfl⟩ := hf
    · exact upper_pathSegment (Text.upper_upper _)
    · exact upper_pathSegment (Text.upper_upper name)
  | crypto symbol network =>
    simp only [Asset.normalize, casedFields, List.mem_cons, Option.mem_toList, Option.map_eq_some_iff] at hf
    obtain rfl | ⟨_, ⟨name, -, rfl⟩, rfl⟩ := hf
    · exact upper_pathSegment (Text.upper_upper _)
    · exact lower_pathSegment (Text.lower_lower name)

/-- Codes and assets in normal form are their own normal forms, and an asset has the identity of its normal
form. The segments of that identity are the fields in normal form made segments, and they are fixed: made a
segment and put in the case of its kind once more, none of them changes. -/
theorem normal_forms_are_fixed (code : String) (asset : Asset) :
    Currency.normalize (Currency.normalize code) = Currency.normalize code ∧
      asset.normalize.normalize = asset.normalize ∧
      ofAsset asset.normalize = ofAsset asset ∧
      segments asset.normalize = (casedFields asset.normalize).map (fun f => pathSegment f.2) ∧
      ∀ f ∈ casedFields asset.normalize, f.1 (pathSegment (pathSegment f.2)) = pathSegment f.2 := by
  refine ⟨Currency.normalize_normalize code, asset.normalize_normalize, ofAsset_normalize asset, ?_, ?_⟩
  · rw [segments_eq_map]
    exact List.map_congr_left (cased_normalize asset)
  · intro f hf
    rw [pathSegment_pathSegment]
    exact cased_normalize asset f hf

/-- A capital that becomes two letters, and a sigma at the end of a word. -/
example : Asset.normalize (.crypto " weiß " (some " ΟΔΟΣ ")) = .crypto "WEISS" (some "οδος") ∧
    (ofAsset (.crypto "WEISS" (some "οδος"))).text = "crypto/WEISS/οδος" := by
  decide +kernel

end AssetId

end NetWorth
