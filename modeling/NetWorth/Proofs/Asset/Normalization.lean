import NetWorth.Asset.Identity
import NetWorth.Proofs.Text.Casing

/-! # Normal forms of assets

Bringing a currency code or an asset into normal form a second time changes nothing, so an asset and
its normal form have one identity. Assets of one identity are of one kind. -/
namespace NetWorth

namespace Currency

theorem normalChars_normalChars (code : List Char) :
    normalChars (normalChars code) = normalChars code := by
  unfold normalChars
  generalize ht : Text.trimChars code = trimmed
  have htrimmed : Text.Trimmed trimmed := ht ▸ Text.trimmed_trimChars code
  dsimp only
  by_cases hnumeric : trimmed = ['8', '4', '0']
  · rw [if_pos hnumeric]
    decide +kernel
  · have hdigits : Text.upperChars trimmed ≠ ['8', '4', '0'] :=
      fun h => hnumeric (Text.eq_of_upperChars_digits h (by simp))
    rw [if_neg hnumeric, htrimmed.upperChars.trimChars_eq, if_neg hdigits,
      Text.upperChars_upperChars]

@[simp] theorem normalize_normalize (code : String) : normalize (normalize code) = normalize code := by
  simp [normalize, normalChars_normalChars]

/-- A code in normal form is kept as it is. -/
@[simp] theorem storeKey_normalize (code : String) : storeKey (normalize code) = normalize code := by
  by_cases hnumeric : Text.trimChars code.toList = ['8', '4', '0']
  · have hdollar : normalize code = "USD" := by rw [normalize, normalChars, if_pos hnumeric]
    rw [hdollar]
    decide +kernel
  · have hcode : normalize code = Text.upper (Text.trim code) := by
      rw [normalize, normalChars, if_neg hnumeric, Text.upper, Text.toList_trim]
    rw [hcode, storeKey, Text.trim_upper_trim, Text.upper_upper]

theorem same_normalize (a b : String) : same (normalize a) b = same a b := by
  simp [same]

end Currency

namespace Asset

theorem qualifier?_some (s : String) :
    qualifier? (some s) = if Text.trim s = "" then none else some (Text.trim s) := by
  by_cases hs : Text.trim s = "" <;> simp [qualifier?, Option.filter, hs]

theorem qualifier?_map (map : String → String) (text : Option String)
    (htrim : ∀ s, Text.trim (map (Text.trim s)) = map (Text.trim s))
    (hne : ∀ s, s ≠ "" → map s ≠ "") (hmap : ∀ s, map (map s) = map s) :
    (qualifier? ((qualifier? text).map map)).map map = (qualifier? text).map map := by
  cases text with
  | none => rfl
  | some s =>
    rw [qualifier?_some]
    split
    · rfl
    · rename_i hs
      rw [Option.map_some, qualifier?_some, htrim, if_neg (hne _ hs), Option.map_some, hmap]

@[simp] theorem normalize_normalize (asset : Asset) : asset.normalize.normalize = asset.normalize := by
  cases asset with
  | currency code => simp [normalize]
  | equity ticker exchange =>
    simp only [normalize, Text.trim_upper_trim, Text.upper_upper,
      qualifier?_map Text.upper exchange Text.trim_upper_trim (fun _ => Text.upper_ne_empty)
        Text.upper_upper]
  | crypto symbol network =>
    simp only [normalize, Text.trim_upper_trim, Text.upper_upper,
      qualifier?_map Text.lower network Text.trim_lower_trim (fun _ => Text.lower_ne_empty)
        Text.lower_lower]

end Asset

namespace AssetId

@[simp] theorem kind_normalize (asset : Asset) : kind asset.normalize = kind asset := by
  cases asset <;> simp only [Asset.normalize, kind]

/-- An asset and its normal form have one identity. -/
@[simp] theorem ofAsset_normalize (asset : Asset) : ofAsset asset.normalize = ofAsset asset := by
  simp [ofAsset]

theorem segments_ne_nil (asset : Asset) : segments asset ≠ [] := by
  cases asset <;> simp [segments]

theorem ofSegments_toList {kind : String} {segments : List String} (h : segments ≠ []) :
    ∃ rest, (ofSegments kind segments).text.toList = kind.toList ++ '/' :: rest := by
  obtain ⟨first, others, rfl⟩ := List.exists_cons_of_ne_nil h
  exact ⟨(String.intercalate "/" (first :: others)).toList, by simp [ofSegments, String.intercalate_cons_cons]⟩

theorem kind_eq_of_ofAsset_eq {a b : Asset} (h : ofAsset a = ofAsset b) : kind a = kind b := by
  obtain ⟨as, ha⟩ := @ofSegments_toList (kind a) _ (segments_ne_nil a.normalize)
  obtain ⟨bs, hb⟩ := @ofSegments_toList (kind b) _ (segments_ne_nil b.normalize)
  have htext : (kind a).toList ++ '/' :: as = (kind b).toList ++ '/' :: bs := by
    rw [← ha, ← hb]
    exact congrArg (fun id => id.text.toList) h
  cases a <;> cases b <;> simp_all [kind]

end AssetId

end NetWorth
