import NetWorth.Proofs.Asset.Normalization
import NetWorth.Proofs.Text.Presentable

/-! # Identities as paths

An identity splits at its separators into the kind of the asset and one segment, or two for an asset with
an exchange or a network. No segment can leave its directory, and none holds a separator, so the segments
are read back from the text: assets are the same exactly if their kinds and their segments are. -/
namespace NetWorth

structure SafeSegment (s : String) : Prop where
  nonempty : s ≠ ""
  noDirectory : s ≠ "." ∧ s ≠ ".."
  chars : ∀ c ∈ s.toList, c ≠ '/' ∧ c ≠ '\\' ∧ Text.isPrintable c = true

/-- Whether an asset names an exchange or a network; a blank one counts as absent. -/
def Asset.isQualified : Asset → Bool
  | .currency _ => false
  | .equity _ exchange => exchange.any fun s => Text.trim s ≠ ""
  | .crypto _ network => network.any fun s => Text.trim s ≠ ""

theorem Text.isPresentable.safe {c : Char} (h : Text.isPresentable c = true) :
    c ≠ '/' ∧ c ≠ '\\' ∧ Text.isPrintable c = true := by
  simp only [isPresentable, Bool.and_eq_true] at h
  obtain ⟨hprintable, hmarks⟩ := h
  refine ⟨?_, ?_, hprintable⟩
  · rintro rfl
    exact absurd hmarks (by decide)
  · rintro rfl
    exact absurd hmarks (by decide)

theorem segmentChar_safe (c : Char) :
    segmentChar c ≠ '/' ∧ segmentChar c ≠ '\\' ∧ Text.isPrintable (segmentChar c) = true := by
  unfold segmentChar
  split
  · decide +kernel
  · rename_i h
    simpa [not_or, and_assoc] using h

theorem segmentChars_safe {cs : List Char} :
    ∀ c ∈ segmentChars cs, c ≠ '/' ∧ c ≠ '\\' ∧ Text.isPrintable c = true := by
  unfold segmentChars
  intro c hc
  simp only at hc
  split at hc
  · rw [List.mem_singleton] at hc
    rw [hc]
    decide +kernel
  · obtain ⟨d, -, rfl⟩ := List.mem_map.mp hc
    exact segmentChar_safe d

theorem segmentChars_named (cs : List Char) :
    segmentChars cs ≠ [] ∧ segmentChars cs ≠ ['.'] ∧ segmentChars cs ≠ ['.', '.'] := by
  unfold segmentChars
  simp only
  split
  · decide
  · rename_i h
    simpa [not_or, and_assoc] using h

/-- What is trimmed, holds nothing to be replaced and names something is a segment as it is. -/
theorem segmentChars_eq_self {cs : List Char} (htrimmed : Text.Trimmed cs)
    (hkept : ∀ c ∈ cs, segmentChar c = c) (hnamed : cs ≠ [] ∧ cs ≠ ['.'] ∧ cs ≠ ['.', '.']) :
    segmentChars cs = cs := by
  have hmap : cs.map segmentChar = cs := (List.map_congr_left hkept).trans (List.map_id' cs)
  simp only [segmentChars, htrimmed.trimChars_eq, hmap]
  exact if_neg (by simpa [not_or, and_assoc] using hnamed)

/-- A mapping that brings in presentable characters only keeps a segment safe: a segment that it made up
of full stops alone would have been that before. -/
theorem SafeSegment.of_presents {map : List Char → List Char} (h : Text.Presents map) (s : String) :
    SafeSegment (String.ofList (map (pathSegment s).toList)) := by
  have hsegment : (pathSegment s).toList = segmentChars s.toList := String.toList_ofList
  obtain ⟨hempty, hhere, habove⟩ := segmentChars_named s.toList
  have hstop : Text.isPresentable '.' = false := by decide +kernel
  -- full stops are brought in by no mapping
  have hstops : ∀ ds : List Char, (∀ d ∈ ds, Text.isPresentable d = false) →
      segmentChars s.toList ≠ ds → String.ofList (map (pathSegment s).toList) ≠ String.ofList ds := by
    intro ds hds hne heq
    rw [hsegment, String.ofList_inj] at heq
    exact hne ((h.self _ (heq ▸ hds)).symm.trans heq)
  constructor
  · exact hstops [] (by simp) hempty
  · exact ⟨hstops ['.'] (by simp [hstop]) hhere, hstops ['.', '.'] (by simp [hstop]) habove⟩
  · intro c hc
    rw [String.toList_ofList, hsegment] at hc
    rcases h.mem _ c hc with hold | hnew
    · exact segmentChars_safe c hold
    · exact Text.isPresentable.safe hnew

theorem SafeSegment.upper (s : String) : SafeSegment (Text.upper (pathSegment s)) :=
  SafeSegment.of_presents Text.upperChars_presents s

theorem SafeSegment.lower (s : String) : SafeSegment (Text.lower (pathSegment s)) :=
  SafeSegment.of_presents Text.lowerChars_presents s

namespace AssetId

theorem safeSegment_of_mem_segments {asset : Asset} {s : String} (hs : s ∈ segments asset) :
    SafeSegment s := by
  cases asset with
  | currency code =>
    rw [segments, List.mem_singleton] at hs
    exact hs ▸ SafeSegment.upper code
  | equity ticker exchange =>
    simp only [segments, List.mem_cons, Option.mem_toList, Option.map_eq_some_iff] at hs
    rcases hs with hs | ⟨name, -, hs⟩
    · exact hs ▸ SafeSegment.upper ticker
    · exact hs ▸ SafeSegment.upper name
  | crypto symbol network =>
    simp only [segments, List.mem_cons, Option.mem_toList, Option.map_eq_some_iff] at hs
    rcases hs with hs | ⟨name, -, hs⟩
    · exact hs ▸ SafeSegment.upper symbol
    · exact hs ▸ SafeSegment.lower name

theorem safeSegment_kind (asset : Asset) : SafeSegment (kind asset) := by
  have hkinds : ["currency", "equity", "crypto"].all fun s => s.toList.all Text.isPresentable := by
    decide +kernel
  simp only [List.all_cons, List.all_nil, Bool.and_true, Bool.and_eq_true, List.all_eq_true] at hkinds
  obtain ⟨hcurrency, hequity, hcrypto⟩ := hkinds
  cases asset with
  | currency code =>
    exact ⟨by simp [kind], by simp [kind], fun c hc => Text.isPresentable.safe (hcurrency c hc)⟩
  | equity ticker exchange =>
    exact ⟨by simp [kind], by simp [kind], fun c hc => Text.isPresentable.safe (hequity c hc)⟩
  | crypto symbol network =>
    exact ⟨by simp [kind], by simp [kind], fun c hc => Text.isPresentable.safe (hcrypto c hc)⟩

theorem length_segments_normalize (asset : Asset) :
    (segments asset.normalize).length = if asset.isQualified then 2 else 1 := by
  have hqualifier : ∀ (name : Option String) (map : String → String),
      (((Asset.qualifier? name).map map).toList).length + 1 =
        if name.any (fun s => Text.trim s ≠ "") then 2 else 1 := by
    intro name map
    cases name with
    | none => rfl
    | some s =>
      rw [Asset.qualifier?_some]
      by_cases hblank : Text.trim s = "" <;> simp [hblank]
  cases asset with
  | currency code => rfl
  | equity ticker exchange =>
    simp only [Asset.normalize, segments, List.length_cons, Option.map_map]
    exact hqualifier exchange _
  | crypto symbol network =>
    simp only [Asset.normalize, segments, List.length_cons, Option.map_map]
    exact hqualifier network _

/-- The kind and the segments of an asset, as they are joined to its identity. -/
theorem splitOn_ofAsset (asset : Asset) : (ofAsset asset).text.toList.splitOn '/' =
    (kind asset :: segments asset.normalize).map String.toList := by
  have hsafe : ∀ s ∈ kind asset :: segments asset.normalize, SafeSegment s := by
    intro s hs
    rcases List.mem_cons.mp hs with rfl | hs
    · exact safeSegment_kind asset
    · exact safeSegment_of_mem_segments hs
  rw [ofAsset, ofSegments, String.toList_intercalate]
  apply List.splitOn_intercalate
  · intro cs hcs hslash
    obtain ⟨s, hs, rfl⟩ := List.mem_map.mp hcs
    exact ((hsafe s hs).chars '/' hslash).1 rfl
  · exact List.cons_ne_nil _ _

theorem segments_of_ofAsset_eq {a b : Asset} (h : ofAsset a = ofAsset b) :
    kind a = kind b ∧ segments a.normalize = segments b.normalize := by
  have hsplit : (kind a :: segments a.normalize).map String.toList =
      (kind b :: segments b.normalize).map String.toList := by
    rw [← splitOn_ofAsset, ← splitOn_ofAsset, h]
  have hinjective : Function.Injective String.toList := fun _ _ => String.toList_inj.mp
  exact List.cons.inj (List.map_injective_iff.mpr hinjective hsplit)

/-- An identity splits into the kind of the asset and its safe segments, one or two as the asset is
qualified, and two assets are the same exactly if kinds and segments are; so those of different kinds are
not the same, nor those of which only one is qualified. -/
theorem identity_is_safe_path (a b : Asset) :
    (ofAsset a).text.toList.splitOn '/' = (kind a :: segments a.normalize).map String.toList ∧
      (segments a.normalize).length = (if a.isQualified then 2 else 1) ∧
      (∀ s ∈ kind a :: segments a.normalize, SafeSegment s) ∧
      (Asset.same a b = true ↔ kind a = kind b ∧ segments a.normalize = segments b.normalize) ∧
      (Asset.same a b = true → kind a = kind b ∧ a.isQualified = b.isQualified) := by
  have hsame : Asset.same a b = true ↔ kind a = kind b ∧ segments a.normalize = segments b.normalize := by
    rw [Asset.same, decide_eq_true_iff]
    constructor
    · exact segments_of_ofAsset_eq
    · rintro ⟨hkind, hsegments⟩
      rw [ofAsset, ofAsset, hkind, hsegments]
  refine ⟨splitOn_ofAsset a, length_segments_normalize a, ?_, hsame, ?_⟩
  · intro s hs
    rcases List.mem_cons.mp hs with rfl | hs
    · exact safeSegment_kind a
    · exact safeSegment_of_mem_segments hs
  · intro h
    obtain ⟨hkind, hsegments⟩ := hsame.mp h
    have hlength := congrArg List.length hsegments
    rw [length_segments_normalize, length_segments_normalize] at hlength
    refine ⟨hkind, ?_⟩
    revert hlength
    cases a.isQualified <;> cases b.isQualified <;> simp

/-- A token whose symbol climbs out of its directory stays in it. -/
example : (ofAsset (.crypto " ../.. " (some " Main/Net "))).text = "crypto/..-../main-net" := by
  decide +kernel

end AssetId

end NetWorth
