import NetWorth.Proofs.Json.Texts
import NetWorth.Timeline.Trigger

/-! # Descriptions of triggers

The description of a trigger determines the trigger. An account's identifier stands in it as it is, whatever its
characters; it ends where the description of the asset begins, because no object opens inside that description. -/
namespace NetWorth

namespace Asset

def qualifierMember (name : String) (qualifier : Option String) : List (String × String) :=
  qualifier.toList.map fun s => (name, s)

theorem qualifierMember_injective {name : String} {qualifier other : Option String}
    (h : qualifierMember name qualifier = qualifierMember name other) : qualifier = other := by
  cases qualifier <;> cases other <;> simp_all [qualifierMember]

def members : Asset → List (String × String)
  | .currency code => [("type", "currency"), ("iso_code", code)]
  | .equity ticker exchange =>
    ("type", "equity") :: ("ticker", ticker) :: qualifierMember "exchange" exchange
  | .crypto symbol network =>
    ("type", "crypto") :: ("symbol", symbol) :: qualifierMember "network" network

theorem members_injective {asset other : Asset} (h : asset.members = other.members) : asset = other := by
  cases asset with
  | currency code => cases other <;> simp_all [members]
  | equity ticker exchange =>
    cases other with
    | equity ticker' exchange' =>
      simp only [members, List.cons.injEq, Prod.mk.injEq, true_and] at h
      rw [h.1, qualifierMember_injective h.2]
    | currency | crypto => simp [members] at h
  | crypto symbol network =>
    cases other with
    | crypto symbol' network' =>
      simp only [members, List.cons.injEq, Prod.mk.injEq, true_and] at h
      rw [h.1, qualifierMember_injective h.2]
    | currency | equity => simp [members] at h

theorem toJson_eq (asset : Asset) : asset.toJson = Json.ofTexts asset.members := by
  cases asset with
  | currency code => rfl
  | equity ticker exchange => cases exchange <;> rfl
  | crypto symbol network => cases network <;> rfl

def description (asset : Asset) : List Char := Json.write .compact asset.toJson

theorem description_eq (asset : Asset) :
    asset.description = '\x7b' :: Json.membersThen asset.members [] := by
  rw [description, toJson_eq, Json.write_ofTexts]

theorem description_injective {asset other : Asset} (h : asset.description = other.description) :
    asset = other := by
  rw [description_eq, description_eq] at h
  exact members_injective (Json.membersThen_inj (List.cons.inj h).2).1

/-- The kind of an asset comes first in its description. -/
theorem opening_prefix_description (asset : Asset) : Json.opening <+: asset.description := by
  have hkind : ∃ kind members, asset.members = ("type", kind) :: members := by
    cases asset <;> exact ⟨_, _, rfl⟩
  obtain ⟨kind, members, hmembers⟩ := hkind
  rw [description_eq, hmembers, Json.membersThen_cons, Json.writeText_append]
  exact ⟨_, rfl⟩

/-- No description of an asset ends in a colon and another description. -/
theorem description_ne_append (asset other : Asset) (before : List Char) :
    asset.description ≠ before ++ ':' :: other.description := by
  rw [description_eq]
  intro h
  cases before with
  | nil => exact absurd (List.cons.inj h).1 (by decide)
  | cons c before =>
    have htail : Json.membersThen asset.members [] = before ++ ':' :: other.description := (List.cons.inj h).2
    have hopening : Json.opening <:+: Json.membersThen asset.members [] := by
      rw [htail]
      exact (opening_prefix_description other).isInfix.trans
        ((List.suffix_cons _ _).trans (List.suffix_append _ _)).isInfix
    exact Json.not_opening_infix_membersThen _ hopening

theorem between_eq_nil {between : List Char} {asset other : Asset}
    (h : ':' :: asset.description = between ++ ':' :: other.description) : between = [] := by
  cases between with
  | nil => rfl
  | cons c between => exact absurd (List.cons.inj h).2 (description_ne_append _ _ _)

/-- An identifier and an asset behind a colon are told apart, whatever characters the identifier has. -/
theorem identified_inj {id other : List Char} {asset asset' : Asset}
    (h : id ++ ':' :: asset.description = other ++ ':' :: asset'.description) :
    id = other ∧ asset = asset' := by
  have hid : id = other := by
    rcases List.append_eq_append_iff.1 h with ⟨between, hother, hbetween⟩ | ⟨between, hid, hbetween⟩
    · rw [hother, between_eq_nil hbetween, List.append_nil]
    · rw [hid, between_eq_nil hbetween, List.append_nil]
  subst hid
  exact ⟨rfl, description_injective (List.cons.inj (List.append_cancel_left h)).2⟩

end Asset

namespace Trigger

/-- A trigger whose base currency, if it has one, is written without a slash. -/
def Unslashed : Trigger → Prop
  | .rate base _ => '/' ∉ base.toList
  | _ => True

instance : DecidablePred Unslashed
  | .rate base _ => inferInstanceAs (Decidable ('/' ∉ base.toList))
  | .balance .. | .price _ => isTrue trivial

theorem toList_text_balance (accountId : String) (asset : Asset) :
    (text (.balance accountId asset)).toList =
      "balance:".toList ++ (accountId.toList ++ ':' :: asset.description) := by
  simp [text, Json.compact, Asset.description]

theorem toList_text_price (assetId : AssetId) :
    (text (.price assetId)).toList = "price:".toList ++ assetId.text.toList := by
  simp [text]

theorem toList_text_rate (base quote : String) :
    (text (.rate base quote)).toList = "fx:".toList ++ (base.toList ++ '/' :: quote.toList) := by
  simp [text]

def letter : Trigger → Char
  | .balance .. => 'b'
  | .price _ => 'p'
  | .rate .. => 'f'

theorem head?_text (t : Trigger) : t.text.toList.head? = some t.letter := by
  cases t with
  | balance accountId asset => rw [toList_text_balance]; rfl
  | price assetId => rw [toList_text_price]; rfl
  | rate base quote => rw [toList_text_rate]; rfl

/-- Where the text before the first slash ends, no longer one does. -/
theorem unslashed_between_eq_nil {before between quote quote' : List Char} (h : '/' ∉ before ++ between)
    (heq : '/' :: quote = between ++ '/' :: quote') : between = [] := by
  cases between with
  | nil => rfl
  | cons c between =>
    obtain rfl : '/' = c := (List.cons.inj heq).1
    exact absurd (List.mem_append_right before List.mem_cons_self) h

theorem pair_inj {base base' quote quote' : List Char} (h : '/' ∉ base) (h' : '/' ∉ base')
    (heq : base ++ '/' :: quote = base' ++ '/' :: quote') : base = base' ∧ quote = quote' := by
  have hbase : base = base' := by
    rcases List.append_eq_append_iff.1 heq with ⟨between, hbase', hquote⟩ | ⟨between, hbase, hquote⟩
    · rw [hbase', unslashed_between_eq_nil (hbase' ▸ h') hquote, List.append_nil]
    · rw [hbase, unslashed_between_eq_nil (hbase ▸ h) hquote, List.append_nil]
  subst hbase
  exact ⟨rfl, (List.cons.inj (List.append_cancel_left heq)).2⟩

/-- Descriptions of triggers are unambiguous. -/
theorem text_eq_iff {t u : Trigger} (ht : t.Unslashed) (hu : u.Unslashed) : t.text = u.text ↔ t = u := by
  refine ⟨fun h => ?_, congrArg text⟩
  have hchars : t.text.toList = u.text.toList := congrArg String.toList h
  have hletter : t.letter = u.letter := by
    have hheads := head?_text t
    rw [hchars, head?_text u] at hheads
    exact (Option.some.inj hheads).symm
  cases t with
  | balance accountId asset =>
    cases u with
    | balance accountId' asset' =>
      rw [toList_text_balance, toList_text_balance] at hchars
      obtain ⟨hid, hasset⟩ := Asset.identified_inj (List.append_cancel_left hchars)
      rw [String.toList_injective hid, hasset]
    | price | rate => simp [letter] at hletter
  | price assetId =>
    cases u with
    | price assetId' =>
      rw [toList_text_price, toList_text_price] at hchars
      have htext : assetId.text = assetId'.text := String.toList_injective (List.append_cancel_left hchars)
      exact congrArg price (congrArg AssetId.mk htext)
    | balance | rate => simp [letter] at hletter
  | rate base quote =>
    cases u with
    | rate base' quote' =>
      rw [toList_text_rate, toList_text_rate] at hchars
      obtain ⟨hbase, hquote⟩ := pair_inj ht hu (List.append_cancel_left hchars)
      rw [String.toList_injective hbase, String.toList_injective hquote]
    | balance | price => simp [letter] at hletter

/-- A slash in the quote currency does not move the end of the base currency. -/
theorem text_ne_of_slashed_quote :
    Unslashed (.rate "EUR" "USD/GBP") ∧ Unslashed (.rate "EUR" "USD") ∧
      text (.rate "EUR" "USD/GBP") ≠ text (.rate "EUR" "USD") :=
  ⟨by decide, by decide, mt (text_eq_iff (by decide) (by decide)).1 (by decide)⟩

/-- With a slash in the base currency two triggers have one description. -/
example : text (.rate "EUR/USD" "GBP") = text (.rate "EUR" "USD/GBP") := by decide

end Trigger

end NetWorth
