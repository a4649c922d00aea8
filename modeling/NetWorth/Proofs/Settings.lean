import NetWorth.Proofs.Api.Blame

/-! # Settings that can be used

Settings are checked once, when the program starts, and requests rely on them from then on. The length of the
reporting currency is checked before it is trimmed and put in upper case, and the default granularity is not
checked at all, so accepted settings can be used exactly if as many blanks go as letters come, and if the
granularity happens to be one. -/
namespace NetWorth

namespace Checked

variable {α β : Type}

@[simp] theorem map_eq_ok_iff {f : α → β} {x : Checked α} {b : β} :
    (f <$> x) = .ok b ↔ ∃ a, x = .ok a ∧ f a = b := by
  cases x with
  | ok a => simp
  | rejected issues => exact ⟨nofun, nofun⟩

/-- A checked function and a checked argument pass together if each passes. -/
@[simp] theorem seq_eq_ok_iff {f : Checked (α → β)} {x : Checked α} {b : β} :
    (f <*> x) = .ok b ↔ ∃ g a, f = .ok g ∧ x = .ok a ∧ g a = b := by
  cases f with
  | ok g =>
    cases x with
    | ok a => simp
    | rejected issues => exact ⟨nofun, nofun⟩
  | rejected issues => cases x <;> exact ⟨nofun, nofun⟩

@[simp] theorem andThen_eq_ok_iff {x : Checked α} {f : α → Checked β} {b : β} :
    x.andThen f = .ok b ↔ ∃ a, x = .ok a ∧ f a = .ok b := by
  cases x with
  | ok a => simp [andThen]
  | rejected issues => exact ⟨nofun, nofun⟩

@[simp] theorem under_eq_ok_iff {place : String} {x : Checked α} {a : α} :
    x.under place = .ok a ↔ x = .ok a := by
  cases x with
  | ok b => simp
  | rejected issues => exact ⟨nofun, nofun⟩

end Checked

namespace Text

theorem length_trim_le (s : String) : (trim s).length ≤ s.length := by
  rw [← String.length_toList, ← String.length_toList, toList_trim]
  exact (trimChars_sublist s.toList).length_le

/-- No character has an empty upper case, so a text does not get shorter. -/
theorem length_le_length_upper (s : String) : s.length ≤ (upper s).length := by
  rw [← String.length_toList, ← String.length_toList, toList_upper]
  induction s.toList with
  | nil => exact Nat.le_refl 0
  | cons c cs ih =>
    have hpos : 0 < (upperChar c).length := List.length_pos_iff.2 (upperChar_ne_nil c)
    rw [upperChars_cons, List.length_append, List.length_cons]
    omega

end Text

/-- A text spells a granularity and has no number that is too long. -/
def Granularity.Readable (value : String) : Prop :=
  (∃ g, Spells (folded value) g) ∧ ∀ duration : Duration, duration.WrittenAs (folded value).toList →
    duration.digits.length ≤ Failure.greatestDigits

theorem Granularity.exists_parse_iff {value : String} : (∃ g, parse value = .ok g) ↔ Readable value := by
  constructor
  · rintro ⟨g, hg⟩
    refine ⟨?_, fun duration hduration => ?_⟩
    · rcases parse_eq_or value with hparse | ⟨duration, -, -, hparse⟩
      · exact ⟨g, parseWithin_none_eq_ok_iff.1 (hparse.symm.trans hg)⟩
      · exact absurd (hg.symm.trans hparse) nofun
    · by_contra hlong
      exact absurd (hg.symm.trans (parse_of_overlong hduration (Nat.lt_of_not_le hlong))) nofun
  · rintro ⟨⟨g, hg⟩, hshort⟩
    refine (parse_fails value).exists_ok fun failure hfails => ?_
    rcases hfails with ⟨hunspelled, -⟩ | ⟨-, ⟨duration, hduration, hlong, -⟩ | ⟨-, ⟨⟩⟩⟩
    · exact hunspelled g hg
    · exact absurd (hshort duration hduration) (Nat.not_le_of_lt hlong)

namespace Settings

def lastValue? (name : String) (given : List (String × String)) : Option String :=
  (given.reverse.find? fun v => Text.lower v.1 = name).map Prod.snd

def givenCurrency (given : List (String × String)) : String :=
  (lastValue? "reporting_currency" given).getD standard.reportingCurrency

def givenGranularity (given : List (String × String)) : String :=
  (lastValue? "default_granularity" given).getD standard.defaultGranularity

def membersOf (given : List (String × String)) : List (String × Json) :=
  (given.reverse.map fun v => (v.1, Json.text v.2)).map fun m => (Text.lower m.1, m.2)

theorem get?_membersOf (name : String) (given : List (String × String)) :
    Keyed.get? name (membersOf given) = (lastValue? name given).map .text := by
  unfold membersOf lastValue?
  induction given.reverse with
  | nil => rfl
  | cons v vs ih =>
    simp only [List.map_cons, Keyed.get?_cons, ih, List.find?_cons]
    by_cases hname : Text.lower v.1 = name <;> simp [hname]

theorem threeCharacters_eq_ok_iff {s code : String} :
    threeCharacters (.text s) = .ok code ↔ s = code ∧ s.length = 3 := by
  simp only [threeCharacters, Check.text, Checked.andThen]
  split
  · simp [Checked.issue]
    omega
  · split
    · simp [Checked.issue]
      omega
    · simp
      omega

variable {given : List (String × String)} {s : Settings}

theorem granularity_of_members {word : String} :
    Check.withDefault "default_granularity" "none" Check.text (membersOf given) = .ok word ↔
      word = givenGranularity given := by
  rw [Check.withDefault, get?_membersOf, givenGranularity]
  cases lastValue? "default_granularity" given with
  | none => simp [standard, eq_comm]
  | some value => simp [Check.text, eq_comm]

theorem currency_of_members {code : String} :
    Check.withDefault "reporting_currency" "USD" threeCharacters (membersOf given) = .ok code ↔
      code = givenCurrency given ∧ code.length = 3 := by
  rw [Check.withDefault, get?_membersOf, givenCurrency]
  cases lastValue? "reporting_currency" given with
  | none =>
    simp only [Checked.ok.injEq, Option.map_none, Option.getD_none, standard]
    constructor
    · rintro rfl
      decide
    · exact fun h => h.1.symm
  | some value =>
    simp only [Option.map_some, Checked.under_eq_ok_iff, threeCharacters_eq_ok_iff, Option.getD_some]
    constructor
    · rintro ⟨rfl, hlength⟩
      exact ⟨rfl, hlength⟩
    · rintro ⟨rfl, hlength⟩
      exact ⟨rfl, hlength⟩

/-- Of an environment that is accepted, the currency has three characters as it is given and letters only in its
final form. The granularity is what is given. -/
theorem of_ofEnvironment (h : ofEnvironment given = .ok s) :
    (givenCurrency given).length = 3 ∧ s.reportingCurrency = Text.upper (Text.trim (givenCurrency given)) ∧
      Text.isAlphabetic s.reportingCurrency = true ∧ s.defaultGranularity = givenGranularity given := by
  rw [ofEnvironment, ofMembers, ← membersOf, Checked.andThen_eq_ok_iff] at h
  -- the fields are checked one beside the other; what is done to the currency in the end comes behind them all
  obtain ⟨unfinished, hmembers, hfinish⟩ := h
  simp only [Checked.seq_eq_ok_iff, Checked.map_eq_ok_iff] at hmembers
  obtain ⟨_, appName, ⟨_, places, ⟨_, word, hfields, hword, rfl⟩, -, rfl⟩, -, rfl⟩ := hmembers
  obtain ⟨_, code, ⟨_, format, ⟨_, level, ⟨environment, -, rfl⟩, -, rfl⟩, -, rfl⟩, hcode, rfl⟩ := hfields
  obtain ⟨rfl, hlength⟩ := currency_of_members.1 hcode
  obtain rfl := granularity_of_members.1 hword
  unfold finish at hfinish
  simp only at hfinish
  split at hfinish
  · rename_i hletters
    obtain rfl := Checked.ok.inj hfinish
    exact ⟨hlength, rfl, hletters, rfl⟩
  · cases hfinish

/-- Settings that requests can rely on. -/
structure Usable (s : Settings) : Prop where
  threeLetters : s.reportingCurrency.length = 3
  letters : Text.isAlphabetic s.reportingCurrency = true
  upper : Text.upper s.reportingCurrency = s.reportingCurrency
  granularity : ∃ g, Granularity.parse s.defaultGranularity = .ok g
  /-- No request is refused for what it leaves to the settings. -/
  serves : ∀ part, s.Serves part

/-- The characters that trimming takes from a code. -/
def blanksAround (code : String) : Nat := code.length - (Text.trim code).length

/-- The characters that a trimmed code gains in upper case. -/
def lettersGained (code : String) : Nat := (Text.upper (Text.trim code)).length - (Text.trim code).length

/-- Accepted settings have a currency of letters in upper case, for which no request is refused; it has three of
them, less one for each blank around it and one more for each that upper case adds. The settings are usable
exactly if these make up for each other and the granularity can be read. -/
theorem accepted_usable_iff (h : ofEnvironment given = .ok s) :
    Text.isAlphabetic s.reportingCurrency = true ∧ Text.upper s.reportingCurrency = s.reportingCurrency ∧
    s.reportingCurrency.length + blanksAround (givenCurrency given) = 3 + lettersGained (givenCurrency given) ∧
    s.Serves "currency" ∧
    (s.Usable ↔ lettersGained (givenCurrency given) = blanksAround (givenCurrency given) ∧
      Granularity.Readable (givenGranularity given)) := by
  obtain ⟨hthree, hcode, hletters, hword⟩ := of_ofEnvironment h
  have htrim := Text.length_trim_le (givenCurrency given)
  have hgained := Text.length_le_length_upper (Text.trim (givenCurrency given))
  have hupper : Text.upper s.reportingCurrency = s.reportingCurrency := by rw [hcode, Text.upper_upper]
  have hcount : s.reportingCurrency.length + blanksAround (givenCurrency given) =
      3 + lettersGained (givenCurrency given) := by
    rw [hcode, blanksAround, lettersGained]
    omega
  have hsome : s.reportingCurrency ≠ "" := by
    intro hempty
    rw [hempty] at hletters
    exact absurd hletters (by decide)
  refine ⟨hletters, hupper, hcount, serves_currency hsome, ?_⟩
  refine ⟨fun husable => ⟨?_, ?_⟩, fun ⟨hfits, hread⟩ => ?_⟩
  · have hlength := husable.threeLetters
    omega
  · rw [← hword]
    exact Granularity.exists_parse_iff.1 husable.granularity
  · have hgranularity := Granularity.exists_parse_iff.2 (hword ▸ hread)
    exact ⟨by omega, hletters, hupper, hgranularity, (serves_iff hsome).2 hgranularity⟩

deriving instance DecidableEq for Checked

/-- Two letters behind a blank, the first of which has two letters in upper case, and six hours. -/
def sharpEnvironment : List (String × String) :=
  [("Reporting_Currency", " ßa"), ("DEFAULT_GRANULARITY", " 6H ")]

def sharpSettings : Settings := { standard with reportingCurrency := "SSA", defaultGranularity := " 6H " }

/-- The letter that upper case adds makes up for the blank. -/
theorem sharp_settings_usable : ofEnvironment sharpEnvironment = .ok sharpSettings ∧ sharpSettings.Usable := by
  have haccepted : ofEnvironment sharpEnvironment = .ok sharpSettings := by decide +kernel
  have hfits : lettersGained (givenCurrency sharpEnvironment) = blanksAround (givenCurrency sharpEnvironment) := by
    decide +kernel
  have hsix : Granularity.parse (givenGranularity sharpEnvironment) = .ok (.window 21600000) := by decide +kernel
  have hread : Granularity.Readable (givenGranularity sharpEnvironment) :=
    Granularity.exists_parse_iff.1 ⟨_, hsix⟩
  obtain ⟨-, -, -, -, husable⟩ := accepted_usable_iff haccepted
  exact ⟨haccepted, husable.2 ⟨hfits, hread⟩⟩

def shortSettings : Settings := { standard with reportingCurrency := "EU" }

def unreadableSettings : Settings := { standard with defaultGranularity := "bogus" }

/-- Two letters behind a blank are accepted as a currency, and a word that is no granularity as a granularity.
Requests are refused for the latter. -/
theorem unusable_settings_accepted :
    ofEnvironment [("REPORTING_CURRENCY", " eu")] = .ok shortSettings ∧ ¬ shortSettings.Usable ∧
    ofEnvironment [("DEFAULT_GRANULARITY", "bogus")] = .ok unreadableSettings ∧
    ¬ unreadableSettings.Serves "granularity" ∧ ¬ unreadableSettings.Usable := by
  have hrefused : Granularity.parse unreadableSettings.defaultGranularity =
      .error (.service (.invalidGranularity "bogus")) := by decide +kernel
  have hserves := not_serves_of_parse hrefused
  refine ⟨by decide +kernel, fun husable => ?_, by decide +kernel, hserves, fun husable => ?_⟩
  · exact absurd husable.threeLetters (by decide)
  · exact hserves (husable.serves "granularity")

end Settings

end NetWorth
