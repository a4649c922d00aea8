import NetWorth.Text.Blank
import NetWorth.Text.CaseMap

/-! # Currency codes

A code counts without surrounding blanks and in upper case. The numeric code of the US dollar, which
some institutions report, is the same currency as its letters. -/
namespace NetWorth.Currency

def normalChars (code : List Char) : List Char :=
  let trimmed := Text.trimChars code
  if trimmed = ['8', '4', '0'] then ['U', 'S', 'D'] else Text.upperChars trimmed

/-- The code that stands for all spellings of a currency. -/
def normalize (code : String) : String := String.ofList (normalChars code.toList)

def same (a b : String) : Bool := normalize a = normalize b

/-- How codes are kept in the rate store, where numeric codes stay as they are. -/
def storeKey (code : String) : String := Text.upper (Text.trim code)

theorem same_refl (a : String) : same a a = true := by simp [same]

end NetWorth.Currency
