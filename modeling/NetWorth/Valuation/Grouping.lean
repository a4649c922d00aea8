import NetWorth.Journal
import NetWorth.Text.Blank
import NetWorth.Text.CaseMap

/-! # Grouping

Which breakdowns a valuation carries. A word that names none means both. -/
namespace NetWorth

inductive Grouping where
  | asset
  | account
  | both
deriving DecidableEq, Repr

namespace Grouping

def word : Grouping → String
  | .asset => "asset"
  | .account => "account"
  | .both => "both"

def includesAssets : Grouping → Bool
  | .account => false
  | _ => true

def includesAccounts : Grouping → Bool
  | .asset => false
  | _ => true

def ofWord? (word : String) : Option Grouping :=
  if word = "asset" then some .asset
  else if word = "account" then some .account
  else if word = "both" then some .both
  else none

/-- Reads a grouping without regard to case and surrounding blanks; absent or unknown means both. -/
def read : Option String → Journaled Grouping
  | none => return .both
  | some value =>
    match ofWord? (Text.lower (Text.trim value)) with
    | some grouping => return grouping
    | none => do
      Journaled.note .debug .grouping ("Unknown grouping '" ++ value ++ "', using 'both'")
      return .both

end Grouping

end NetWorth
