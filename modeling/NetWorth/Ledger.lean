import NetWorth.Asset
import NetWorth.Calendar.Wire
import NetWorth.Journal

/-! # The ledger

Connections to institutions, the accounts under them, each account's overrides, and the balances that
were observed. Observations are only ever added. Valuation sees a ledger through its reads, any of which
may fail. -/
namespace NetWorth

structure Connection where
  id : String
  name : String
  synchronizer : String
deriving DecidableEq, Repr

structure Account where
  id : String
  name : String
  connectionId : String
  tags : List String
  active : Bool
deriving DecidableEq, Repr

/-- How an account without a balance by the valuation date is valued. -/
inductive Backfill where
  | none
  | zero
  | carryEarliest
deriving DecidableEq, Repr

def Backfill.word : Backfill → String
  | .none => "none"
  | .zero => "zero"
  | .carryEarliest => "carry_earliest"

/-- Reads a policy; an unknown word is refused. -/
def Backfill.ofWord (word : String) : Except Failure Backfill :=
  if word = "none" then .ok .none
  else if word = "zero" then .ok .zero
  else if word = "carry_earliest" then .ok .carryEarliest
  else .error (.unknownWord word .backfillPolicy)

/-- What deviates from the defaults for one account. The policy is kept as it was written and is read
when the account is valued. -/
structure Overrides where
  backfill : String
  excluded : Bool
  /-- Microseconds until a balance is due for a refresh. -/
  staleness : Option Int
deriving DecidableEq, Repr

def Overrides.default : Overrides := ⟨"none", false, none⟩

/-- An amount of one asset. The amount is kept as it was supplied and is read when it is valued. -/
structure Balance where
  asset : AssetRecord
  amount : Json

structure BalanceSnapshot where
  timestamp : Timestamp
  balances : List Balance

/-- A snapshot whose timestamp counts as universal time unless it says otherwise. -/
def BalanceSnapshot.at (timestamp : Timestamp) (balances : List Balance) : BalanceSnapshot :=
  ⟨timestamp.assumeUtc, balances⟩

structure Ledger where
  connections : Keyed String Connection
  accounts : Keyed String Account
  overrides : Keyed String Overrides
  snapshots : Keyed String (List BalanceSnapshot)

/-- What valuation reads of accounts and balances. -/
structure LedgerReads where
  accounts : Except Failure (List Account)
  overrides : String → Except Failure (Option Overrides)
  connections : Except Failure (List Connection)
  snapshots : String → Except Failure (List BalanceSnapshot)

namespace Ledger

def empty : Ledger := ⟨[], [], [], []⟩

def putConnection (ledger : Ledger) (connection : Connection) : Ledger :=
  { ledger with connections := Keyed.put connection.id connection ledger.connections }

def putAccount (ledger : Ledger) (account : Account) : Ledger :=
  { ledger with accounts := Keyed.put account.id account ledger.accounts }

def putOverrides (ledger : Ledger) (accountId : String) (overrides : Overrides) : Ledger :=
  { ledger with overrides := Keyed.put accountId overrides ledger.overrides }

def clearOverrides (ledger : Ledger) (accountId : String) : Ledger :=
  { ledger with overrides := Keyed.erase accountId ledger.overrides }

def snapshotsOf (ledger : Ledger) (accountId : String) : List BalanceSnapshot :=
  (Keyed.get? accountId ledger.snapshots).getD []

def addSnapshot (ledger : Ledger) (accountId : String) (snapshot : BalanceSnapshot) : Ledger :=
  { ledger with
    snapshots := Keyed.put accountId (ledger.snapshotsOf accountId ++ [snapshot]) ledger.snapshots }

def recordSnapshot (ledger : Ledger) (accountId : String) (snapshot : BalanceSnapshot) :
    Journaled Ledger := do
  Journaled.note .debug .storage ("Recorded snapshot for account " ++ accountId ++ " at "
    ++ snapshot.timestamp.localText ++ " (" ++ toString snapshot.balances.length ++ " balances)")
  return ledger.addSnapshot accountId snapshot

def reads (ledger : Ledger) : LedgerReads where
  accounts := .ok (Keyed.values ledger.accounts)
  overrides := fun id => .ok (Keyed.get? id ledger.overrides)
  connections := .ok (Keyed.values ledger.connections)
  snapshots := fun id => .ok (ledger.snapshotsOf id)

theorem snapshotsOf_addSnapshot (ledger : Ledger) (id other : String) (snapshot : BalanceSnapshot) :
    (ledger.addSnapshot id snapshot).snapshotsOf other =
      if id = other then ledger.snapshotsOf id ++ [snapshot] else ledger.snapshotsOf other := by
  simp only [snapshotsOf, addSnapshot, Keyed.get?_put]
  split <;> simp

end Ledger

end NetWorth
