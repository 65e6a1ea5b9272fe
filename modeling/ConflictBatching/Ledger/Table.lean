import ConflictBatching.Batch.Schedule
import ConflictBatching.Ledger.Account

/-! # Account tables

A table of accounts numbered from zero. Its bytes are those of its records in order, so two
tables are the same exactly when their bytes are.
-/
namespace ConflictBatching

structure AccountTable where
  accounts : Array Account
deriving DecidableEq

inductive LedgerError where
  /-- A transfer names an account that a table of `len` accounts does not have. -/
  | accountOutOfRange (transfer account len : Nat)
deriving DecidableEq

def LedgerError.message : LedgerError → String
  | accountOutOfRange transfer account len =>
    s!"transfer #{transfer} references account {account}, table has {len} accounts"

/-- The lowest bytes of a number, from the lowest up. -/
def littleEndian : (bytes : Nat) → Nat → List UInt8
  | 0, _ => []
  | bytes + 1, n => UInt8.ofNat n :: littleEndian bytes (n / 256)

def Account.bytes (a : Account) : List UInt8 :=
  littleEndian 8 a.balance.toUInt64.toNat ++ littleEndian 8 a.lastTxn.toNat

namespace AccountTable

def uniform (len : Nat) (initialBalance : Int64) : AccountTable :=
  ⟨Array.replicate len { balance := initialBalance }⟩

/-- The same, if there is room for the table. -/
def uniform? (len : Nat) (initialBalance : Int64) : Option AccountTable :=
  if hasRoom Account len then some (uniform len initialBalance) else none

def ofBalances (balances : List Int64) : AccountTable :=
  ⟨(balances.map fun b => { balance := b : Account }).toArray⟩

def size (t : AccountTable) : Nat := t.accounts.size

def isEmpty (t : AccountTable) : Bool := t.accounts.isEmpty

def balances (t : AccountTable) : List Int64 := t.accounts.toList.map (·.balance)

def bytes (t : AccountTable) : List UInt8 := t.accounts.toList.flatMap Account.bytes

/-- Checks transfers counted from `i` against a table of `len` accounts. -/
def checkFrom (len i : Nat) : List Transfer → Except LedgerError Unit
  | [] => .ok ()
  | t :: ts =>
    match t.accounts.find? (len ≤ ·) with
    | some account => .error (.accountOutOfRange i account len)
    | none => checkFrom len (i + 1) ts

/-- The first transfer that names a missing account is the error. -/
def validate (t : AccountTable) (transfers : List Transfer) : Except LedgerError Unit :=
  checkFrom t.size 0 transfers

/-- One transfer at a time, in order. Nothing if one names a missing account. -/
def applySequential (t : AccountTable) (transfers : List Transfer) : Option AccountTable :=
  (ConflictBatching.applySequential t.accounts transfers).map (⟨·⟩)

def applyGuarded (t : AccountTable) (transfers : List Transfer) :
    Option (GuardStats × AccountTable) :=
  (ConflictBatching.applyGuarded standardWidth t.accounts transfers).map fun r => (r.1, ⟨r.2⟩)

end AccountTable
end ConflictBatching
