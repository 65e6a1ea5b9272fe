import ConflictBatching.Guard.Apply
import ConflictBatching.Queue.Basic

/-! # Accounts and transfers

An account holds a balance and the last transfer that touched it. A transfer moves an amount
between two accounts and stamps both with its id; balances wrap around. The stamp makes the
order of two transfers on one account visible.
-/
namespace ConflictBatching

structure Account where
  balance : Int64 := 0
  /-- The id of the last transfer on the account, or zero. -/
  lastTxn : UInt64 := 0
deriving DecidableEq, Inhabited

instance : Stored Account := ⟨16⟩

structure Transfer where
  id : UInt64
  source : Nat
  target : Nat
  amount : Int64
deriving DecidableEq, Inhabited

instance : Stored Transfer := ⟨32⟩

namespace Account

def debit (t : Transfer) (a : Account) : Account := ⟨a.balance - t.amount, t.id⟩

def credit (t : Transfer) (a : Account) : Account := ⟨a.balance + t.amount, t.id⟩

end Account

namespace Transfer

def accounts (t : Transfer) : List Nat := [t.source, t.target]

/-- Debits first, so a transfer within one account credits what it debited. -/
def applyTo {n : Nat} (t : Transfer) (table : Vector Account n) : Option (Vector Account n) :=
  if h : t.source < n ∧ t.target < n then
    let table := table.set t.source (table[t.source].debit t)
    some (table.set t.target (table[t.target].credit t))
  else none

instance : GuardedUpdate Transfer Account 2 where
  refs t := #v[t.source, t.target]
  update t r := #v[(r.get 0).debit t, (r.get 1).credit t]
  applyScalar := applyTo

end Transfer
end ConflictBatching
