import Mathlib.Algebra.BigOperators.Group.List.Basic
import Mathlib.Data.Int.ModEq
import ConflictBatching.Proofs.Ledger.Scheduled

/-! # What transfers leave of an account

An account is credited and debited the exact sums of the amounts, wrapped once at the end, and keeps
the id of the last transfer on it. A transfer takes from one account what it gives to another or to the
same, so up to wrapping the balances of a table always have the same sum.
-/
namespace ConflictBatching

theorem ofInt_toInt_ofInt_add (x y : Int) :
    Int64.ofInt ((Int64.ofInt x).toInt + y) = Int64.ofInt (x + y) := by
  rw [Int64.ofInt_add, Int64.ofInt_toInt, Int64.ofInt_add]

namespace Transfer

def debits (account : Nat) (ts : List Transfer) : Int :=
  ((ts.filter (·.source = account)).map (·.amount.toInt)).sum

def credits (account : Nat) (ts : List Transfer) : Int :=
  ((ts.filter (·.target = account)).map (·.amount.toInt)).sum

theorem debits_cons (account : Nat) (t : Transfer) (ts : List Transfer) :
    debits account (t :: ts) =
      (if t.source = account then t.amount.toInt else 0) + debits account ts := by
  by_cases h : t.source = account <;> simp [debits, h]

theorem credits_cons (account : Nat) (t : Transfer) (ts : List Transfer) :
    credits account (t :: ts) =
      (if t.target = account then t.amount.toInt else 0) + credits account ts := by
  by_cases h : t.target = account <;> simp [credits, h]

/-- An account after the transfers: its balance in one sum, and the last id on it. -/
def settled (account : Nat) (ts : List Transfer) (a : Account) : Account where
  balance := .ofInt (a.balance.toInt - debits account ts + credits account ts)
  lastTxn := ((ts.filter (·.touches account)).getLast?.map (·.id)).getD a.lastTxn

theorem effect_balance (account : Nat) (t : Transfer) (a : Account) :
    (t.effect account a).balance = .ofInt (a.balance.toInt -
      (if t.source = account then t.amount.toInt else 0) +
      (if t.target = account then t.amount.toInt else 0)) := by
  by_cases hs : t.source = account <;> by_cases ht : t.target = account <;>
    simp [effect, hs, ht, Account.debit, Account.credit, Int64.ofInt_add, Int64.ofInt_sub]

theorem effect_lastTxn (account : Nat) (t : Transfer) (a : Account) :
    (t.effect account a).lastTxn = if t.touches account then t.id else a.lastTxn := by
  by_cases hs : t.source = account <;> by_cases ht : t.target = account <;>
    simp [effect, touches, hs, ht, Account.debit, Account.credit]

theorem foldl_effect_eq_settled (account : Nat) (ts : List Transfer) (a : Account) :
    ts.foldl (fun a t => t.effect account a) a = settled account ts a := by
  induction ts generalizing a with
  | nil => simp [settled, debits, credits]
  | cons t ts ih =>
    rw [List.foldl_cons, ih, settled, settled, effect_balance, effect_lastTxn, debits_cons,
      credits_cons]
    congr 1
    -- To wrap once at the end is to wrap after every transfer.
    · rw [Int.sub_eq_add_neg, Int.add_assoc, ofInt_toInt_ofInt_add]
      congr 1
      omega
    · by_cases h : t.touches account <;> simp [h, List.getLast?_cons]

theorem settled_of_not_touches {account : Nat} {ts : List Transfer}
    (h : ∀ t ∈ ts, ¬t.touches account) (a : Account) : settled account ts a = a := by
  rw [← foldl_effect_eq_settled, foldl_effect_filter, List.filter_eq_nil_iff.mpr (by simpa using h),
    List.foldl_nil]

end Transfer

/-- The sum of the balances, which itself does not wrap. -/
def balanceSum (accounts : List Account) : Int := (accounts.map (·.balance.toInt)).sum

theorem balanceSum_set {accounts : List Account} {i : Nat} {old new : Account}
    (hold : accounts[i]? = some old) {change : Int}
    (hnew : new.balance.toInt ≡ old.balance.toInt + change [ZMOD 2 ^ 64]) :
    balanceSum (accounts.set i new) ≡ balanceSum accounts + change [ZMOD 2 ^ 64] := by
  obtain ⟨hi, rfl⟩ := List.getElem?_eq_some_iff.mp hold
  have hset : balanceSum (accounts.set i new) =
      balanceSum accounts - accounts[i].balance.toInt + new.balance.toInt := by
    rw [balanceSum, List.map_set, List.sum_set', dif_pos (by simpa using hi), List.getElem_map,
      ← Int.add_assoc]
    rfl
  have hsum := hnew.add_left (balanceSum accounts - accounts[i].balance.toInt)
  rwa [← hset, ← Int.add_assoc, Int.sub_add_cancel] at hsum

namespace Transfer

/-- A transfer sets two accounts, and the second as it is after the first. -/
theorem runDirect_toList {t : Transfer} {table table' : Array Account}
    (h : runDirect t table = some table') : ∃ source target,
      table.toList[t.source]? = some source ∧
      (table.toList.set t.source (source.debit t))[t.target]? = some target ∧
      table'.toList = (table.toList.set t.source (source.debit t)).set t.target
        (target.credit t) := by
  obtain ⟨v, hrun, rfl⟩ := Option.map_eq_some_iff.mp h
  change t.applyTo table.toVector = some v at hrun
  rw [applyTo] at hrun
  split at hrun
  · next hwithin =>
    cases hrun
    have htarget : t.target < (table.toList.set t.source (table[t.source].debit t)).length := by
      simpa using hwithin.2
    exact ⟨table[t.source], _, by simp, List.getElem?_eq_getElem htarget, rfl⟩
  · cases hrun

theorem runDirect_balanceSum {t : Transfer} {table table' : Array Account}
    (h : runDirect t table = some table') :
    balanceSum table'.toList ≡ balanceSum table.toList [ZMOD 2 ^ 64] := by
  obtain ⟨source, target, hsource, htarget, htable'⟩ := runDirect_toList h
  have hdebit : (source.debit t).balance.toInt ≡ source.balance.toInt + -t.amount.toInt
      [ZMOD 2 ^ 64] := by
    rw [Account.debit, Int64.toInt_sub]
    exact Int.bmod_emod
  have hcredit : (target.credit t).balance.toInt ≡ target.balance.toInt + t.amount.toInt
      [ZMOD 2 ^ 64] := by
    rw [Account.credit, Int64.toInt_add]
    exact Int.bmod_emod
  -- Where source and target are one account, the credit starts from what the debit left.
  have hsum := (balanceSum_set htarget hcredit).trans
    ((balanceSum_set hsource hdebit).add_right t.amount.toInt)
  rwa [← htable', Int.neg_add_cancel_right] at hsum

end Transfer

theorem applySequential_balanceSum {ts : List Transfer} {table table' : Array Account}
    (h : applySequential table ts = some table') :
    balanceSum table'.toList ≡ balanceSum table.toList [ZMOD 2 ^ 64] := by
  induction ts generalizing table with
  | nil => cases h; rfl
  | cons t ts ih =>
    rw [applySequential, List.foldlM_cons] at h
    obtain ⟨next, hrun, hrest⟩ := Option.bind_eq_some_iff.mp h
    exact (ih hrest).trans (Transfer.runDirect_balanceSum hrun)

/-- However transfers within the table are applied, every account is left as its own transfers settle
it, those that no transfer names as they were, and the balances have the sum that they had, as words
of 64 bits. -/
theorem AccountTable.transfers_settle_accounts (t : AccountTable) (transfers : List Transfer)
    (h : ∀ x ∈ transfers, x.source < t.size ∧ x.target < t.size) :
    ∃ table : AccountTable, t.applySequential transfers = some table ∧
      (∃ guard, t.applyGuarded transfers = some (guard, table)) ∧
      (∀ policy, ∃ outcome, t.applyScheduled transfers policy = some outcome ∧
        outcome.table = table) ∧
      (∀ account, table.accounts[account]? =
        t.accounts[account]?.map (Transfer.settled account transfers)) ∧
      balanceSum table.accounts.toList ≡ balanceSum t.accounts.toList [ZMOD 2 ^ 64] ∧
      ∀ account, (∀ x ∈ transfers, ¬x.touches account) →
        table.accounts[account]? = t.accounts[account]? := by
  obtain ⟨table, hsequential, hguarded, hscheduled⟩ := exists_common_table h
  obtain ⟨accounts, hrun, rfl⟩ := Option.map_eq_some_iff.mp hsequential
  obtain ⟨accounts', hrun', hsettled⟩ := applySequential_of_within h
  cases hrun.symm.trans hrun'
  simp only [Transfer.foldl_effect_eq_settled] at hsettled
  refine ⟨⟨accounts⟩, hsequential, hguarded, hscheduled, hsettled,
    applySequential_balanceSum hrun, ?_⟩
  intro account hkeep
  simp [hsettled, Transfer.settled_of_not_touches hkeep]

/-- A transfer within one account, and one whose credit wraps. No transfer names the last account. -/
theorem AccountTable.transfers_settle_wrapping_account :
    let t : AccountTable := .ofBalances [9223372036854775807, 0, 5]
    let transfers : List Transfer := [⟨1, 0, 0, 7⟩, ⟨2, 1, 0, 10⟩]
    let table : AccountTable := ⟨#[⟨-9223372036854775799, 2⟩, ⟨-10, 2⟩, ⟨5, 0⟩]⟩
    (∀ x ∈ transfers, x.source < t.size ∧ x.target < t.size) ∧
      t.applySequential transfers = some table ∧
      (∃ guard, t.applyGuarded transfers = some (guard, table)) ∧
      (∀ policy, ∃ outcome, t.applyScheduled transfers policy = some outcome ∧
        outcome.table = table) ∧
      (∀ account, table.accounts[account]? =
        t.accounts[account]?.map (Transfer.settled account transfers)) ∧
      balanceSum table.accounts.toList ≡ balanceSum t.accounts.toList [ZMOD 2 ^ 64] ∧
      (∀ x ∈ transfers, ¬x.touches 2) ∧ table.accounts[2]? = t.accounts[2]? := by
  intro t transfers table
  have h : ∀ x ∈ transfers, x.source < t.size ∧ x.target < t.size := by decide
  have hkeep : ∀ x ∈ transfers, ¬x.touches 2 := by decide
  have hrun : t.applySequential transfers = some table := by decide +kernel
  obtain ⟨table', hsequential, hguarded, hscheduled, hsettled, hsum, hkept⟩ :=
    t.transfers_settle_accounts transfers h
  cases hsequential.symm.trans hrun
  exact ⟨h, hrun, hguarded, hscheduled, hsettled, hsum, hkeep, hkept 2 hkeep⟩

end ConflictBatching
