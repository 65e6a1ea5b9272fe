import ConflictBatching.Proofs.Ledger.Scheduled
import ConflictBatching.Proofs.Measure.Schedule

/-! # The measurement of accounts runs to its report

The generated transfers name accounts of the table only, so whichever way they are applied they run
and leave one table. Of all errors only the missing accounts can happen.
-/
namespace ConflictBatching

namespace AccountsParams
theorem size_table (p : AccountsParams) : p.table.size = p.accounts.toNat := Array.size_replicate

theorem accounts_pos {p : AccountsParams} (h : p.accounts ≠ 0) : 0 < p.accounts.toNat := by
  apply Nat.pos_of_ne_zero
  intro hzero
  exact h (UInt64.toNat_inj.mp hzero)

theorem generate_within (p : AccountsParams) : ∀ t ∈ p.generate, t.within p.table.size := by
  rw [size_table]
  exact randomTransfers_within _ _ _ _

/-- The ids are counted, and no count reaches the end of the words. -/
theorem generate_ids {p : AccountsParams} (h : p.accounts ≠ 0) :
    p.generate.map (·.id.toNat) = List.range' 1 p.transfers.toNat := by
  have hids := congrArg (List.map UInt64.toNat)
    (randomTransfers_ids p.transfers.toNat (accounts_pos h) p.maxAmount p.seed)
  rw [List.map_map, List.map_map] at hids
  refine hids.trans ((List.map_congr_left ?_).trans (List.map_id _))
  intro id hid
  have hbound := p.transfers.toNat_lt_size
  rw [List.mem_range'_1] at hid
  exact UInt64.toNat_ofNat_of_lt' (by omega)

theorem validate_generate (p : AccountsParams) : p.table.validate p.generate = .ok () :=
  AccountTable.validate_eq_ok_iff.mpr p.generate_within

theorem generate_leaves_one_table (p : AccountsParams) :
    ∃ table guard outcome, p.table.applySequential p.generate = some table ∧
      p.table.applyGuarded p.generate = some (guard, table) ∧
      p.table.applyScheduled p.generate p.flush = some outcome ∧ outcome.table = table ∧
      outcome.order.Perm (List.range p.generate.length) ∧ guard.scalarOps ≤ guard.rounds := by
  obtain ⟨table, hsequential, ⟨guard, hguarded⟩, hscheduled⟩ :=
    AccountTable.exists_common_table p.generate_within
  obtain ⟨outcome, houtcome, htable⟩ := hscheduled p.flush
  obtain ⟨outcome', a, houtcome', -, horder, hsound, hheld⟩ :=
    AccountTable.applyScheduled_of_within p.generate_within p.flush
  cases houtcome.symm.trans houtcome'
  refine ⟨table, guard, outcome, hsequential, hguarded, houtcome, htable, ?_, ?_⟩
  · rw [horder]
    exact hsound.applied_perm hheld
  · obtain ⟨⟨guard', accounts⟩, hrun, hresult⟩ := Option.map_eq_some_iff.mp hguarded
    cases hresult
    exact applyRounds_scalarOps_le (Nat.le_refl 0) hrun

theorem compare_common (p : AccountsParams) {table : AccountTable} {outcome : ScheduledOutcome}
    (h : outcome.table = table) (guard : GuardStats) (sequential guarded scheduled : Duration) :
    p.compare (some table, sequential) (some (guard, table), guarded) (some outcome, scheduled) =
      .ok (p.report guard outcome sequential guarded scheduled) := by
  simp [compare, h]

end AccountsParams

theorem measureAccounts_eq {m : Type → Type} [Monad m] [LawfulMonad m] {watch : Stopwatch m}
    (hwatch : watch.Transparent) {p : AccountsParams} (haccounts : p.accounts ≠ 0) :
    measureAccounts watch p = do
      let sequential ← watch.elapsed
      let guarded ← watch.elapsed
      let scheduled ← watch.elapsed
      return p.compare (p.table.applySequential p.generate, sequential)
        (p.table.applyGuarded p.generate, guarded)
        (p.table.applyScheduled p.generate p.flush, scheduled) := by
  have hsequential := hwatch fun _ => p.table.applySequential p.generate
  have hguarded := hwatch fun _ => p.table.applyGuarded p.generate
  have hscheduled := hwatch fun _ => p.table.applyScheduled p.generate p.flush
  simp only [measureAccounts, if_neg haccounts, p.validate_generate, hsequential, hguarded,
    hscheduled, bind_map_left]

theorem measureAccounts_of_no_accounts {m : Type → Type} [Monad m] (watch : Stopwatch m)
    {p : AccountsParams} (haccounts : p.accounts = 0) :
    measureAccounts watch p = pure (.error .noAccounts) :=
  if_pos haccounts

/-- The measurement is an error exactly when there are no accounts. With accounts the transfers have the
ids from one and pass the check, no way of applying them meets a missing account, the tables agree, and
the report of the three times follows. -/
theorem accounts_fail_only_without_accounts (p : AccountsParams) :
    ((∃ cause, measureAccounts .stopped p = .error cause) ↔ p.accounts = 0) ∧
    wallClock.Transparent ∧
    ∀ {m : Type → Type} [Monad m] [LawfulMonad m] (watch : Stopwatch m), watch.Transparent →
      (p.accounts = 0 → measureAccounts watch p = pure (.error .noAccounts)) ∧
      (p.accounts ≠ 0 →
        p.generate.map (·.id.toNat) = List.range' 1 p.transfers.toNat ∧
        p.table.validate p.generate = .ok () ∧
        ∃ table guard outcome, p.table.applySequential p.generate = some table ∧
          p.table.applyGuarded p.generate = some (guard, table) ∧
          p.table.applyScheduled p.generate p.flush = some outcome ∧ outcome.table = table ∧
          outcome.order.Perm (List.range p.generate.length) ∧ guard.scalarOps ≤ guard.rounds ∧
          measureAccounts watch p = do
            let sequential ← watch.elapsed
            let guarded ← watch.elapsed
            let scheduled ← watch.elapsed
            return .ok (p.report guard outcome sequential guarded scheduled)) := by
  obtain ⟨table, guard, outcome, hsequential, hguarded, hscheduled, htable, hall, hcounts⟩ :=
    p.generate_leaves_one_table
  have hreports : ∀ {m : Type → Type} [Monad m] [LawfulMonad m] (watch : Stopwatch m),
      watch.Transparent → p.accounts ≠ 0 → measureAccounts watch p = do
        let sequential ← watch.elapsed
        let guarded ← watch.elapsed
        let scheduled ← watch.elapsed
        return .ok (p.report guard outcome sequential guarded scheduled) := by
    intro m _ _ watch hwatch haccounts
    simp only [measureAccounts_eq hwatch haccounts, hsequential, hguarded, hscheduled,
      p.compare_common htable]
  refine ⟨⟨?_, ?_⟩, Stopwatch.transparent_wallClock, ?_⟩
  · rintro ⟨cause, herror⟩
    by_contra haccounts
    rw [hreports .stopped Stopwatch.transparent_stopped haccounts] at herror
    cases herror
  · intro haccounts
    exact ⟨.noAccounts, measureAccounts_of_no_accounts .stopped haccounts⟩
  · intro m _ _ watch hwatch
    refine ⟨measureAccounts_of_no_accounts watch, ?_⟩
    intro haccounts
    exact ⟨AccountsParams.generate_ids haccounts, p.validate_generate, table, guard, outcome, hsequential,
      hguarded, hscheduled, htable, hall, hcounts, hreports watch hwatch haccounts⟩

/-- Three transfers between two accounts, of no amount since the largest one is negative. -/
theorem accounts_report_for_negative_amount :
    let p : AccountsParams := ⟨2, 3, 7, 100, -4, ⟨0, 4⟩⟩
    Stopwatch.stopped.Transparent ∧ p.accounts ≠ 0 ∧
      p.generate.map (·.id.toNat) = [1, 2, 3] ∧ p.table.validate p.generate = .ok () ∧
      (∃ guard outcome, guard.scalarOps ≤ guard.rounds ∧
        measureAccounts .stopped p = .ok (p.report guard outcome ⟨0⟩ ⟨0⟩ ⟨0⟩)) ∧
      measureAccounts .stopped { p with accounts := 0 } = .error .noAccounts := by
  intro p
  have haccounts : p.accounts ≠ 0 := by decide
  obtain ⟨-, -, hmeasured⟩ := accounts_fail_only_without_accounts p
  obtain ⟨hids, hvalid, table, guard, outcome, -, -, -, -, -, hcounts, hreport⟩ :=
    (hmeasured .stopped Stopwatch.transparent_stopped).2 haccounts
  obtain ⟨-, -, hmeasured'⟩ := accounts_fail_only_without_accounts { p with accounts := 0 }
  exact ⟨Stopwatch.transparent_stopped, haccounts, hids, hvalid, ⟨guard, outcome, hcounts, hreport⟩,
    (hmeasured' .stopped Stopwatch.transparent_stopped).1 rfl⟩

end ConflictBatching
