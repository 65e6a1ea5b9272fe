import ConflictBatching.Proofs.Ledger.Failure
import ConflictBatching.Proofs.Ledger.ReleaseTime

/-! # The check before the transfers

The check passes exactly when transfers can be applied one at a time or scheduled. What it reports is
the transfer at which one after the other would stop, and the account of that transfer which is missing.
Once it has passed, no pass of a scheduled run looks for a transfer, a line or a record that is not
there.
-/
namespace ConflictBatching

namespace Transfer

theorem find?_accounts_eq_some_iff {len account : Nat} {t : Transfer} :
    t.accounts.find? (len ≤ ·) = some account ↔
      ¬t.within len ∧ account = if len ≤ t.source then t.source else t.target := by
  by_cases hsource : len ≤ t.source
  · have hout : ¬t.within len := fun h => Nat.not_lt_of_le hsource h.1
    simp [accounts, hsource, hout, eq_comm]
  · by_cases htarget : len ≤ t.target
    · have hout : ¬t.within len := fun h => Nat.not_lt_of_le htarget h.2
      simp [accounts, hsource, htarget, hout, eq_comm]
    · have hin : t.within len := ⟨Nat.lt_of_not_le hsource, Nat.lt_of_not_le htarget⟩
      simp [accounts, hsource, htarget, hin]

end Transfer

/-- Transfers that run one at a time are all within the table. -/
theorem within_of_applySequential {ts : List Transfer} {table table' : Array Account}
    (h : applySequential table ts = some table') : ∀ t ∈ ts, t.within table.size := by
  induction ts generalizing table with
  | nil => simp
  | cons t ts ih =>
    rw [applySequential, List.foldlM_cons] at h
    obtain ⟨next, hrun, hrest⟩ := Option.bind_eq_some_iff.mp h
    have ht : t.within table.size := by
      by_contra hout
      rw [Transfer.runDirect_eq_none_iff.mpr hout] at hrun
      cases hrun
    have hts := ih hrest
    rw [size_of_runDirect hrun] at hts
    exact List.forall_mem_cons.mpr ⟨ht, hts⟩

namespace ArrivalOrder

theorem size_leave (o : ArrivalOrder) (t : Transfer) : (o.leave t).lines.size = o.lines.size := by
  rw [leave]
  split <;> simp

/-- A pass takes transfers out of lines and no line away. -/
theorem size_release (transfers : Array Transfer) (o : ArrivalOrder) (candidates : List Nat) :
    (release transfers o candidates).order.lines.size = o.lines.size := by
  induction candidates generalizing o with
  | nil => rfl
  | cons i rest ih =>
    rw [release]
    split
    · next o' hrun =>
      obtain ⟨t, -, hadvance⟩ := Option.bind_eq_some_iff.mp hrun
      rw [advance?] at hadvance
      split at hadvance
      · cases hadvance
        exact (ih (o.leave t)).trans (size_leave o t)
      · cases hadvance
    · exact ih o

end ArrivalOrder

namespace Application
variable {transfers : List Transfer} {a a' : Application}

/-- The pass over the held transfers and those delivered finds each of them, the lines of both its
accounts and their records. -/
def FindsAll (transfers : List Transfer) (tokens : List Nat) (a : Application) : Prop :=
  ∀ i ∈ a.held ++ tokens, ∃ x, transfers[i]? = some x ∧ x.within a.arrival.lines.size ∧
    x.within a.accounts.size

theorem size_of_foldlM_receive {κ : Type} {batches : List (Batch κ Nat)}
    (h : batches.foldlM (fun a b => receive transfers.toArray b.kind b.tokens a) a = some a') :
    a'.arrival.lines.size = a.arrival.lines.size := by
  induction batches generalizing a with
  | nil => cases h; rfl
  | cons b bs ih =>
    rw [List.foldlM_cons] at h
    obtain ⟨next, hrun, hrest⟩ := Option.bind_eq_some_iff.mp h
    obtain ⟨-, -, harrival, -⟩ := receive_eq_some hrun
    rw [ih hrest, harrival]
    exact ArrivalOrder.size_release ..

end Application

namespace AccountTable

theorem applySequential_size {t t' : AccountTable} {transfers : List Transfer}
    (h : t.applySequential transfers = some t') : t'.size = t.size := by
  obtain ⟨accounts, hrun, rfl⟩ := Option.map_eq_some_iff.mp h
  exact size_of_applySequential hrun

theorem applySequential_isSome_iff {t : AccountTable} {transfers : List Transfer} :
    (t.applySequential transfers).isSome = true ↔ ∀ x ∈ transfers, x.within t.size := by
  rw [applySequential, Option.isSome_map]
  constructor
  · intro h
    obtain ⟨accounts, hrun⟩ := Option.isSome_iff_exists.mp h
    exact within_of_applySequential hrun
  · intro h
    obtain ⟨accounts, hrun, -⟩ := applySequential_of_within h
    rw [hrun, Option.isSome_some]

theorem applyScheduled_isSome_iff {t : AccountTable} {transfers : List Transfer}
    {policy : FlushPolicy} :
    (t.applyScheduled transfers policy).isSome = true ↔ ∀ x ∈ transfers, x.within t.size := by
  constructor
  · intro h
    obtain ⟨outcome, hrun⟩ := Option.isSome_iff_exists.mp h
    obtain ⟨arrival, hstart, -⟩ := Option.bind_eq_some_iff.mp hrun
    exact (ArrivalOrder.start?_eq_some hstart).1
  · intro h
    obtain ⟨outcome, -, hrun, -⟩ := applyScheduled_of_within h policy
    rw [hrun, Option.isSome_some]

/-- The check stops at the first transfer with a missing account. -/
theorem checkFrom_eq_error_iff {len i transfer account len' : Nat} {ts : List Transfer} :
    checkFrom len i ts = .error (.accountOutOfRange transfer account len') ↔
      len' = len ∧ ∃ k x, transfer = i + k ∧ ts[k]? = some x ∧ (∀ y ∈ ts.take k, y.within len) ∧
        ¬x.within len ∧ account = if len ≤ x.source then x.source else x.target := by
  induction ts generalizing i with
  | nil => simp [checkFrom]
  | cons t ts ih =>
    rw [checkFrom]
    cases hfind : t.accounts.find? (len ≤ ·) with
    | none =>
      have hin : t.within len := by
        rw [Transfer.within_iff_accounts]
        simpa using hfind
      rw [ih]
      refine and_congr_right fun _ => ?_
      constructor
      · rintro ⟨k, x, rfl, hx, hbefore, hout, haccount⟩
        refine ⟨k + 1, x, by omega, hx, ?_, hout, haccount⟩
        exact List.forall_mem_cons.mpr ⟨hin, hbefore⟩
      · rintro ⟨k, x, rfl, hx, hbefore, hout, haccount⟩
        cases k with
        | zero =>
          cases hx
          exact absurd hin hout
        | succ k => exact ⟨k, x, by omega, hx, (List.forall_mem_cons.mp hbefore).2, hout, haccount⟩
    | some missing =>
      obtain ⟨hout, hmissing⟩ := Transfer.find?_accounts_eq_some_iff.mp hfind
      constructor
      · intro herror
        cases herror
        exact ⟨rfl, 0, t, rfl, rfl, by simp, hout, hmissing⟩
      · rintro ⟨rfl, k, x, rfl, hx, hbefore, -, rfl⟩
        cases k with
        | zero =>
          cases hx
          rw [hmissing]
          rfl
        | succ k => exact absurd (List.forall_mem_cons.mp hbefore).1 hout

/-- The error is the transfer at which one after the other stops, and its missing account. -/
theorem validate_eq_error_iff {t : AccountTable} {transfers : List Transfer}
    {transfer account len : Nat} :
    t.validate transfers = .error (.accountOutOfRange transfer account len) ↔
      len = t.size ∧ ∃ x reached, transfers[transfer]? = some x ∧
        t.applySequential (transfers.take transfer) = some reached ∧
        runDirect x reached.accounts = none ∧
        account = if t.size ≤ x.source then x.source else x.target := by
  rw [validate, checkFrom_eq_error_iff]
  refine and_congr_right fun _ => ?_
  constructor
  · rintro ⟨k, x, rfl, hx, hbefore, hout, haccount⟩
    rw [Nat.zero_add]
    obtain ⟨reached, hreached⟩ :=
      Option.isSome_iff_exists.mp (applySequential_isSome_iff.mpr hbefore)
    refine ⟨x, reached, hx, hreached, ?_, haccount⟩
    rwa [Transfer.runDirect_eq_none_iff, ← size, applySequential_size hreached]
  · rintro ⟨x, reached, hx, hreached, hstops, haccount⟩
    rw [Transfer.runDirect_eq_none_iff, ← size, applySequential_size hreached] at hstops
    have hbefore := applySequential_isSome_iff.mp (Option.isSome_of_eq_some hreached)
    exact ⟨transfer, x, (Nat.zero_add _).symm, hx, hbefore, hstops, haccount⟩

/-- Before every batch and before the last pass all that the pass looks for is there. -/
theorem applicationAt_findsAll {t : AccountTable} {transfers : List Transfer}
    (h : ∀ x ∈ transfers, x.within t.size) (policy : FlushPolicy) {k : Nat}
    (hk : k ≤ (scheduledBatches transfers policy).length) :
    ∃ a, t.applicationAt transfers policy k = some a ∧
      a.FindsAll transfers ((scheduledBatches transfers policy)[k]?.elim [] Batch.tokens) := by
  obtain ⟨a, hat, hsound, -⟩ := applicationAt_spec h policy hk
  refine ⟨a, hat, ?_⟩
  obtain ⟨arrival, hstart, hfold⟩ := Option.bind_eq_some_iff.mp hat
  have hlines : a.arrival.lines.size = t.size :=
    (Application.size_of_foldlM_receive hfold).trans (ArrivalOrder.start?_eq_some hstart).2.1
  have haccounts : a.accounts.size = t.size := size_of_applySequential hsound.ran
  intro i hi
  have hlt : i < transfers.length := by
    rcases List.mem_append.mp hi with hheld | hdelivered
    · exact lt_of_mem_deliveredBefore ((hsound.mem_delivered_iff i).mpr (Or.inr hheld))
    · cases hb : (scheduledBatches transfers policy)[k]? with
      | none => simp [hb] at hdelivered
      | some b =>
        have hnext : i ∈ deliveredBefore transfers policy (k + 1) := by
          rw [hb, Option.elim_some] at hdelivered
          rw [deliveredBefore_succ hb]
          exact List.mem_append_right _ hdelivered
        exact lt_of_mem_deliveredBefore hnext
  refine ⟨transfers[i], List.getElem?_eq_getElem hlt, ?_, ?_⟩
  · rw [hlines]
    exact h _ (List.getElem_mem hlt)
  · rw [haccounts]
    exact h _ (List.getElem_mem hlt)

/-- The check passes exactly when one after the other runs, exactly when the scheduled run does under
any policy, and then guarded rounds run too and no pass of the scheduled run misses what it looks for.
Its error is the first transfer at which one after the other stops, with the source if that is missing
and else the target. -/
theorem validation_marks_first_failure (t : AccountTable) (transfers : List Transfer) :
    (t.validate transfers = .ok () ↔ (t.applySequential transfers).isSome = true) ∧
    (∀ policy,
      t.validate transfers = .ok () ↔ (t.applyScheduled transfers policy).isSome = true) ∧
    (t.validate transfers = .ok () →
      (t.applyGuarded transfers).isSome = true ∧
      ∀ policy k, k ≤ (scheduledBatches transfers policy).length →
        ∃ a, t.applicationAt transfers policy k = some a ∧
          a.FindsAll transfers ((scheduledBatches transfers policy)[k]?.elim [] Batch.tokens)) ∧
    ∀ transfer account len,
      t.validate transfers = .error (.accountOutOfRange transfer account len) ↔
        len = t.size ∧ ∃ x reached, transfers[transfer]? = some x ∧
          t.applySequential (transfers.take transfer) = some reached ∧
          runDirect x reached.accounts = none ∧
          account = if t.size ≤ x.source then x.source else x.target := by
  refine ⟨?_, ?_, ?_, ?_⟩
  · rw [validate_eq_ok_iff, applySequential_isSome_iff]
  · intro policy
    rw [validate_eq_ok_iff, applyScheduled_isSome_iff]
  · intro hvalid
    have h := validate_eq_ok_iff.mp hvalid
    obtain ⟨table, -, ⟨guard, hguarded⟩, -⟩ := exists_common_table h
    refine ⟨Option.isSome_of_eq_some hguarded, ?_⟩
    intro policy k hk
    exact applicationAt_findsAll h policy hk
  · intro transfer account len
    exact validate_eq_error_iff

/-- Three accounts: the target of the second transfer is missing and so is the source of the third. -/
theorem validation_marks_second_transfer :
    let t : AccountTable := .uniform 3 100
    let transfers : List Transfer := [⟨1, 0, 1, 5⟩, ⟨2, 1, 4, 3⟩, ⟨3, 7, 0, 1⟩]
    t.validate transfers = .error (.accountOutOfRange 1 4 3) ∧
      (∃ reached, t.applySequential (transfers.take 1) = some reached ∧
        runDirect (⟨2, 1, 4, 3⟩ : Transfer) reached.accounts = none) ∧
      ¬(t.applyScheduled transfers .never).isSome = true ∧
      t.validate (transfers.take 1) = .ok () ∧
      (t.applyScheduled (transfers.take 1) .never).isSome = true ∧
      (t.applyGuarded (transfers.take 1)).isSome = true := by
  intro t transfers
  have herror : t.validate transfers = .error (.accountOutOfRange 1 4 3) := rfl
  have hvalid : t.validate (transfers.take 1) = .ok () := rfl
  obtain ⟨-, hscheduled, -, hfirst⟩ := t.validation_marks_first_failure transfers
  obtain ⟨-, hscheduled', hguarded', -⟩ := t.validation_marks_first_failure (transfers.take 1)
  obtain ⟨-, x, reached, hx, hreached, hstops, -⟩ := (hfirst 1 4 3).mp herror
  cases hx
  refine ⟨herror, ⟨reached, hreached, hstops⟩, ?_, hvalid, (hscheduled' .never).mp hvalid,
    (hguarded' hvalid).1⟩
  rw [← hscheduled, herror]
  intro hok
  cases hok

end AccountTable
end ConflictBatching
