import ConflictBatching.Proofs.Guard.Fewest
import ConflictBatching.Proofs.Ledger.ReleaseTime
import ConflictBatching.Proofs.Queue.Counters
import ConflictBatching.Proofs.Queue.Flush
import ConflictBatching.Proofs.Queue.Sweep

/-! # What a scheduled run counts

A run is followed batch by batch, each beside the transfers that ran with it. Those that ran with the
parallel batches went through guarded rounds, which count every one of them once and those within one
account by themselves. The counters of the drain and of the rounds end the events of the run.
-/
namespace ConflictBatching

theorem GuardStats.parallelOps_add (s t : GuardStats) :
    (s + t).parallelOps = s.parallelOps + t.parallelOps := rfl

theorem GuardStats.scalarOps_add (s t : GuardStats) :
    (s + t).scalarOps = s.scalarOps + t.scalarOps := rfl

theorem Transfer.selfRepeating_iff {t : Transfer} : SelfRepeating t ↔ t.source = t.target := by
  simp [SelfRepeating, refs_toList]

theorem size_transferQueue (transfers : List Transfer) :
    (transferQueue transfers).size = transfers.length := by
  simp [transferQueue, queueBy, WorkQueue.size]

theorem length_transfersAt {transfers : List Transfer} {indices : List Nat}
    (h : ∀ i ∈ indices, i < transfers.length) :
    (transfersAt transfers indices).length = indices.length := by
  induction indices with
  | nil => rfl
  | cons i rest ih =>
    obtain ⟨hi, hrest⟩ := List.forall_mem_cons.mp h
    rw [transfersAt, List.filterMap_cons_some (List.getElem?_eq_getElem hi), List.length_cons,
      List.length_cons]
    exact congrArg (· + 1) (ih hrest)

namespace Application
variable {transfers : List Transfer} {table : Array Account} {delivered : List Nat}
  {first last : Application} {runs : List (Batch UInt32 Nat × List Nat)}

/-- Guarded rounds count the transfers that they run; those of a forced batch are not counted. -/
theorem execute_counts {kind : BatchKind} {accounts accounts' : Array Account} {ts : List Transfer}
    {stats : GuardStats} (h : execute kind accounts ts = some (stats, accounts')) :
    stats.parallelOps + stats.scalarOps = (if kind = .parallel then ts else []).length ∧
      stats.scalarOps =
        (if kind = .parallel then ts else []).countP fun t => t.source = t.target := by
  cases kind with
  | parallel =>
    obtain ⟨hparallel, hscalar⟩ := applyGuarded_counts (by decide) (by decide) (by decide) h
    have hself : ts.countP (SelfRepeating ·) = ts.countP fun t => t.source = t.target := by
      apply List.countP_congr
      intro t _
      simp only [decide_eq_true_eq, Transfer.selfRepeating_iff]
    have hboth : ts.countP (SelfRepeating ·) + ts.countP (¬SelfRepeating ·) = ts.length := by
      simpa using (List.length_eq_countP_add_countP (SelfRepeating ·) (l := ts)).symm
    refine ⟨?_, hscalar.trans hself⟩
    rw [hparallel, hscalar, Nat.add_comm]
    exact hboth
  | sequential =>
    obtain ⟨accounts, -, heq⟩ := Option.map_eq_some_iff.mp h
    cases heq
    exact ⟨rfl, rfl⟩

/-- Batches received one after the other, each beside the transfers that ran with it: these join the
applied ones, and one at a time they give the accounts after the batch. -/
inductive BatchRun (transfers : List Transfer) :
    Application → List (Batch UInt32 Nat × List Nat) → Application → Prop
  | done (a : Application) : BatchRun transfers a [] a
  | batch {a next last : Application} {b : Batch UInt32 Nat} {ran : List Nat}
      {later : List (Batch UInt32 Nat × List Nat)}
      (hreceive : receive transfers.toArray b.kind b.tokens a = some next)
      (hran : next.applied.toList = a.applied.toList ++ ran)
      (haccounts : applySequential a.accounts (transfersAt transfers ran) = some next.accounts)
      (hlater : BatchRun transfers next later last) :
      BatchRun transfers a ((b, ran) :: later) last

/-- The transfers that ran with parallel batches. -/
def ranTogether (runs : List (Batch UInt32 Nat × List Nat)) : List Nat :=
  (runs.filter (·.1.kind = .parallel)).flatMap Prod.snd

theorem ranTogether_cons (b : Batch UInt32 Nat) (ran : List Nat)
    (later : List (Batch UInt32 Nat × List Nat)) :
    ranTogether ((b, ran) :: later) =
      (if b.kind = .parallel then ran else []) ++ ranTogether later := by
  by_cases hkind : b.kind = .parallel <;> simp [ranTogether, hkind]

/-- What a sound application receives is a run of batches. -/
theorem Sound.exists_batchRun {batches : List (Batch UInt32 Nat)}
    (h : first.Sound transfers table delivered) (hwithin : ∀ t ∈ transfers, t.within table.size)
    (hfold : batches.foldlM (fun a b => Application.receive transfers.toArray b.kind b.tokens a)
      first = some last) :
    ∃ runs, BatchRun transfers first runs last ∧ runs.map Prod.fst = batches := by
  induction batches generalizing first delivered with
  | nil =>
    cases hfold
    exact ⟨[], .done _, rfl⟩
  | cons b bs ih =>
    rw [List.foldlM_cons] at hfold
    obtain ⟨next, hreceive, hrest⟩ := Option.bind_eq_some_iff.mp hfold
    obtain ⟨next', hreceive', hsound, -⟩ := h.receive hwithin b.kind b.tokens
    obtain rfl : next' = next := Option.some.inj (hreceive'.symm.trans hreceive)
    obtain ⟨later, hlater, hbatches⟩ := ih hsound hrest
    obtain ⟨-, -, -, -, hran, -⟩ := receive_eq_some hreceive
    have haccounts := h.applySequential_ran hsound hran
    exact ⟨_, .batch hreceive hran haccounts hlater, congrArg (b :: ·) hbatches⟩

theorem BatchRun.applied_eq (h : BatchRun transfers first runs last) :
    last.applied.toList = first.applied.toList ++ runs.flatMap Prod.snd := by
  induction h with
  | done => simp
  | batch _ hran _ _ ih => rw [ih, hran, List.append_assoc, List.flatMap_cons]

theorem BatchRun.guard_eq (h : BatchRun transfers first runs last) :
    last.guard.parallelOps + last.guard.scalarOps =
        first.guard.parallelOps + first.guard.scalarOps +
          (transfersAt transfers (ranTogether runs)).length ∧
      last.guard.scalarOps = first.guard.scalarOps +
        (transfersAt transfers (ranTogether runs)).countP fun t => t.source = t.target := by
  induction h with
  | done => simp [ranTogether, transfersAt]
  | @batch a next last b ran later hreceive hran _ _ ih =>
    obtain ⟨stats, hexecute, -, -, happlied, hguard, -⟩ := receive_eq_some hreceive
    have hready : (a.pass transfers b.tokens).ready = ran :=
      List.append_cancel_left (happlied.symm.trans hran)
    rw [hready] at hexecute
    obtain ⟨hall, hself⟩ := execute_counts hexecute
    have hcounted : transfersAt transfers (ranTogether ((b, ran) :: later)) =
        (if b.kind = .parallel then transfersAt transfers ran else []) ++
          transfersAt transfers (ranTogether later) := by
      rw [ranTogether_cons, transfersAt_append, apply_ite (transfersAt transfers)]
      rfl
    rw [ih.1, ih.2, hguard, hcounted, List.length_append, List.countP_append, ← hall, ← hself,
      GuardStats.parallelOps_add, GuardStats.scalarOps_add]
    constructor <;> omega

theorem ranTogether_subset (runs : List (Batch UInt32 Nat × List Nat)) :
    ranTogether runs ⊆ runs.flatMap Prod.snd := by
  intro i hi
  obtain ⟨r, hr, hir⟩ := List.mem_flatMap.mp hi
  exact List.mem_flatMap.mpr ⟨r, (List.mem_filter.mp hr).1, hir⟩

/-- Where no batch was forced out everything ran with parallel batches. -/
theorem ranTogether_of_parallel (h : ∀ b ∈ runs.map Prod.fst, b.kind = .parallel) :
    ranTogether runs = runs.flatMap Prod.snd := by
  have hall : runs.filter (·.1.kind = .parallel) = runs := by
    rw [List.filter_eq_self]
    intro r hr
    exact decide_eq_true (h r.1 (List.mem_map_of_mem hr))
  rw [ranTogether, hall]

end Application

namespace AccountTable
variable {t : AccountTable} {transfers : List Transfer}

/-- The batches of a scheduled run, each beside the transfers that ran with it, and what they leave of
the counters. -/
theorem exists_batchRun_applyScheduled (h : ∀ x ∈ transfers, x.within t.size) (policy : FlushPolicy) :
    ∃ outcome first runs last, t.applyScheduled transfers policy = some outcome ∧
      t.applicationAt transfers policy 0 = some first ∧
      Application.BatchRun transfers first runs last ∧
      runs.map Prod.fst = scheduledBatches transfers policy ∧
      outcome.order = runs.flatMap Prod.snd ∧
      outcome.order.Perm (List.range transfers.length) ∧
      outcome.drain = ((transferQueue transfers).drain standardWidth policy).stats ∧
      outcome.trace = ((transferQueue transfers).drain standardWidth policy).trace ++
        [.guarded outcome.guard] ∧
      outcome.guard.parallelOps + outcome.guard.scalarOps =
        (transfersAt transfers (Application.ranTogether runs)).length ∧
      outcome.guard.scalarOps = (transfersAt transfers (Application.ranTogether runs)).countP
        fun x => x.source = x.target := by
  obtain ⟨last, hat, hsound, hprompt, -⟩ := applicationAt_spec h policy (Nat.le_refl _)
  have hall := deliveredBefore_all transfers policy
  have hheld := hprompt.held_nil hsound hall
  have hscheduled := applyScheduled_eq hat hheld
  obtain ⟨arrival, hstart, hfold⟩ := Option.bind_eq_some_iff.mp hat
  rw [List.take_length] at hfold
  have hfollows := (ArrivalOrder.start?_eq_some hstart).2.2
  obtain ⟨runs, hruns, hbatches⟩ := (Application.Sound.initial hfollows).exists_batchRun h hfold
  obtain ⟨hboth, hself⟩ := hruns.guard_eq
  have horder : last.applied.toList = runs.flatMap Prod.snd := by
    rw [hruns.applied_eq]
    rfl
  have hfirst : t.applicationAt transfers policy 0 =
      some { accounts := t.accounts, arrival := arrival } := by
    rw [applicationAt, hstart]
    rfl
  refine ⟨_, _, runs, last, hscheduled, hfirst, hruns, hbatches, horder,
    (hsound.applied_perm hheld).trans hall, rfl, rfl, ?_, ?_⟩
  · exact hboth.trans (Nat.zero_add _)
  · exact hself.trans (Nat.zero_add _)

/-- The counters of a scheduled run under any policy balance: the drain counts every transfer once, the
guarded rounds count those that ran with parallel batches and among them those within one account, and
both end the events of the run. Without flushes the rounds count all transfers. -/
theorem scheduled_counters_balance (t : AccountTable) (transfers : List Transfer)
    (h : ∀ x ∈ transfers, x.source < t.size ∧ x.target < t.size) :
    (∀ policy, ∃ outcome first runs last, t.applyScheduled transfers policy = some outcome ∧
      t.applicationAt transfers policy 0 = some first ∧
      Application.BatchRun transfers first runs last ∧
      runs.map Prod.fst = scheduledBatches transfers policy ∧
      outcome.order = runs.flatMap Prod.snd ∧
      outcome.drain.items = transfers.length ∧ outcome.order.length = transfers.length ∧
      outcome.guard.parallelOps + outcome.guard.scalarOps =
        (Application.ranTogether runs).length ∧
      outcome.guard.scalarOps = (transfersAt transfers (Application.ranTogether runs)).countP
        (fun x => x.source = x.target) ∧
      outcome.trace = ((transferQueue transfers).drain standardWidth policy).trace ++
        [.guarded outcome.guard] ∧
      outcome.trace = (scheduledBatches transfers policy).flatMap (Batch.events policy) ++
        [.summary outcome.drain, .guarded outcome.guard]) ∧
    ∃ outcome, t.applyScheduled transfers .never = some outcome ∧
      outcome.guard.parallelOps + outcome.guard.scalarOps = transfers.length ∧
      outcome.guard.scalarOps = transfers.countP fun x => x.source = x.target := by
  constructor
  · intro policy
    obtain ⟨outcome, first, runs, last, hscheduled, hfirst, hruns, hbatches, horder, hperm, hdrain,
      htrace, hboth, hself⟩ := exists_batchRun_applyScheduled h policy
    have hlength : outcome.order.length = transfers.length := by
      rw [hperm.length_eq, List.length_range]
    have htogether : ∀ i ∈ Application.ranTogether runs, i < transfers.length := by
      intro i hi
      apply List.mem_range.mp
      apply hperm.subset
      rw [horder]
      exact Application.ranTogether_subset runs hi
    rw [length_transfersAt htogether] at hboth
    refine ⟨outcome, first, runs, last, hscheduled, hfirst, hruns, hbatches, horder, ?_, hlength, hboth,
      hself, htrace, ?_⟩
    · rw [hdrain, WorkQueue.drain_items (by decide) policy (by decide), size_transferQueue]
    · rw [htrace, WorkQueue.drain_trace (by decide), hdrain, List.append_assoc]
      rfl
  · obtain ⟨outcome, first, runs, last, hscheduled, -, -, hbatches, horder, hperm, -, -, hboth, hself⟩ :=
      exists_batchRun_applyScheduled h .never
    have hparallel : ∀ b ∈ runs.map Prod.fst, b.kind = .parallel := by
      rw [hbatches, scheduledBatches, WorkQueue.drain_batches (by decide)]
      exact Drain.upcoming_parallel (by decide) FlushPolicy.never_minBatch rfl
    rw [Application.ranTogether_of_parallel hparallel, ← horder] at hboth hself
    have hall := transfersAt_perm hperm
    exact ⟨outcome, hscheduled, hboth.trans hall.length_eq, hself.trans (hall.countP_eq _)⟩

/-- Two of five transfers stay within one account. The first batch is parallel and short, so the second
is forced out under a policy that tolerates no deferral. -/
theorem scheduled_counters_of_two_self_transfers :
    let t : AccountTable := .uniform 4 100
    let transfers : List Transfer :=
      [⟨1, 0, 1, 5⟩, ⟨2, 0, 2, 5⟩, ⟨3, 3, 2, 5⟩, ⟨4, 1, 1, 9⟩, ⟨5, 0, 0, 7⟩]
    (∀ x ∈ transfers, x.source < t.size ∧ x.target < t.size) ∧
    (scheduledBatches transfers ⟨0, 4⟩).map Batch.kind = [.parallel, .sequential] ∧
    (∃ outcome first runs last, t.applyScheduled transfers ⟨0, 4⟩ = some outcome ∧
      t.applicationAt transfers ⟨0, 4⟩ 0 = some first ∧
      Application.BatchRun transfers first runs last ∧
      runs.map Prod.fst = scheduledBatches transfers ⟨0, 4⟩ ∧
      outcome.order = runs.flatMap Prod.snd ∧
      outcome.drain.items = 5 ∧ outcome.order.length = 5 ∧
      outcome.guard.parallelOps + outcome.guard.scalarOps =
        (Application.ranTogether runs).length) ∧
    ∃ outcome, t.applyScheduled transfers .never = some outcome ∧
      outcome.guard.parallelOps + outcome.guard.scalarOps = 5 ∧ outcome.guard.scalarOps = 2 := by
  intro t transfers
  have h : ∀ x ∈ transfers, x.source < t.size ∧ x.target < t.size := by decide
  obtain ⟨hbalance, hnever⟩ := t.scheduled_counters_balance transfers h
  obtain ⟨outcome, first, runs, last, hscheduled, hfirst, hruns, hbatches, horder, hitems, hlength,
    hboth, -⟩ := hbalance ⟨0, 4⟩
  exact ⟨h, by decide +kernel, ⟨outcome, first, runs, last, hscheduled, hfirst, hruns, hbatches, horder,
    hitems, hlength, hboth⟩, hnever⟩

end AccountTable
end ConflictBatching
