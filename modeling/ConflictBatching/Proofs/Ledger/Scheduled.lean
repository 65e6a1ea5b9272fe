import Mathlib.Data.List.Sort
import ConflictBatching.Ledger.Scheduled
import ConflictBatching.Proofs.Ledger.Rearranged
import ConflictBatching.Proofs.Ledger.Release
import ConflictBatching.Proofs.Queue.Delivery

/-! # Scheduled application is sequential application

After any batches the accounts are those that the transfers leave which ran, one at a time in the
order in which they ran; what was delivered has either run or is held. Once all are delivered a last
pass runs the held ones, and every account has then seen its transfers in arrival order.
-/
namespace ConflictBatching

namespace Application
variable {transfers : List Transfer} {table : Array Account} {delivered : List Nat}
  {a : Application}

theorem execute_of_within (kind : BatchKind) {accounts : Array Account} {ts : List Transfer}
    (h : ∀ t ∈ ts, t.within accounts.size) :
    ∃ stats accounts', execute kind accounts ts = some (stats, accounts') ∧
      applySequential accounts ts = some accounts' := by
  obtain ⟨accounts', hrun, -⟩ := applySequential_of_within h
  cases kind with
  | sequential =>
    refine ⟨{}, accounts', ?_, hrun⟩
    rw [execute, hrun, Option.map_some]
  | parallel =>
    have hrange : ∀ t ∈ ts, InRange accounts.size t := by
      intro t ht
      exact Transfer.inRange_iff_within.mpr (h t ht)
    have hguarded : (applyGuarded standardWidth accounts ts).map Prod.snd = some accounts' := by
      rw [← hrun]
      exact applyGuarded_eq_applySequential (by decide) (by decide) (by decide) hrange
        fun t _ => t.agreesOnDistinct
    obtain ⟨⟨stats, after⟩, hexecute, rfl⟩ := Option.map_eq_some_iff.mp hguarded
    exact ⟨stats, after, hexecute, hrun⟩

/-- What holds of an application of which the given transfers were delivered. -/
structure Sound (transfers : List Transfer) (table : Array Account) (delivered : List Nat)
    (a : Application) : Prop where
  follows : a.arrival.Follows transfers a.applied.toList
  ran : applySequential table (transfersAt transfers a.applied.toList) = some a.accounts
  tokens : (a.applied.toList ++ a.held).Perm delivered

theorem Sound.initial {arrival : ArrivalOrder} (h : arrival.Follows transfers []) :
    Application.Sound transfers table [] { accounts := table, arrival := arrival } :=
  ⟨h, rfl, List.Perm.nil⟩

abbrev pass (transfers : List Transfer) (tokens : List Nat) (a : Application) :
    ArrivalOrder.Released :=
  a.arrival.release transfers.toArray ((a.held ++ tokens).mergeSort (· ≤ ·))

theorem pass_perm (transfers : List Transfer) (tokens : List Nat) (a : Application) :
    ((a.pass transfers tokens).ready ++ (a.pass transfers tokens).held).Perm (a.held ++ tokens) :=
  (ArrivalOrder.release_perm ..).trans (List.mergeSort_perm ..)

theorem receive_eq (transfers : List Transfer) (kind : BatchKind) (tokens : List Nat)
    (a : Application) :
    receive transfers.toArray kind tokens a =
      (execute kind a.accounts (transfersAt transfers (a.pass transfers tokens).ready)).map
        fun (stats, accounts) =>
          { accounts := accounts
            arrival := (a.pass transfers tokens).order
            held := (a.pass transfers tokens).held
            applied := a.applied ++ (a.pass transfers tokens).ready
            guard := a.guard + stats
            heldBack := a.heldBack + tokens.countP (· ∈ (a.pass transfers tokens).held) } := by
  have hready : (a.pass transfers tokens).ready.filterMap (transfers.toArray[·]?) =
      transfersAt transfers (a.pass transfers tokens).ready := by
    simp only [List.getElem?_toArray, transfersAt]
  rw [← hready]
  obtain ⟨accounts, arrival, held, applied, guard, heldBack⟩ := a
  exact bind_pure_comp ..

/-- A batch always runs, and the application stays sound. -/
theorem Sound.receive (h : a.Sound transfers table delivered)
    (hwithin : ∀ t ∈ transfers, t.within table.size) (kind : BatchKind) (tokens : List Nat) :
    ∃ a', Application.receive transfers.toArray kind tokens a = some a' ∧
      a'.Sound transfers table (delivered ++ tokens) ∧
      a'.held = (a.pass transfers tokens).held := by
  have hsize : a.accounts.size = table.size := size_of_applySequential h.ran
  have hready : ∀ t ∈ transfersAt transfers (a.pass transfers tokens).ready,
      t.within a.accounts.size := by
    intro t ht
    rw [hsize]
    exact hwithin t (mem_of_mem_transfersAt ht)
  obtain ⟨stats, accounts', hexecute, hran⟩ := execute_of_within kind hready
  rw [receive_eq, hexecute]
  refine ⟨_, rfl, ⟨?_, ?_, ?_⟩, rfl⟩
  · rw [Array.toList_appendList]
    exact ArrivalOrder.release_follows h.follows _
  · rw [Array.toList_appendList, transfersAt_append, applySequential_append, h.ran]
    exact hran
  · rw [Array.toList_appendList, List.append_assoc]
    have hpass := (a.pass_perm transfers tokens).append_left a.applied.toList
    rw [← List.append_assoc a.applied.toList a.held] at hpass
    exact hpass.trans (h.tokens.append_right tokens)

theorem Sound.foldlM_receive {κ : Type} (h : a.Sound transfers table delivered)
    (hwithin : ∀ t ∈ transfers, t.within table.size) (batches : List (Batch κ Nat)) :
    ∃ a', batches.foldlM (fun a b => Application.receive transfers.toArray b.kind b.tokens a) a =
        some a' ∧ a'.Sound transfers table (delivered ++ batches.flatMap Batch.tokens) := by
  induction batches generalizing a delivered with
  | nil => exact ⟨a, rfl, by simpa using h⟩
  | cons b bs ih =>
    obtain ⟨next, hrun, hnext, -⟩ := h.receive hwithin b.kind b.tokens
    obtain ⟨a', hrest, ha'⟩ := ih hnext
    refine ⟨a', ?_, ?_⟩
    · rw [List.foldlM_cons, hrun]
      exact hrest
    · rwa [List.flatMap_cons, ← List.append_assoc]

theorem Sound.receive_last (h : a.Sound transfers table delivered)
    (hwithin : ∀ t ∈ transfers, t.within table.size)
    (hall : delivered.Perm (List.range transfers.length)) (kind : BatchKind) :
    ∃ a', Application.receive transfers.toArray kind [] a = some a' ∧
      a'.Sound transfers table (List.range transfers.length) ∧ a'.held = [] := by
  obtain ⟨a', hrun, hsound, hheld⟩ := h.receive hwithin kind []
  rw [List.append_nil] at hsound
  refine ⟨a', hrun, ⟨hsound.follows, hsound.ran, hsound.tokens.trans hall⟩, ?_⟩
  have hcandidates : (a.applied.toList ++ (a.held ++ []).mergeSort (· ≤ ·)).Perm
      (List.range transfers.length) := by
    have hmerge := (List.mergeSort_perm (a.held ++ []) (· ≤ ·)).append_left a.applied.toList
    rw [List.append_nil] at hmerge ⊢
    exact hmerge.trans (h.tokens.trans hall)
  rw [hheld]
  exact ArrivalOrder.release_held_nil h.follows (List.pairwise_mergeSort' (· ≤ ·) _) hcandidates

theorem Sound.applied_perm (h : a.Sound transfers table delivered) (hheld : a.held = []) :
    a.applied.toList.Perm delivered := by
  simpa [hheld] using h.tokens

/-- When all transfers have run, every account has seen its own by arrival. -/
theorem Sound.filter_applied (h : a.Sound transfers table (List.range transfers.length))
    (hheld : a.held = []) (account : Nat) :
    a.applied.toList.filter (touchesAt transfers account) = arrivals transfers account := by
  have hline := h.follows account
  have hlength := ((h.applied_perm hheld).filter (touchesAt transfers account)).length_eq
  have hnil : a.arrival.line account = [] := by
    have hsplit := congrArg List.length hline
    rw [List.length_append, hlength] at hsplit
    exact List.eq_nil_of_length_eq_zero (Nat.add_eq_left.mp hsplit)
  rwa [hnil, List.append_nil] at hline

theorem Sound.applySequential_eq (h : a.Sound transfers table (List.range transfers.length))
    (hheld : a.held = []) (hwithin : ∀ t ∈ transfers, t.within table.size) :
    applySequential table transfers = some a.accounts := by
  rw [← h.ran]
  exact (applySequential_transfersAt hwithin (h.filter_applied hheld)).symm

end Application

theorem queueBy_tokens (key : Nat → UInt32) (transfers : List Transfer) :
    (queueBy key transfers).items.map Prod.snd = List.range transfers.length := by
  simp [queueBy, Function.comp_def, List.range_eq_range']

/-- Whatever the keys, the batches deliver every transfer once. -/
theorem queueBy_delivered (key : Nat → UInt32) (transfers : List Transfer) (policy : FlushPolicy) :
    (((queueBy key transfers).drain standardWidth policy).batches.flatMap Batch.tokens).Perm
      (List.range transfers.length) := by
  have hitems : (((queueBy key transfers).drain standardWidth policy).batches.flatMap
      Batch.items).Perm (queueBy key transfers).items :=
    (queueBy key transfers).drain_items_perm (by decide) (by decide) policy
  have hmap := hitems.map Prod.snd
  rwa [List.map_flatMap, queueBy_tokens] at hmap

theorem transferQueue_delivered (transfers : List Transfer) (policy : FlushPolicy) :
    (((transferQueue transfers).drain standardWidth policy).batches.flatMap Batch.tokens).Perm
      (List.range transfers.length) :=
  queueBy_delivered accountKey transfers policy

/-- What a run reports is read off the application after its last pass. -/
theorem AccountTable.applyScheduledBy_eq {key : Nat → UInt32} {t : AccountTable}
    {transfers : List Transfer} {policy : FlushPolicy} {arrival : ArrivalOrder}
    {drained last : Application} (hstart : ArrivalOrder.start? t.size transfers = some arrival)
    (hdrained : ((queueBy key transfers).drain standardWidth policy).batches.foldlM
      (fun a b => Application.receive transfers.toArray b.kind b.tokens a)
      { accounts := t.accounts, arrival := arrival } = some drained)
    (hlast : Application.receive transfers.toArray .sequential [] drained = some last) :
    t.applyScheduledBy key transfers policy = some {
      table := ⟨last.accounts⟩
      drain := ((queueBy key transfers).drain standardWidth policy).stats
      guard := last.guard
      heldBack := last.heldBack
      order := last.applied.toList
      trace := ((queueBy key transfers).drain standardWidth policy).trace ++
        [.guarded last.guard] } := by
  simp only [applyScheduledBy, Option.bind_eq_bind, hstart, Option.bind_some, hdrained, hlast]
  rfl

theorem AccountTable.applyScheduled_of_within {t : AccountTable} {transfers : List Transfer}
    (h : ∀ x ∈ transfers, x.within t.size) (policy : FlushPolicy) :
    ∃ (outcome : ScheduledOutcome) (a : Application), t.applyScheduled transfers policy = some outcome ∧
      outcome.table = ⟨a.accounts⟩ ∧ outcome.order = a.applied.toList ∧
      a.Sound transfers t.accounts (List.range transfers.length) ∧ a.held = [] := by
  obtain ⟨arrival, hstart, hfollows⟩ := ArrivalOrder.start?_of_within h
  obtain ⟨drained, hdrained, hsound⟩ := (Application.Sound.initial hfollows).foldlM_receive h
    ((transferQueue transfers).drain standardWidth policy).batches
  rw [List.nil_append] at hsound
  obtain ⟨last, hlast, hfinal, hheld⟩ :=
    hsound.receive_last h (transferQueue_delivered transfers policy) .sequential
  exact ⟨_, last, applyScheduledBy_eq hstart hdrained hlast, rfl, rfl, hfinal, hheld⟩

/-- However transfers within the table are applied, they run and leave one and the same table. -/
theorem AccountTable.exists_common_table {t : AccountTable} {transfers : List Transfer}
    (h : ∀ x ∈ transfers, x.within t.size) :
    ∃ table, t.applySequential transfers = some table ∧
      (∃ guard, t.applyGuarded transfers = some (guard, table)) ∧
      ∀ policy, ∃ outcome, t.applyScheduled transfers policy = some outcome ∧
        outcome.table = table := by
  obtain ⟨guard, accounts, hguarded, hsequential⟩ := Application.execute_of_within .parallel h
  refine ⟨⟨accounts⟩, ?_, ⟨guard, ?_⟩, ?_⟩
  · rw [AccountTable.applySequential, hsequential, Option.map_some]
  · exact congrArg (Option.map fun r => (r.1, (⟨r.2⟩ : AccountTable))) hguarded
  · intro policy
    obtain ⟨outcome, a, hscheduled, htable, -, hsound, hheld⟩ := applyScheduled_of_within h policy
    have haccounts := hsound.applySequential_eq hheld h
    rw [hsequential, Option.some.injEq] at haccounts
    exact ⟨outcome, hscheduled, haccounts ▸ htable⟩

/-- Whatever the policy, the scheduled table is the sequential one to the byte. -/
theorem AccountTable.scheduled_leaves_sequential_table (t : AccountTable)
    (transfers : List Transfer) (policy : FlushPolicy)
    (h : ∀ x ∈ transfers, x.source < t.size ∧ x.target < t.size) :
    ∃ outcome table, t.applyScheduled transfers policy = some outcome ∧
      t.applySequential transfers = some table ∧
      outcome.table = table ∧ outcome.table.bytes = table.bytes := by
  obtain ⟨outcome, a, hscheduled, htable, -, hsound, hheld⟩ := applyScheduled_of_within h policy
  have hsequential := hsound.applySequential_eq hheld h
  refine ⟨outcome, ⟨a.accounts⟩, hscheduled, ?_, htable, congrArg bytes htable⟩
  rw [AccountTable.applySequential, hsequential, Option.map_some]

/-- The first batch brings a credit that waits for an earlier debit of its account; the last transfer
stays within one account. -/
theorem AccountTable.scheduled_leaves_table_of_held_credit :
    let t : AccountTable := .uniform 4 100
    let transfers : List Transfer :=
      [⟨1, 0, 1, 5⟩, ⟨2, 0, 2, 5⟩, ⟨3, 3, 2, 5⟩, ⟨3, 3, 3, -7⟩]
    (∀ x ∈ transfers, x.source < t.size ∧ x.target < t.size) ∧
    ∃ outcome table, t.applyScheduled transfers ⟨0, 4⟩ = some outcome ∧
      t.applySequential transfers = some table ∧
      outcome.table = table ∧ outcome.table.bytes = table.bytes := by
  intro t transfers
  have h : ∀ x ∈ transfers, x.source < t.size ∧ x.target < t.size := by decide
  exact ⟨h, t.scheduled_leaves_sequential_table transfers ⟨0, 4⟩ h⟩

end ConflictBatching
