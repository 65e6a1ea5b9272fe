import ConflictBatching.Proofs.Ledger.ReleaseTime

/-! # Transfers that meet only where they debit

The scheduler keeps the debits of one account in order. Where any two transfers with a common account
debit the same one, it so keeps everything in order that has to be: what precedes a transfer is
delivered before it or with it, and no transfer is held back. Keys that several accounts share only
order more.
-/
namespace ConflictBatching

/-- The transfers of every batch by arrival, one batch after the other. -/
def batchwise {κ : Type} (batches : List (Batch κ Nat)) : List Nat :=
  batches.flatMap fun b => b.tokens.mergeSort (· ≤ ·)

theorem batchwise_eq {κ : Type} (batches : List (Batch κ Nat)) :
    batchwise batches = (batches.map Batch.tokens).flatMap (List.insertionSort (· ≤ ·)) := by
  simp only [batchwise, List.flatMap_map, List.mergeSort_eq_insertionSort]

namespace Application
variable {transfers : List Transfer} {table : Array Account} {delivered tokens : List Nat}
  {kind : BatchKind} {a a' : Application}

/-- Nothing is held and nothing was ever held back. -/
structure Unheld (a : Application) : Prop where
  held : a.held = []
  heldBack : a.heldBack = 0

/-- A batch after which all that is delivered is ready runs whole, in arrival order. -/
theorem Unheld.receive (hunheld : a.Unheld) (h : a.Sound transfers table delivered)
    (hprompt : a.Prompt transfers delivered) (hnodup : (delivered ++ tokens).Nodup)
    (hlt : ∀ i ∈ delivered ++ tokens, i < transfers.length)
    (hclosed : Closed transfers (delivered ++ tokens))
    (hrun : Application.receive transfers.toArray kind tokens a = some a') :
    a'.Unheld ∧ a'.applied.toList = a.applied.toList ++ tokens.mergeSort (· ≤ ·) := by
  classical
  obtain ⟨-, -, -, hheld, happlied, -, hheldBack⟩ := receive_eq_some hrun
  obtain ⟨candidates, hsorted, hmem, hreadyEq, hheldEq⟩ := hprompt.pass_eq h hnodup hlt
  have hnone : (a.pass transfers tokens).held = [] := by
    rw [hheldEq, List.filter_eq_nil_iff]
    intro i hi
    have htoken : i ∈ tokens := by simpa [hunheld.held] using (hmem i).mp hi
    simpa using hclosed.ready (List.mem_append_right delivered htoken)
  have hperm : (a.pass transfers tokens).ready.Perm (tokens.mergeSort (· ≤ ·)) := by
    have hpass := a.pass_perm transfers tokens
    rw [hnone, List.append_nil, hunheld.held, List.nil_append] at hpass
    exact hpass.trans (List.mergeSort_perm _ _).symm
  have hascending : (a.pass transfers tokens).ready.Pairwise (· ≤ ·) := by
    rw [hreadyEq]
    exact (hsorted.filter _).imp Nat.le_of_lt
  refine ⟨⟨hheld.trans hnone, ?_⟩, ?_⟩
  · simp [hheldBack, hnone, hunheld.heldBack]
  · rw [happlied, hperm.eq_of_pairwise' hascending (List.pairwise_mergeSort' (· ≤ ·) tokens)]

/-- Batches that never deliver a transfer before what precedes it run whole, one after the other. -/
theorem Unheld.foldlM_receive (hunheld : a.Unheld) (h : a.Sound transfers table delivered)
    (hprompt : a.Prompt transfers delivered) (hwithin : ∀ t ∈ transfers, t.within table.size)
    {batches : List (Batch UInt32 Nat)}
    (hnodup : (delivered ++ batches.flatMap Batch.tokens).Nodup)
    (hlt : ∀ i ∈ delivered ++ batches.flatMap Batch.tokens, i < transfers.length)
    (hclosed : ∀ bs, bs <+: batches → Closed transfers (delivered ++ bs.flatMap Batch.tokens)) :
    ∃ a', batches.foldlM (fun a b => Application.receive transfers.toArray b.kind b.tokens a) a =
        some a' ∧ a'.Unheld ∧ a'.applied.toList = a.applied.toList ++ batchwise batches := by
  classical
  induction batches generalizing a delivered with
  | nil => exact ⟨a, rfl, hunheld, (List.append_nil _).symm⟩
  | cons b bs ih =>
    rw [List.flatMap_cons, ← List.append_assoc] at hnodup hlt
    have hnodupFirst := (List.nodup_append.mp hnodup).1
    have hltFirst : ∀ i ∈ delivered ++ b.tokens, i < transfers.length :=
      fun i hi => hlt i (List.mem_append_left _ hi)
    have hclosedFirst : Closed transfers (delivered ++ b.tokens) := by
      have hone := hclosed [b] (List.prefix_append [b] bs)
      rwa [List.flatMap_singleton] at hone
    obtain ⟨next, hrun, hsound, -⟩ := h.receive hwithin b.kind b.tokens
    obtain ⟨hprompt', -, -⟩ := hprompt.receive h hnodupFirst hltFirst hrun
    obtain ⟨hunheld', happlied⟩ :=
      hunheld.receive h hprompt hnodupFirst hltFirst hclosedFirst hrun
    have hclosedLater : ∀ cs, cs <+: bs →
        Closed transfers (delivered ++ b.tokens ++ cs.flatMap Batch.tokens) := by
      intro cs hcs
      have hcons := hclosed (b :: cs) ((List.prefix_cons_inj b).mpr hcs)
      rwa [List.flatMap_cons, ← List.append_assoc] at hcons
    obtain ⟨last, hrest, hlast, happlied'⟩ :=
      ih hunheld' hsound hprompt' hnodup hlt hclosedLater
    refine ⟨last, ?_, hlast, ?_⟩
    · rw [List.foldlM_cons, hrun]
      exact hrest
    · rw [happlied', happlied, List.append_assoc]
      rfl

end Application

section Keys
variable {transfers : List Transfer} {key : Nat → UInt32}

theorem mem_queueBy_items {item : UInt32 × Nat} :
    item ∈ (queueBy key transfers).items ↔
      ∃ x, transfers[item.2]? = some x ∧ key x.source = item.1 := by
  obtain ⟨k, i⟩ := item
  simp [queueBy, List.mem_zipIdx_iff_getElem?]

theorem queueBy_ascending : (queueBy key transfers).items.Pairwise (·.2 < ·.2) := by
  have hrange : ((queueBy key transfers).items.map Prod.snd).Pairwise (· < ·) := by
    rw [queueBy_tokens]
    exact List.pairwise_lt_range
  exact List.pairwise_map.mp hrange

section Sources
variable (hshare : ∀ x ∈ transfers, ∀ y ∈ transfers, x.sharesAccount y → x.source = y.source)
include hshare

/-- The first batches of a drain hold, with a transfer, all that precede it. -/
theorem closed_of_prefix_drain {policy : FlushPolicy} {bs : List (Batch UInt32 Nat)}
    (hbs : bs <+: ((queueBy key transfers).drain standardWidth policy).batches) :
    Closed transfers (bs.flatMap Batch.tokens) := by
  have htokens : bs.flatMap Batch.tokens = (bs.flatMap Batch.items).map Prod.snd :=
    List.map_flatMap.symm
  rw [htokens]
  rintro i hi j ⟨hlt, x, y, hx, hy, hxy⟩
  obtain ⟨item, hitem, rfl⟩ := List.mem_map.mp hi
  have hqueued : item ∈ (queueBy key transfers).items :=
    ((queueBy key transfers).drain_items_perm (by decide) (by decide) policy).subset
      ((hbs.flatMap Batch.items).subset hitem)
  obtain ⟨y', hy', hkey⟩ := mem_queueBy_items.mp hqueued
  obtain rfl : y' = y := Option.some.inj (hy'.symm.trans hy)
  have hsource := hshare x (List.mem_of_getElem? hx) y' (List.mem_of_getElem? hy) hxy
  have hearlier : (item.1, j) ∈ (queueBy key transfers).items := by
    rw [mem_queueBy_items]
    exact ⟨x, hx, by rw [hsource, hkey]⟩
  exact List.mem_map_of_mem (WorkQueue.mem_of_same_key (by decide) (by decide) policy
    queueBy_ascending hbs hearlier hitem rfl hlt)

theorem AccountTable.applyScheduledBy_of_within {t : AccountTable}
    (h : ∀ x ∈ transfers, x.within t.size) (policy : FlushPolicy) :
    ∃ outcome, t.applyScheduledBy key transfers policy = some outcome ∧ outcome.heldBack = 0 ∧
      outcome.order = batchwise ((queueBy key transfers).drain standardWidth policy).batches := by
  obtain ⟨arrival, hstart, hfollows⟩ := ArrivalOrder.start?_of_within h
  have hdelivered := queueBy_delivered key transfers policy
  have hnodup := hdelivered.nodup_iff.mpr List.nodup_range
  have hlt : ∀ i ∈ ((queueBy key transfers).drain standardWidth policy).batches.flatMap Batch.tokens,
      i < transfers.length :=
    fun i hi => List.mem_range.mp (hdelivered.subset hi)
  have hclosed : ∀ bs, bs <+: ((queueBy key transfers).drain standardWidth policy).batches →
      Closed transfers (bs.flatMap Batch.tokens) :=
    fun bs hbs => closed_of_prefix_drain hshare hbs
  obtain ⟨last, hfold, hunheld, happlied⟩ := Application.Unheld.foldlM_receive ⟨rfl, rfl⟩
    (.initial hfollows) (.initial transfers t.accounts arrival) h hnodup hlt hclosed
  have hrun := applyScheduledBy_eq hstart hfold (Application.receive_nothing hunheld.held)
  exact ⟨_, hrun, hunheld.heldBack, happlied⟩

end Sources
end Keys

/-- Where any two transfers with a common account debit the same one, a scheduled run holds nothing
back and runs every batch whole and in arrival order, whichever accounts their keys tell apart. -/
theorem AccountTable.shared_sources_hold_nothing_back (t : AccountTable) (transfers : List Transfer)
    (policy : FlushPolicy) (h : ∀ x ∈ transfers, x.source < t.size ∧ x.target < t.size)
    (hshare : ∀ x ∈ transfers, ∀ y ∈ transfers, x.sharesAccount y → x.source = y.source) :
    (∃ outcome, t.applyScheduled transfers policy = some outcome ∧ outcome.heldBack = 0 ∧
      outcome.order = batchwise (scheduledBatches transfers policy)) ∧
    ∀ key : Nat → UInt32, ∃ outcome, t.applyScheduledBy key transfers policy = some outcome ∧
      outcome.heldBack = 0 ∧
      outcome.order = batchwise ((queueBy key transfers).drain standardWidth policy).batches := by
  have hkeys : ∀ key : Nat → UInt32, ∃ outcome,
      t.applyScheduledBy key transfers policy = some outcome ∧ outcome.heldBack = 0 ∧
      outcome.order = batchwise ((queueBy key transfers).drain standardWidth policy).batches :=
    fun key => applyScheduledBy_of_within hshare h policy
  exact ⟨hkeys accountKey, hkeys⟩

/-- Only the first two of ten transfers have a common account. The second batch takes up the last
transfer before it comes back to the second, and the second runs first. Under one key for all accounts
the same holds of a batch of one and a forced batch of nine. -/
theorem AccountTable.shared_sources_of_ten_transfers :
    let t : AccountTable := .uniform 19 100
    let transfers : List Transfer := (List.range 10).map fun i => ⟨7, i - 1, i + 9, 5⟩
    (∀ x ∈ transfers, x.source < t.size ∧ x.target < t.size) ∧
    (∀ x ∈ transfers, ∀ y ∈ transfers, x.sharesAccount y → x.source = y.source) ∧
    (scheduledBatches transfers ⟨0, 4⟩).map Batch.tokens = [[0, 2, 3, 4, 5, 6, 7, 8], [9, 1]] ∧
    ((queueBy (fun _ => 0) transfers).drain standardWidth ⟨0, 4⟩).batches.map Batch.tokens =
      [[0], [1, 2, 3, 4, 5, 6, 7, 8, 9]] ∧
    (∃ outcome, t.applyScheduled transfers ⟨0, 4⟩ = some outcome ∧ outcome.heldBack = 0 ∧
      outcome.order = [0, 2, 3, 4, 5, 6, 7, 8, 1, 9]) ∧
    ∃ outcome, t.applyScheduledBy (fun _ => 0) transfers ⟨0, 4⟩ = some outcome ∧
      outcome.heldBack = 0 ∧ outcome.order = List.range 10 := by
  intro t transfers
  have h : ∀ x ∈ transfers, x.source < t.size ∧ x.target < t.size := by decide
  have hshare : ∀ x ∈ transfers, ∀ y ∈ transfers, x.sharesAccount y → x.source = y.source := by
    decide
  have hbatches : (scheduledBatches transfers ⟨0, 4⟩).map Batch.tokens =
      [[0, 2, 3, 4, 5, 6, 7, 8], [9, 1]] := by decide +kernel
  have hkeyed : ((queueBy (fun _ => 0) transfers).drain standardWidth ⟨0, 4⟩).batches.map
      Batch.tokens = [[0], [1, 2, 3, 4, 5, 6, 7, 8, 9]] := by decide +kernel
  obtain ⟨⟨outcome, hscheduled, hheldBack, horder⟩, hkeys⟩ :=
    t.shared_sources_hold_nothing_back transfers ⟨0, 4⟩ h hshare
  obtain ⟨outcome', hscheduled', hheldBack', horder'⟩ := hkeys fun _ => 0
  rw [batchwise_eq, hbatches] at horder
  rw [batchwise_eq, hkeyed] at horder'
  exact ⟨h, hshare, hbatches, hkeyed, ⟨outcome, hscheduled, hheldBack, horder⟩,
    outcome', hscheduled', hheldBack', horder'⟩

end ConflictBatching
