import Mathlib.Data.List.Infix
import Mathlib.Order.Bounds.Defs
import ConflictBatching.Proofs.Ledger.Scheduled

/-! # When a transfer runs

After every batch exactly the ready transfers among the delivered ones have run. So each transfer
runs with the batch that delivers the last of its ancestors, it was held back if that batch is not
its own, and nothing is left for the pass after the last batch.
-/
namespace ConflictBatching

/-- The number of the batch that delivers a transfer. -/
def deliveredIn {κ : Type} (batches : List (Batch κ Nat)) (i : Nat) : Nat :=
  batches.findIdx fun b => i ∈ b.tokens

theorem mem_take_delivered_iff {κ : Type} {batches : List (Batch κ Nat)} {k : Nat}
    (hk : k ≤ batches.length) (i : Nat) :
    i ∈ (batches.take k).flatMap Batch.tokens ↔ deliveredIn batches i < k := by
  have hcut : (batches.take k).findIdx (fun b => decide (i ∈ b.tokens)) <
      (batches.take k).length ↔ i ∈ (batches.take k).flatMap Batch.tokens := by
    rw [List.findIdx_lt_length, List.mem_flatMap]
    simp only [decide_eq_true_eq]
  rw [← hcut, List.findIdx_take, List.length_take, Nat.min_eq_left hk, deliveredIn]
  omega

namespace Application
variable {transfers : List Transfer} {table : Array Account} {delivered tokens : List Nat}
  {kind : BatchKind} {a a' : Application}

/-- Of the delivered transfers the ready ones have run and the others are held. -/
structure Prompt (transfers : List Transfer) (delivered : List Nat) (a : Application) : Prop where
  ran : ∀ i ∈ a.applied.toList, Ready transfers delivered i
  waits : ∀ i ∈ a.held, ¬Ready transfers delivered i
  sorted : a.held.Pairwise (· < ·)

theorem Prompt.initial (transfers : List Transfer) (table : Array Account) (arrival : ArrivalOrder) :
    Application.Prompt transfers [] { accounts := table, arrival := arrival } := by
  refine ⟨?_, ?_, List.Pairwise.nil⟩
  · intro i hi
    cases hi
  · intro i hi
    cases hi

/-- All that a batch does to an application. -/
theorem receive_eq_some (h : receive transfers.toArray kind tokens a = some a') :
    ∃ stats, execute kind a.accounts (transfersAt transfers (a.pass transfers tokens).ready) =
        some (stats, a'.accounts) ∧
      a'.arrival = (a.pass transfers tokens).order ∧
      a'.held = (a.pass transfers tokens).held ∧
      a'.applied.toList = a.applied.toList ++ (a.pass transfers tokens).ready ∧
      a'.guard = a.guard + stats ∧
      a'.heldBack = a.heldBack + tokens.countP (· ∈ (a.pass transfers tokens).held) := by
  rw [receive_eq] at h
  obtain ⟨⟨stats, accounts⟩, hexecute, rfl⟩ := Option.map_eq_some_iff.mp h
  exact ⟨stats, hexecute, rfl, rfl, Array.toList_appendList, rfl, rfl⟩

theorem Sound.mem_delivered_iff (h : a.Sound transfers table delivered) (i : Nat) :
    i ∈ delivered ↔ i ∈ a.applied.toList ∨ i ∈ a.held := by
  rw [← h.tokens.mem_iff, List.mem_append]

/-- Of the delivered transfers exactly the ready ones have run. -/
theorem Prompt.mem_applied_iff (hprompt : a.Prompt transfers delivered)
    (h : a.Sound transfers table delivered) (i : Nat) :
    i ∈ a.applied.toList ↔ Ready transfers delivered i := by
  constructor
  · exact hprompt.ran i
  · intro hready
    rcases (h.mem_delivered_iff i).mp hready.mem with hran | hheld
    · exact hran
    · exact absurd hready (hprompt.waits i hheld)

/-- No held transfer could run. -/
theorem Prompt.advance?_eq_none (hprompt : a.Prompt transfers delivered)
    (h : a.Sound transfers table delivered) {i : Nat} {t : Transfer} (hi : i ∈ a.held)
    (ht : transfers[i]? = some t) : a.arrival.advance? i t = none := by
  have hfresh : i ∉ a.applied.toList := fun hran => hprompt.waits i hi (hprompt.ran i hran)
  rw [← Option.not_isSome_iff_eq_none, h.follows.advance?_isSome_iff ht hfresh]
  intro hbefore
  apply hprompt.waits i hi
  apply ready_of_forall_precedes ((h.mem_delivered_iff i).mpr (Or.inr hi))
  intro j hj
  exact hprompt.ran j (hbefore j hj)

section Pass
variable (h : a.Sound transfers table delivered) (hprompt : a.Prompt transfers delivered)
  (hnodup : (delivered ++ tokens).Nodup) (hlt : ∀ i ∈ delivered ++ tokens, i < transfers.length)
include h hprompt hnodup hlt

/-- A pass runs what is ready with the new deliveries and holds the other candidates. -/
theorem Prompt.pass_eq [DecidablePred (Ready transfers (delivered ++ tokens))] :
    ∃ candidates : List Nat, candidates.Pairwise (· < ·) ∧
      (∀ i, i ∈ candidates ↔ i ∈ a.held ∨ i ∈ tokens) ∧
      (a.pass transfers tokens).ready =
        candidates.filter (fun i => Ready transfers (delivered ++ tokens) i) ∧
      (a.pass transfers tokens).held =
        candidates.filter (fun i => ¬Ready transfers (delivered ++ tokens) i) := by
  have hsplit : (a.applied.toList ++ (a.held ++ tokens)).Perm (delivered ++ tokens) := by
    rw [← List.append_assoc]
    exact h.tokens.append_right tokens
  obtain ⟨-, hcandidates, hdisjoint⟩ := List.nodup_append.mp (hsplit.nodup_iff.mpr hnodup)
  have hmerge : ((a.held ++ tokens).mergeSort (· ≤ ·)).Perm (a.held ++ tokens) :=
    List.mergeSort_perm ..
  have hmem : ∀ i, i ∈ (a.held ++ tokens).mergeSort (· ≤ ·) ↔ i ∈ a.held ∨ i ∈ tokens := by
    intro i
    rw [hmerge.mem_iff, List.mem_append]
  have hsorted := ArrivalOrder.pairwise_lt_of_nodup
    (List.pairwise_mergeSort' (· ≤ ·) (a.held ++ tokens)) (hmerge.nodup_iff.mpr hcandidates)
  obtain ⟨hready, hheld⟩ := ArrivalOrder.release_eq_filter h.follows hsorted
    (fun i hi => (hprompt.ran i hi).mono (List.subset_append_left delivered tokens))
    (fun i hi => by
      have hi := hsplit.symm.subset hi.mem
      rw [hmem]
      simpa using hi)
    (fun i hi => by
      have hi' : i ∈ a.held ++ tokens := hmerge.subset hi
      have hi'' : i ∈ delivered ++ tokens := hsplit.subset (List.mem_append_right _ hi')
      exact ⟨hlt i hi'', hi'', fun hran => hdisjoint i hran i hi' rfl⟩)
  exact ⟨_, hsorted, hmem, hready, hheld⟩

/-- After a batch the application is prompt again, it ran transfers in ascending order, and it counts
those of the batch that are not ready yet. -/
theorem Prompt.receive [DecidablePred (Ready transfers (delivered ++ tokens))]
    (hrun : Application.receive transfers.toArray kind tokens a = some a') :
    a'.Prompt transfers (delivered ++ tokens) ∧
      (∃ ran, a'.applied.toList = a.applied.toList ++ ran ∧ ran.Pairwise (· < ·)) ∧
      a'.heldBack = a.heldBack +
        tokens.countP (fun i => ¬Ready transfers (delivered ++ tokens) i) := by
  obtain ⟨-, -, -, hheld, happlied, -, hheldBack⟩ := receive_eq_some hrun
  obtain ⟨candidates, hsorted, hmem, hreadyEq, hheldEq⟩ := hprompt.pass_eq h hnodup hlt
  rw [hreadyEq] at happlied
  rw [hheldEq] at hheld hheldBack
  refine ⟨⟨?_, ?_, ?_⟩, ⟨_, happlied, hsorted.filter _⟩, ?_⟩
  · intro i hi
    rw [happlied, List.mem_append, List.mem_filter] at hi
    rcases hi with hran | ⟨-, hready⟩
    · exact (hprompt.ran i hran).mono (List.subset_append_left delivered tokens)
    · exact of_decide_eq_true hready
  · intro i hi
    rw [hheld, List.mem_filter] at hi
    exact of_decide_eq_true hi.2
  · rw [hheld]
    exact hsorted.filter _
  · rw [hheldBack]
    congr 1
    apply List.countP_congr
    intro i hi
    simp [hmem, hi]

end Pass

/-- The pass after the last batch finds nothing to do. -/
theorem receive_nothing (hheld : a.held = []) :
    receive transfers.toArray .sequential [] a = some a := by
  have hpass : a.pass transfers [] = { order := a.arrival } := by
    simp [pass, hheld, ArrivalOrder.release]
  have hexecute : execute .sequential a.accounts (transfersAt transfers []) = some ({}, a.accounts) :=
    rfl
  rw [receive_eq, hpass, hexecute]
  obtain ⟨accounts, arrival, held, applied, guard, heldBack⟩ := a
  subst hheld
  rfl

end Application

def scheduledBatches (transfers : List Transfer) (policy : FlushPolicy) : List (Batch UInt32 Nat) :=
  ((transferQueue transfers).drain standardWidth policy).batches

/-- The transfers of the first `k` batches. -/
def deliveredBefore (transfers : List Transfer) (policy : FlushPolicy) (k : Nat) : List Nat :=
  ((scheduledBatches transfers policy).take k).flatMap Batch.tokens

/-- One of the ancestors of a transfer is delivered in a later batch than the transfer. -/
def Early (transfers : List Transfer) (policy : FlushPolicy) (i : Nat) : Prop :=
  ∃ j, Ancestor transfers j i ∧
    deliveredIn (scheduledBatches transfers policy) i <
      deliveredIn (scheduledBatches transfers policy) j

/-- The application after the first `k` batches. -/
def AccountTable.applicationAt (t : AccountTable) (transfers : List Transfer)
    (policy : FlushPolicy) (k : Nat) : Option Application :=
  (ArrivalOrder.start? t.size transfers).bind fun arrival =>
    ((scheduledBatches transfers policy).take k).foldlM
      (fun a b => Application.receive transfers.toArray b.kind b.tokens a)
      { accounts := t.accounts, arrival := arrival }

section Batches
variable {transfers : List Transfer} {policy : FlushPolicy} {k : Nat} {b : Batch UInt32 Nat}

theorem deliveredBefore_all (transfers : List Transfer) (policy : FlushPolicy) :
    (deliveredBefore transfers policy (scheduledBatches transfers policy).length).Perm
      (List.range transfers.length) := by
  rw [deliveredBefore, List.take_length]
  exact transferQueue_delivered transfers policy

theorem deliveredBefore_initial (transfers : List Transfer) (policy : FlushPolicy) (k : Nat) :
    deliveredBefore transfers policy k <+:
      deliveredBefore transfers policy (scheduledBatches transfers policy).length := by
  rw [deliveredBefore, deliveredBefore, List.take_length]
  exact (List.take_prefix k _).flatMap _

theorem deliveredBefore_nodup (transfers : List Transfer) (policy : FlushPolicy) (k : Nat) :
    (deliveredBefore transfers policy k).Nodup :=
  ((deliveredBefore_all transfers policy).nodup_iff.mpr List.nodup_range).sublist
    (deliveredBefore_initial transfers policy k).sublist

theorem lt_of_mem_deliveredBefore {i : Nat} (h : i ∈ deliveredBefore transfers policy k) :
    i < transfers.length :=
  List.mem_range.mp ((deliveredBefore_all transfers policy).subset
    ((deliveredBefore_initial transfers policy k).subset h))

theorem mem_deliveredBefore_iff (hk : k ≤ (scheduledBatches transfers policy).length) (i : Nat) :
    i ∈ deliveredBefore transfers policy k ↔
      deliveredIn (scheduledBatches transfers policy) i < k :=
  mem_take_delivered_iff hk i

theorem ready_deliveredBefore_iff (hk : k ≤ (scheduledBatches transfers policy).length) (i : Nat) :
    Ready transfers (deliveredBefore transfers policy k) i ↔
      ∀ j, Ancestor transfers j i → deliveredIn (scheduledBatches transfers policy) j < k :=
  forall₂_congr fun j _ => mem_deliveredBefore_iff hk j

section Batch
variable (hb : (scheduledBatches transfers policy)[k]? = some b)
include hb

theorem deliveredBefore_succ :
    deliveredBefore transfers policy (k + 1) = deliveredBefore transfers policy k ++ b.tokens := by
  rw [deliveredBefore, List.take_add_one, hb, List.flatMap_append]
  simp [deliveredBefore]

theorem deliveredIn_of_mem {i : Nat} (hi : i ∈ b.tokens) :
    deliveredIn (scheduledBatches transfers policy) i = k := by
  obtain ⟨hlt, -⟩ := List.getElem?_eq_some_iff.mp hb
  have hnodup := deliveredBefore_nodup transfers policy (k + 1)
  rw [deliveredBefore_succ hb] at hnodup
  have hupto : i ∈ deliveredBefore transfers policy (k + 1) := by
    rw [deliveredBefore_succ hb]
    exact List.mem_append_right _ hi
  have hfresh : i ∉ deliveredBefore transfers policy k := by
    intro hbefore
    exact (List.nodup_append.mp hnodup).2.2 i hbefore i hi rfl
  rw [mem_deliveredBefore_iff hlt] at hupto
  rw [mem_deliveredBefore_iff hlt.le] at hfresh
  omega

theorem not_ready_iff_early {i : Nat} (hi : i ∈ b.tokens) :
    ¬Ready transfers (deliveredBefore transfers policy (k + 1)) i ↔ Early transfers policy i := by
  obtain ⟨hlt, -⟩ := List.getElem?_eq_some_iff.mp hb
  rw [ready_deliveredBefore_iff hlt, Early, deliveredIn_of_mem hb hi]
  push Not
  rfl

theorem AccountTable.applicationAt_succ (t : AccountTable) :
    t.applicationAt transfers policy (k + 1) =
      (t.applicationAt transfers policy k).bind
        (Application.receive transfers.toArray b.kind b.tokens) := by
  rw [applicationAt, applicationAt, Option.bind_assoc]
  congr 1
  funext arrival
  rw [List.take_add_one, hb, Option.toList_some, List.foldlM_append]
  congr 1
  funext a
  exact bind_pure _

end Batch
end Batches

open Classical in
/-- The application runs through all batches, stays sound and prompt, and counts the transfers that
are delivered before one of their ancestors. -/
theorem AccountTable.applicationAt_spec {t : AccountTable} {transfers : List Transfer}
    (h : ∀ x ∈ transfers, x.within t.size) (policy : FlushPolicy) {k : Nat}
    (hk : k ≤ (scheduledBatches transfers policy).length) :
    ∃ a, t.applicationAt transfers policy k = some a ∧
      a.Sound transfers t.accounts (deliveredBefore transfers policy k) ∧
      a.Prompt transfers (deliveredBefore transfers policy k) ∧
      a.heldBack = (deliveredBefore transfers policy k).countP (fun i => Early transfers policy i) := by
  induction k with
  | zero =>
    obtain ⟨arrival, hstart, hfollows⟩ := ArrivalOrder.start?_of_within h
    refine ⟨{ accounts := t.accounts, arrival := arrival }, ?_, .initial hfollows,
      .initial transfers t.accounts arrival, rfl⟩
    rw [applicationAt, hstart]
    rfl
  | succ k ih =>
    obtain ⟨a, hat, hsound, hprompt, hheldBack⟩ := ih (Nat.le_of_succ_le hk)
    have hb := List.getElem?_eq_getElem (Nat.lt_of_succ_le hk)
    generalize (scheduledBatches transfers policy)[k] = b at hb
    have hnodup := deliveredBefore_nodup transfers policy (k + 1)
    have hlt : ∀ i ∈ deliveredBefore transfers policy (k + 1), i < transfers.length :=
      fun i hi => lt_of_mem_deliveredBefore hi
    have hcount : b.tokens.countP (fun i =>
        ¬Ready transfers (deliveredBefore transfers policy (k + 1)) i) =
          b.tokens.countP (fun i => Early transfers policy i) := by
      apply List.countP_congr
      intro i hi
      simp only [decide_eq_true_eq, not_ready_iff_early hb hi]
    rw [deliveredBefore_succ hb] at hnodup hlt hcount ⊢
    obtain ⟨a', hrun, hsound', -⟩ := hsound.receive h b.kind b.tokens
    obtain ⟨hprompt', -, hheldBack'⟩ := hprompt.receive hsound hnodup hlt hrun
    refine ⟨a', ?_, hsound', hprompt', ?_⟩
    · rw [applicationAt_succ hb, hat]
      exact hrun
    · rw [hheldBack', hcount, hheldBack, List.countP_append]

/-- What the batch after the first `k` makes ready is what has the last of its ancestors in it. -/
theorem ready_succ_iff_isGreatest {transfers : List Transfer} {policy : FlushPolicy} {k : Nat}
    (hk : k < (scheduledBatches transfers policy).length) (i : Nat) :
    Ready transfers (deliveredBefore transfers policy (k + 1)) i ∧
        ¬Ready transfers (deliveredBefore transfers policy k) i ↔
      IsGreatest (deliveredIn (scheduledBatches transfers policy) '' {j | Ancestor transfers j i})
        k := by
  rw [ready_deliveredBefore_iff hk, ready_deliveredBefore_iff hk.le]
  constructor
  · rintro ⟨hupto, hlast⟩
    push Not at hlast
    obtain ⟨j, hj, hjk⟩ := hlast
    refine ⟨⟨j, hj, Nat.le_antisymm (Nat.le_of_lt_succ (hupto j hj)) hjk⟩, ?_⟩
    rintro _ ⟨l, hl, rfl⟩
    exact Nat.le_of_lt_succ (hupto l hl)
  · rintro ⟨⟨j, hj, hjk⟩, hbound⟩
    constructor
    · intro l hl
      exact Nat.lt_succ_of_le (hbound ⟨l, hl, rfl⟩)
    · intro hall
      exact Nat.lt_irrefl k (hjk ▸ hall j hj)

/-- A batch runs what it made ready. -/
theorem Application.Prompt.mem_ran_iff {transfers : List Transfer} {table : Array Account}
    {before after ran : List Nat} {a a' : Application} (hprompt : a.Prompt transfers before)
    (hsound : a.Sound transfers table before) (hprompt' : a'.Prompt transfers after)
    (hsound' : a'.Sound transfers table after) (hnodup : after.Nodup)
    (happlied : a'.applied.toList = a.applied.toList ++ ran) (i : Nat) :
    i ∈ ran ↔ Ready transfers after i ∧ ¬Ready transfers before i := by
  have hrun := hsound'.tokens.nodup_iff.mpr hnodup
  rw [happlied, List.append_assoc] at hrun
  obtain ⟨-, -, hdisjoint⟩ := List.nodup_append.mp hrun
  rw [← hprompt'.mem_applied_iff hsound', ← hprompt.mem_applied_iff hsound, happlied,
    List.mem_append]
  constructor
  · intro hi
    exact ⟨Or.inr hi, fun hran => hdisjoint i hran i (List.mem_append_left _ hi) rfl⟩
  · rintro ⟨hran | hi, hfresh⟩
    · exact absurd hran hfresh
    · exact hi

theorem Application.Sound.applySequential_ran {transfers : List Transfer} {table : Array Account}
    {before after ran : List Nat} {a a' : Application} (h : a.Sound transfers table before)
    (h' : a'.Sound transfers table after)
    (happlied : a'.applied.toList = a.applied.toList ++ ran) :
    applySequential a.accounts (transfersAt transfers ran) = some a'.accounts := by
  have hran := h'.ran
  rwa [happlied, transfersAt_append, applySequential_append, h.ran] at hran

/-- Once all transfers are delivered none is held. -/
theorem Application.Prompt.held_nil {transfers : List Transfer} {table : Array Account}
    {delivered : List Nat} {a : Application} (hprompt : a.Prompt transfers delivered)
    (h : a.Sound transfers table delivered) (hall : delivered.Perm (List.range transfers.length)) :
    a.held = [] := by
  rw [List.eq_nil_iff_forall_not_mem]
  intro i hi
  apply hprompt.waits i hi
  intro j hj
  have hi' := hall.subset ((h.mem_delivered_iff i).mpr (Or.inr hi))
  exact hall.symm.subset (List.mem_range.mpr (hj.le.trans_lt (List.mem_range.mp hi')))

/-- A run reports what the application is after the last batch when nothing is held then. -/
theorem AccountTable.applyScheduled_eq {t : AccountTable} {transfers : List Transfer}
    {policy : FlushPolicy} {a : Application}
    (hat : t.applicationAt transfers policy (scheduledBatches transfers policy).length = some a)
    (hheld : a.held = []) :
    t.applyScheduled transfers policy = some {
      table := ⟨a.accounts⟩
      drain := ((transferQueue transfers).drain standardWidth policy).stats
      guard := a.guard
      heldBack := a.heldBack
      order := a.applied.toList
      trace := ((transferQueue transfers).drain standardWidth policy).trace ++
        [.guarded a.guard] } := by
  obtain ⟨arrival, hstart, hfold⟩ := Option.bind_eq_some_iff.mp hat
  rw [List.take_length] at hfold
  exact applyScheduledBy_eq hstart hfold (Application.receive_nothing hheld)

open Classical in
/-- Each transfer runs with the batch that delivers the last of its ancestors, and those that run with
one batch run in arrival order. After a batch no held transfer could run. The transfers that were held
back are those with an ancestor in a later batch than their own, and after the last batch none is
left: the pass that follows does nothing. -/
theorem AccountTable.transfers_run_with_last_ancestor (t : AccountTable)
    (transfers : List Transfer) (policy : FlushPolicy)
    (h : ∀ x ∈ transfers, x.source < t.size ∧ x.target < t.size) :
    let batches := scheduledBatches transfers policy
    (batches.flatMap Batch.tokens).Perm (List.range transfers.length) ∧
    (∀ k b, batches[k]? = some b → ∃ a a' ran,
      t.applicationAt transfers policy k = some a ∧
      Application.receive transfers.toArray b.kind b.tokens a = some a' ∧
      t.applicationAt transfers policy (k + 1) = some a' ∧
      a'.applied.toList = a.applied.toList ++ ran ∧
      ConflictBatching.applySequential a.accounts (transfersAt transfers ran) = some a'.accounts ∧
      ran.Pairwise (· < ·) ∧
      (∀ i, i ∈ ran ↔ IsGreatest (deliveredIn batches '' {j | Ancestor transfers j i}) k) ∧
      a'.held.Pairwise (· < ·) ∧
      ∀ i ∈ a'.held, ∀ x, transfers[i]? = some x → a'.arrival.advance? i x = none) ∧
    ∃ a outcome, t.applicationAt transfers policy batches.length = some a ∧ a.held = [] ∧
      Application.receive transfers.toArray .sequential [] a = some a ∧
      t.applyScheduled transfers policy = some outcome ∧ outcome.table = ⟨a.accounts⟩ ∧
      outcome.order = a.applied.toList ∧
      outcome.heldBack = (List.range transfers.length).countP fun i => Early transfers policy i := by
  intro batches
  refine ⟨transferQueue_delivered transfers policy, ?_, ?_⟩
  · intro k b hb
    obtain ⟨hk, -⟩ := List.getElem?_eq_some_iff.mp hb
    obtain ⟨a, hat, hsound, hprompt, -⟩ := applicationAt_spec h policy hk.le
    obtain ⟨a', hat', hsound', hprompt', -⟩ := applicationAt_spec h policy (Nat.succ_le_of_lt hk)
    have hrun : Application.receive transfers.toArray b.kind b.tokens a = some a' := by
      rw [← hat', applicationAt_succ hb, hat, Option.bind_some]
    have hnodup := deliveredBefore_nodup transfers policy (k + 1)
    have hlt : ∀ i ∈ deliveredBefore transfers policy (k + 1), i < transfers.length :=
      fun i hi => lt_of_mem_deliveredBefore hi
    rw [deliveredBefore_succ hb] at hlt
    obtain ⟨-, ⟨ran, happlied, hascending⟩, -⟩ :=
      hprompt.receive hsound (deliveredBefore_succ hb ▸ hnodup) hlt hrun
    refine ⟨a, a', ran, hat, hrun, hat', happlied, hsound.applySequential_ran hsound' happlied,
      hascending, ?_, hprompt'.sorted, ?_⟩
    · intro i
      rw [hprompt.mem_ran_iff hsound hprompt' hsound' hnodup happlied, ready_succ_iff_isGreatest hk]
    · intro i hi x hx
      exact hprompt'.advance?_eq_none hsound' hi hx
  · obtain ⟨a, hat, hsound, hprompt, hheldBack⟩ := applicationAt_spec h policy (Nat.le_refl _)
    have hall := deliveredBefore_all transfers policy
    have hheld := hprompt.held_nil hsound hall
    rw [hall.countP_eq] at hheldBack
    exact ⟨a, _, hat, hheld, Application.receive_nothing hheld, applyScheduled_eq hat hheld, rfl, rfl,
      hheldBack⟩

open Classical in
/-- The third transfer comes with the first batch and waits for the second one, which credits the same
account and is delivered by the second batch. -/
theorem AccountTable.transfers_run_after_waiting_credit :
    let t : AccountTable := .uniform 4 100
    let transfers : List Transfer := [⟨1, 0, 1, 5⟩, ⟨2, 0, 2, 5⟩, ⟨3, 3, 2, 5⟩]
    let batches := scheduledBatches transfers .never
    (∀ x ∈ transfers, x.source < t.size ∧ x.target < t.size) ∧
    deliveredIn batches 1 = 1 ∧ deliveredIn batches 2 = 0 ∧
    (∃ a a' ran, t.applicationAt transfers .never 1 = some a ∧
      t.applicationAt transfers .never 2 = some a' ∧
      a'.applied.toList = a.applied.toList ++ ran ∧ ran.Pairwise (· < ·) ∧
      ∀ i, i ∈ ran ↔ IsGreatest (deliveredIn batches '' {j | Ancestor transfers j i}) 1) ∧
    ∃ outcome, t.applyScheduled transfers .never = some outcome ∧
      outcome.heldBack = (List.range 3).countP fun i => Early transfers .never i := by
  intro t transfers batches
  have h : ∀ x ∈ transfers, x.source < t.size ∧ x.target < t.size := by decide
  have hsecond : batches[1]?.isSome = true := by decide +kernel
  obtain ⟨b, hb⟩ := Option.isSome_iff_exists.mp hsecond
  obtain ⟨-, hruns, -, outcome, -, -, -, hscheduled, -, -, hheldBack⟩ :=
    t.transfers_run_with_last_ancestor transfers .never h
  obtain ⟨a, a', ran, hat, -, hat', happlied, -, hascending, hran, -, -⟩ := hruns 1 b hb
  exact ⟨h, by decide +kernel, by decide +kernel, ⟨a, a', ran, hat, hat', happlied, hascending, hran⟩,
    outcome, hscheduled, hheldBack⟩

end ConflictBatching
