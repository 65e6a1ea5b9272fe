import ConflictBatching.Proofs.Ledger.Scheduled

/-! # The order of a scheduled run

The order that a run reports is recorded beside the updates. It names every transfer once, never
turns around two transfers with an account in common, and it is the order of the updates: replayed
one transfer at a time it leaves the same table.
-/
namespace ConflictBatching

/-- Of two accepted entries the one that stands first in the accepted part stands first. -/
theorem idxOf_lt_of_filter_pairwise {order : List Nat} {accept : Nat → Bool}
    (hsorted : (order.filter accept).Pairwise (· < ·)) {i j : Nat} (hi : i ∈ order)
    (hiaccept : accept i = true) (hjaccept : accept j = true) (hij : i < j) :
    order.idxOf i < order.idxOf j := by
  induction order with
  | nil => exact absurd hi List.not_mem_nil
  | cons k rest ih =>
    by_cases hki : k = i
    · subst hki
      rw [List.idxOf_cons_self, List.idxOf_cons_ne _ hij.ne]
      exact Nat.succ_pos _
    · have hirest : i ∈ rest := by
        rcases List.mem_cons.mp hi with rfl | hmem
        · exact absurd rfl hki
        · exact hmem
      have hkj : k ≠ j := by
        rintro rfl
        rw [List.filter_cons_of_pos hjaccept] at hsorted
        have hlt := List.rel_of_pairwise_cons hsorted (List.mem_filter.mpr ⟨hirest, hiaccept⟩)
        exact Nat.lt_asymm hij hlt
      have htail : (rest.filter accept).Pairwise (· < ·) :=
        hsorted.sublist ((List.sublist_cons_self k rest).filter accept)
      rw [List.idxOf_cons_ne _ hki, List.idxOf_cons_ne _ hkj]
      exact Nat.succ_lt_succ (ih htail hirest)

theorem Application.Sound.idxOf_lt {transfers : List Transfer} {table : Array Account}
    {a : Application} (h : a.Sound transfers table (List.range transfers.length))
    (hheld : a.held = []) {i j : Nat} {x y : Transfer} (hij : i < j)
    (hx : transfers[i]? = some x) (hy : transfers[j]? = some y) (hshare : x.sharesAccount y) :
    a.applied.toList.idxOf i < a.applied.toList.idxOf j := by
  obtain ⟨account, hxtouch, hytouch⟩ := hshare
  have hsorted : (a.applied.toList.filter (touchesAt transfers account)).Pairwise (· < ·) := by
    rw [h.filter_applied hheld]
    exact arrivals_sorted transfers account
  have hi : i ∈ a.applied.toList := by
    obtain ⟨hlt, -⟩ := List.getElem?_eq_some_iff.mp hx
    exact (h.applied_perm hheld).symm.subset (List.mem_range.mpr hlt)
  apply idxOf_lt_of_filter_pairwise hsorted hi _ _ hij
  · rw [touchesAt_eq hx]
    exact decide_eq_true hxtouch
  · rw [touchesAt_eq hy]
    exact decide_eq_true hytouch

/-- Whatever the policy, the reported order runs every transfer once, keeps arrival order between
transfers that share an account, and replayed one at a time leaves the table of the run. -/
theorem AccountTable.scheduled_order_replays (t : AccountTable) (transfers : List Transfer)
    (policy : FlushPolicy) (h : ∀ x ∈ transfers, x.source < t.size ∧ x.target < t.size) :
    ∃ outcome, t.applyScheduled transfers policy = some outcome ∧
      outcome.order.Perm (List.range transfers.length) ∧
      (∀ i j x y, i < j → transfers[i]? = some x → transfers[j]? = some y → x.sharesAccount y →
        outcome.order.idxOf i < outcome.order.idxOf j) ∧
      t.applySequential (transfersAt transfers outcome.order) = some outcome.table := by
  obtain ⟨outcome, a, hscheduled, htable, horder, hsound, hheld⟩ :=
    applyScheduled_of_within h policy
  refine ⟨outcome, hscheduled, ?_, ?_, ?_⟩
  · rw [horder]
    exact hsound.applied_perm hheld
  · intro i j x y hij hx hy hshare
    rw [horder]
    exact hsound.idxOf_lt hheld hij hx hy hshare
  · rw [horder, htable, AccountTable.applySequential, hsound.ran, Option.map_some]

/-- Five transfers over four accounts: the third and the last wait for the second, and the fourth
overtakes it. -/
theorem AccountTable.scheduled_order_of_waiting_credit :
    let t : AccountTable := .uniform 4 100
    let transfers : List Transfer :=
      [⟨1, 0, 1, 5⟩, ⟨2, 0, 2, 5⟩, ⟨3, 3, 2, 5⟩, ⟨4, 1, 1, 9⟩, ⟨5, 2, 0, -7⟩]
    (∀ x ∈ transfers, x.source < t.size ∧ x.target < t.size) ∧
    ∃ outcome, t.applyScheduled transfers .never = some outcome ∧
      outcome.order.Perm (List.range transfers.length) ∧
      (∀ i j x y, i < j → transfers[i]? = some x → transfers[j]? = some y → x.sharesAccount y →
        outcome.order.idxOf i < outcome.order.idxOf j) ∧
      t.applySequential (transfersAt transfers outcome.order) = some outcome.table := by
  intro t transfers
  have h : ∀ x ∈ transfers, x.source < t.size ∧ x.target < t.size := by decide
  exact ⟨h, t.scheduled_order_replays transfers .never h⟩

end ConflictBatching
