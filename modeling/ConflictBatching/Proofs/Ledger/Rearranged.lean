import Mathlib.Data.List.Sort
import ConflictBatching.Proofs.Ledger.Ancestors
import ConflictBatching.Proofs.Ledger.Replay

/-! # Rearranged transfers

Transfers without a common account may change places. An arrangement that keeps any two with a common
account as they arrived shows every account its own transfers by arrival, and nothing else decides what
is left of the account, its stamp included.
-/
namespace ConflictBatching
variable {transfers : List Transfer} {order : List Nat}

/-- The arrangement names every transfer once, and what precedes a transfer stands before it. -/
structure KeepsArrival (transfers : List Transfer) (order : List Nat) : Prop where
  perm : order.Perm (List.range transfers.length)
  before : ∀ i j, Precedes transfers i j → order.idxOf i < order.idxOf j

theorem transfersAt_perm (h : order.Perm (List.range transfers.length)) :
    (transfersAt transfers order).Perm transfers := by
  have hperm := h.filterMap (transfers[·]?)
  rwa [← transfersAt, ← transfersAt, transfersAt_range] at hperm

/-- Accepted entries are sorted where the smaller of any two stands first. -/
theorem filter_pairwise_of_idxOf_lt {accept : Nat → Bool} (hnodup : order.Nodup)
    (hbefore : ∀ i ∈ order, ∀ j ∈ order, i < j → accept i = true → accept j = true →
      order.idxOf i < order.idxOf j) :
    (order.filter accept).Pairwise (· < ·) := by
  induction order with
  | nil => exact List.Pairwise.nil
  | cons k rest ih =>
    obtain ⟨hfresh, hrest⟩ := List.nodup_cons.mp hnodup
    have hne : ∀ i ∈ rest, k ≠ i := by
      rintro i hi rfl
      exact hfresh hi
    have hsorted : (rest.filter accept).Pairwise (· < ·) := by
      apply ih hrest
      intro i hi j hj hlt hiaccept hjaccept
      have hshifted := hbefore i (List.mem_cons_of_mem k hi) j (List.mem_cons_of_mem k hj) hlt
        hiaccept hjaccept
      rw [List.idxOf_cons_ne _ (hne i hi), List.idxOf_cons_ne _ (hne j hj)] at hshifted
      exact Nat.lt_of_succ_lt_succ hshifted
    by_cases hk : accept k = true
    · rw [List.filter_cons_of_pos hk]
      refine List.pairwise_cons.mpr ⟨?_, hsorted⟩
      intro j hj
      obtain ⟨hjrest, hjaccept⟩ := List.mem_filter.mp hj
      by_contra hle
      have hlt : j < k := Nat.lt_of_le_of_ne (Nat.le_of_not_lt hle) (hne j hjrest).symm
      have hfirst := hbefore j (List.mem_cons_of_mem k hjrest) k List.mem_cons_self hlt hjaccept hk
      rw [List.idxOf_cons_self] at hfirst
      exact Nat.not_lt_zero _ hfirst
    · rwa [List.filter_cons_of_neg hk]

/-- Every account sees its own transfers by arrival. -/
theorem KeepsArrival.filter_eq (h : KeepsArrival transfers order) (account : Nat) :
    order.filter (touchesAt transfers account) = arrivals transfers account := by
  have hnodup : order.Nodup := h.perm.nodup_iff.mpr List.nodup_range
  have hsorted : (order.filter (touchesAt transfers account)).Pairwise (· < ·) := by
    apply filter_pairwise_of_idxOf_lt hnodup
    intro i _ j _ hlt hi hj
    exact h.before i j (precedes_of_touchesAt hlt hi hj)
  exact (h.perm.filter _).eq_of_pairwise' hsorted (arrivals_sorted transfers account)

/-- Where every account sees its own transfers by arrival, the same is left as in arrival order. -/
theorem applySequential_transfersAt {table : Array Account}
    (hwithin : ∀ t ∈ transfers, t.within table.size)
    (h : ∀ account, order.filter (touchesAt transfers account) = arrivals transfers account) :
    applySequential table (transfersAt transfers order) = applySequential table transfers := by
  apply applySequential_congr _ hwithin
  · intro account
    rw [filter_transfersAt, h, arrivals, ← filter_transfersAt, transfersAt_range]
  · intro t ht
    exact hwithin t (mem_of_mem_transfersAt ht)

/-- One at a time and in any arrangement that keeps every two with a common account as they arrived,
transfers within the table leave the table that arrival order leaves. -/
theorem AccountTable.rearranged_transfers_leave_same_table (t : AccountTable)
    (transfers : List Transfer) (order : List Nat)
    (h : ∀ x ∈ transfers, x.source < t.size ∧ x.target < t.size)
    (hkeep : KeepsArrival transfers order) :
    (transfersAt transfers order).Perm transfers ∧
    ∃ table, t.applySequential transfers = some table ∧
      t.applySequential (transfersAt transfers order) = some table := by
  obtain ⟨accounts, hrun, -⟩ := applySequential_of_within h
  refine ⟨transfersAt_perm hkeep.perm, ⟨accounts⟩, ?_, ?_⟩
  · rw [AccountTable.applySequential, hrun, Option.map_some]
  · rw [AccountTable.applySequential, applySequential_transfersAt h hkeep.filter_eq, hrun,
      Option.map_some]

/-- Four transfers over four accounts. The first two change places and so do the last two; the third
follows both of the first two, and the last follows the first within its account. -/
theorem AccountTable.rearranged_transfers_leave_table_of_four :
    let t : AccountTable := .uniform 4 100
    let transfers : List Transfer := [⟨1, 0, 1, 5⟩, ⟨2, 2, 3, 7⟩, ⟨3, 1, 2, 4⟩, ⟨4, 0, 0, 9⟩]
    (∀ x ∈ transfers, x.source < t.size ∧ x.target < t.size) ∧
      KeepsArrival transfers [1, 0, 3, 2] ∧
      transfersAt transfers [1, 0, 3, 2] = [⟨2, 2, 3, 7⟩, ⟨1, 0, 1, 5⟩, ⟨4, 0, 0, 9⟩, ⟨3, 1, 2, 4⟩] ∧
      t.applySequential (transfersAt transfers [1, 0, 3, 2]) =
        some ⟨#[⟨95, 4⟩, ⟨101, 3⟩, ⟨97, 3⟩, ⟨107, 2⟩]⟩ := by
  intro t transfers
  have h : ∀ x ∈ transfers, x.source < t.size ∧ x.target < t.size := by decide
  have hbefore : ∀ i j : Fin 4, i < j → transfers[i].sharesAccount transfers[j] →
      [1, 0, 3, 2].idxOf i.val < [1, 0, 3, 2].idxOf j.val := by decide
  have hkeep : KeepsArrival transfers [1, 0, 3, 2] := by
    refine ⟨by decide, ?_⟩
    rintro i j ⟨hlt, x, y, hx, hy, hshare⟩
    obtain ⟨hi, rfl⟩ := List.getElem?_eq_some_iff.mp hx
    obtain ⟨hj, rfl⟩ := List.getElem?_eq_some_iff.mp hy
    exact hbefore ⟨i, hi⟩ ⟨j, hj⟩ hlt hshare
  have hrun : t.applySequential transfers = some ⟨#[⟨95, 4⟩, ⟨101, 3⟩, ⟨97, 3⟩, ⟨107, 2⟩]⟩ := by
    decide +kernel
  obtain ⟨-, table, hsequential, hrearranged⟩ :=
    t.rearranged_transfers_leave_same_table transfers [1, 0, 3, 2] h hkeep
  exact ⟨h, hkeep, rfl, hrearranged.trans (hsequential.symm.trans hrun)⟩

end ConflictBatching
