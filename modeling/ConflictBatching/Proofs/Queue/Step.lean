import ConflictBatching.Queue.Drain
import ConflictBatching.Proofs.Batch.Arrange

/-! # One step of a drain

A step delivers one batch and leaves the other pending items. Both are written down here without
the mask arithmetic; a step keeps the line of every key, and its batch has the shape that its kind
promises.
-/
namespace ConflictBatching
variable {κ τ : Type}

/-- What a batch of either kind promises. -/
def Batch.Fits (width : Nat) (b : Batch κ τ) : Prop :=
  match b.kind with
  | .parallel => 1 ≤ b.size ∧ b.size ≤ width ∧ b.keys.Nodup
  | .sequential => 1 ≤ b.size ∧ b.size ≤ 2 * width

theorem Batch.Fits.items_ne_nil {width : Nat} {b : Batch κ τ} (h : b.Fits width) :
    b.items ≠ [] := by
  obtain ⟨kind, items⟩ := b
  have hpos : 1 ≤ items.length := by
    cases kind with
    | parallel => exact h.1
    | sequential => exact h.1
  exact List.ne_nil_of_length_pos hpos

/-- The items of some batches, counted. -/
def itemCount (batches : List (Batch κ τ)) : Nat := (batches.flatMap Batch.items).length

@[simp] theorem itemCount_nil : itemCount ([] : List (Batch κ τ)) = 0 := rfl

@[simp] theorem itemCount_cons (b : Batch κ τ) (bs : List (Batch κ τ)) :
    itemCount (b :: bs) = b.size + itemCount bs := by
  rw [itemCount, List.flatMap_cons, List.length_append]
  rfl

namespace Drain

def batches (d : Drain κ τ) : List (Batch κ τ) := d.trace.toList.filterMap Event.delivered?

/-- The items the scheduler looks at for the next batch. -/
def front (width : Nat) (d : Drain κ τ) : List (κ × τ) := d.pending.take (2 * width)

theorem front_ne_nil {width : Nat} (hpos : 1 ≤ width) {d : Drain κ τ} (h : d.pending ≠ []) :
    d.front width ≠ [] := by
  intro hnil
  rcases List.take_eq_nil_iff.mp hnil with hzero | hnil
  · omega
  · exact h hnil

theorem front_length_le (width : Nat) (d : Drain κ τ) : (d.front width).length ≤ 2 * width :=
  List.length_take_le ..

variable [DecidableEq κ]

def nextBatch (width : Nat) (policy : FlushPolicy) (d : Drain κ τ) : Batch κ τ :=
  if policy.maxDeferrals < d.streak then ⟨.sequential, d.front width⟩
  else ⟨.parallel, (firsts (d.front width)).take width⟩

/-- What the next step leaves of the items it looked at. -/
def leftover (width : Nat) (policy : FlushPolicy) (d : Drain κ τ) : List (κ × τ) :=
  if policy.maxDeferrals < d.streak then []
  else (firsts (d.front width)).drop width ++ repeated (d.front width)

theorem step_batches (width : Nat) (hwidth : 2 * width ≤ maxLanes) (policy : FlushPolicy)
    (d : Drain κ τ) : (d.step width policy).batches = d.batches ++ [d.nextBatch width policy] := by
  by_cases hforced : policy.maxDeferrals < d.streak
  · simp [step, nextBatch, hforced, flush, batches, front, List.filterMap_cons, Event.delivered?]
  · have htake := arrange_take width hwidth d.pending
    simp [step, nextBatch, hforced, deliver, batches, front, htake, List.filterMap_cons,
      Event.delivered?]

/-- The items beyond the window keep their places behind the leftover. -/
theorem step_pending (width : Nat) (hwidth : 2 * width ≤ maxLanes) (policy : FlushPolicy)
    (d : Drain κ τ) :
    (d.step width policy).pending = d.leftover width policy ++ d.pending.drop (2 * width) := by
  by_cases hforced : policy.maxDeferrals < d.streak
  · simp [step, leftover, hforced, flush]
  · have hdrop := arrange_drop width hwidth d.pending
    simp [step, leftover, hforced, deliver, front, hdrop]

theorem nextBatch_ofKey_leftover (width : Nat) (policy : FlushPolicy) (d : Drain κ τ) (key : κ) :
    ofKey key (d.nextBatch width policy).items ++ ofKey key (d.leftover width policy) =
      ofKey key (d.front width) := by
  by_cases hforced : policy.maxDeferrals < d.streak
  · simp [nextBatch, leftover, hforced]
  · simp only [nextBatch, leftover, if_neg hforced]
    rw [ofKey_append, ← List.append_assoc, ← ofKey_append, List.take_append_drop,
      ← ofKey_append, ofKey_firsts_append_repeated]

theorem nextBatch_perm (width : Nat) (policy : FlushPolicy) (d : Drain κ τ) :
    ((d.nextBatch width policy).items ++ d.leftover width policy).Perm (d.front width) := by
  apply perm_of_ofKey_eq
  intro key
  rw [ofKey_append]
  exact nextBatch_ofKey_leftover width policy d key

theorem nextBatch_size_add_leftover (width : Nat) (policy : FlushPolicy) (d : Drain κ τ) :
    (d.nextBatch width policy).size + (d.leftover width policy).length =
      (d.front width).length := by
  rw [← (nextBatch_perm width policy d).length_eq, List.length_append]
  rfl

/-- A short parallel batch is one more deferral in a row while items remain. -/
theorem step_streak (width : Nat) (hwidth : 2 * width ≤ maxLanes) (policy : FlushPolicy)
    (d : Drain κ τ) :
    (d.step width policy).streak =
      if (d.nextBatch width policy).kind = .parallel ∧
          (d.nextBatch width policy).size < policy.minBatch ∧ (d.step width policy).pending ≠ []
      then d.streak + 1 else 0 := by
  by_cases hforced : policy.maxDeferrals < d.streak
  · simp [step, nextBatch, hforced, flush]
  · have hsize := congrArg Prod.fst (arrange_eq width hwidth d.pending)
    simp [step, nextBatch, hforced, deliver, front, Batch.size, hsize, Nat.min_comm width]

theorem step_ofKey (width : Nat) (hwidth : 2 * width ≤ maxLanes) (policy : FlushPolicy)
    (d : Drain κ τ) (key : κ) :
    ofKey key (d.nextBatch width policy).items ++ ofKey key (d.step width policy).pending =
      ofKey key d.pending := by
  rw [step_pending width hwidth, ofKey_append, ← List.append_assoc, nextBatch_ofKey_leftover,
    ← ofKey_append, front, List.take_append_drop]

theorem step_perm (width : Nat) (hwidth : 2 * width ≤ maxLanes) (policy : FlushPolicy)
    (d : Drain κ τ) :
    ((d.nextBatch width policy).items ++ (d.step width policy).pending).Perm d.pending := by
  apply perm_of_ofKey_eq
  intro key
  rw [ofKey_append]
  exact step_ofKey width hwidth policy d key

theorem nextBatch_fits {width : Nat} (hpos : 1 ≤ width) (policy : FlushPolicy) {d : Drain κ τ}
    (h : d.pending ≠ []) : (d.nextBatch width policy).Fits width := by
  have hfront := front_ne_nil hpos h
  by_cases hforced : policy.maxDeferrals < d.streak
  · simp only [nextBatch, if_pos hforced]
    exact ⟨List.length_pos_of_ne_nil hfront, front_length_le width d⟩
  · simp only [nextBatch, if_neg hforced]
    have hnodup := (firstsFrom_keys_nodup [] (d.front width)).sublist
      ((List.take_sublist width _).map Prod.fst)
    have hfirsts := List.length_pos_of_ne_nil (firsts_ne_nil hfront)
    refine ⟨?_, List.length_take_le .., hnodup⟩
    simp only [Batch.size, List.length_take]
    omega

theorem step_pending_length {width : Nat} (hpos : 1 ≤ width) (hwidth : 2 * width ≤ maxLanes)
    (policy : FlushPolicy) {d : Drain κ τ} (h : d.pending ≠ []) :
    (d.step width policy).pending.length < d.pending.length := by
  have hlen := (step_perm width hwidth policy d).length_eq
  have hbatch := List.length_pos_of_ne_nil (nextBatch_fits hpos policy h).items_ne_nil
  rw [List.length_append] at hlen
  omega

end Drain
end ConflictBatching
