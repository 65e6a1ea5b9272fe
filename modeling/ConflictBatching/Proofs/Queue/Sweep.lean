import ConflictBatching.Batch.Count
import ConflictBatching.Proofs.Queue.Delivery

/-! # Sweeping a queue is draining it without flushes

A policy for which no batch is short never forces one out. Each step of such a drain is a step of the
plain loop over the scheduler, so the two take the same batches. How many these are is bounded by
the width of a batch and, since no key comes twice in one batch, by the items of any one key.
-/
namespace ConflictBatching
variable {κ τ : Type}

theorem itemCount_le_mul {width : Nat} {batches : List (Batch κ τ)}
    (h : ∀ b ∈ batches, b.size ≤ width) : itemCount batches ≤ batches.length * width := by
  induction batches with
  | nil => exact Nat.zero_le _
  | cons b bs ih =>
    obtain ⟨hb, hbs⟩ := List.forall_mem_cons.mp h
    have hrest := ih hbs
    rw [itemCount_cons, List.length_cons, Nat.succ_mul]
    omega

theorem length_le_itemCount {batches : List (Batch κ τ)} (h : ∀ b ∈ batches, 1 ≤ b.size) :
    batches.length ≤ itemCount batches := by
  induction batches with
  | nil => exact Nat.zero_le _
  | cons b bs ih =>
    obtain ⟨hb, hbs⟩ := List.forall_mem_cons.mp h
    have hrest := ih hbs
    rw [itemCount_cons, List.length_cons]
    omega

variable [DecidableEq κ]

/-- A batch takes at most one item of a key. -/
theorem count_keys_le_length {batches : List (Batch κ τ)} (h : ∀ b ∈ batches, b.keys.Nodup)
    (key : κ) : (batches.flatMap Batch.keys).count key ≤ batches.length := by
  induction batches with
  | nil => exact Nat.le_refl 0
  | cons b bs ih =>
    obtain ⟨hb, hbs⟩ := List.forall_mem_cons.mp h
    have hone := List.nodup_iff_count_le_one.mp hb key
    have hrest := ih hbs
    rw [List.flatMap_cons, List.count_append, List.length_cons]
    omega

namespace Drain

section Calm
variable {width : Nat} {policy : FlushPolicy} {d : Drain κ τ}

theorem nextBatch_of_streak_zero (hd : d.streak = 0) :
    d.nextBatch width policy = ⟨.parallel, (firsts (d.front width)).take width⟩ := by
  simp [nextBatch, hd]

theorem step_streak_zero (hwidth : 2 * width ≤ maxLanes) (hmin : policy.minBatch = 0) :
    (d.step width policy).streak = 0 := by
  simp [step_streak width hwidth, hmin]

theorem step_flushes (hd : d.streak = 0) :
    (d.step width policy).stats.flushes = d.stats.flushes := by
  simp [step, hd, deliver]

theorem upcoming_parallel (hwidth : 2 * width ≤ maxLanes) (hmin : policy.minBatch = 0) {n : Nat}
    (hd : d.streak = 0) : ∀ b ∈ upcoming width policy n d, b.kind = .parallel := by
  induction n generalizing d with
  | zero => simp [upcoming]
  | succ n ih =>
    by_cases h : d.pending = []
    · simp [upcoming_of_pending_nil _ _ _ h]
    · rw [upcoming_succ _ h, nextBatch_of_streak_zero hd]
      exact List.forall_mem_cons.mpr ⟨rfl, ih (step_streak_zero hwidth hmin)⟩

theorem run_flushes (hwidth : 2 * width ≤ maxLanes) (hmin : policy.minBatch = 0) (n : Nat)
    (hd : d.streak = 0) : (run width policy n d).stats.flushes = d.stats.flushes := by
  induction n generalizing d with
  | zero => rfl
  | succ n ih =>
    by_cases h : d.pending = []
    · rw [run_of_pending_nil _ _ _ h]
    · rw [run_succ _ h, ih (step_streak_zero hwidth hmin), step_flushes hd]

end Calm
end Drain

namespace Sweep
variable {width : Nat} (hwidth : 2 * width ≤ maxLanes) {policy : FlushPolicy}
  (hmin : policy.minBatch = 0)
include hwidth

theorem step_eq (policy : FlushPolicy) {s : Sweep κ τ} {d : Drain κ τ} (h : s.pending = d.pending)
    (hd : d.streak = 0) :
    s.step width = ⟨s.batches + 1, s.taken ++ (d.nextBatch width policy).items,
      (d.step width policy).pending⟩ := by
  have hleft : d.leftover width policy =
      (firsts (d.front width)).drop width ++ repeated (d.front width) := by
    simp [Drain.leftover, hd]
  rw [Drain.nextBatch_of_streak_zero hd, Drain.step_pending width hwidth, hleft]
  simp only [step, h, arrange_take width hwidth, arrange_drop width hwidth, Drain.front]

include hmin

/-- The loop takes the batches of the drain and leaves what it leaves. -/
theorem run_eq (n : Nat) {s : Sweep κ τ} {d : Drain κ τ} (h : s.pending = d.pending)
    (hd : d.streak = 0) :
    (run width n s).batches = s.batches + (Drain.upcoming width policy n d).length ∧
    (run width n s).taken.toList =
      s.taken.toList ++ (Drain.upcoming width policy n d).flatMap Batch.items ∧
    (run width n s).pending = (Drain.run width policy n d).pending := by
  induction n generalizing s d with
  | zero => simp [run, Drain.run, Drain.upcoming, h]
  | succ n ih =>
    rw [run, h]
    by_cases hne : d.pending = []
    · simp [hne, Drain.upcoming_of_pending_nil, Drain.run_of_pending_nil, h]
    · have hstep := step_eq hwidth policy h hd
      obtain ⟨hbatches, htaken, hpending⟩ := ih (s := s.step width) (d := d.step width policy)
        (by rw [hstep]) (Drain.step_streak_zero hwidth hmin)
      rw [if_neg (by simpa using hne), Drain.upcoming_succ _ hne, Drain.run_succ _ hne]
      have hcount : (s.step width).batches = s.batches + 1 := by rw [hstep]
      refine ⟨?_, ?_, hpending⟩
      · rw [hbatches, hcount, List.length_cons]
        omega
      · rw [htaken, hstep, List.flatMap_cons, Array.toList_appendList, List.append_assoc]

end Sweep

theorem FlushPolicy.never_minBatch : FlushPolicy.never.minBatch = 0 := rfl

/-- A sweep takes exactly the batches of a drain that never flushes. -/
theorem sweep_eq {width : Nat} (hpos : 1 ≤ width) (hwidth : 2 * width ≤ maxLanes)
    (q : WorkQueue κ τ) :
    (sweep width q.items).batches = (q.drain width .never).batches.length ∧
    (sweep width q.items).taken.toList = (q.drain width .never).batches.flatMap Batch.items ∧
    (sweep width q.items).pending = [] := by
  obtain ⟨hbatches, htaken, hpending⟩ := Sweep.run_eq hwidth FlushPolicy.never_minBatch q.size
    (s := { pending := q.items }) (d := q.undrained) rfl rfl
  rw [q.drain_batches hwidth]
  refine ⟨?_, htaken, ?_⟩
  · exact hbatches.trans (Nat.zero_add _)
  · exact hpending.trans (q.run_undrained_pending hpos hwidth .never)

end ConflictBatching
