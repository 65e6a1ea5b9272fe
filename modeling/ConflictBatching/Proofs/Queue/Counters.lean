import ConflictBatching.Proofs.Queue.Delivery

/-! # The counters of a drain

After any number of batches the counters are those of the batches delivered: how many there are of each
kind and how many items these hold. So a whole drain counts every queued item once.
-/
namespace ConflictBatching
variable {κ τ : Type}

namespace DrainStats

/-- The batches of each kind and their items, counted. The scheduler is called for the parallel ones
and the others are forced out. -/
def ofBatches (batches : List (Batch κ τ)) : DrainStats where
  calls := batches.countP (·.kind = .parallel)
  parallelBatches := batches.countP (·.kind = .parallel)
  sequentialBatches := batches.countP (·.kind = .sequential)
  parallelItems := itemCount (batches.filter (·.kind = .parallel))
  sequentialItems := itemCount (batches.filter (·.kind = .sequential))
  flushes := batches.countP (·.kind = .sequential)

theorem items_ofBatches (batches : List (Batch κ τ)) :
    (ofBatches batches).items = itemCount batches := by
  change itemCount _ + itemCount _ = itemCount batches
  induction batches with
  | nil => rfl
  | cons b bs ih =>
    rw [itemCount_cons, ← ih]
    cases hkind : b.kind with
    | parallel => simp [hkind, Nat.add_assoc]
    | sequential => simp [hkind, Nat.add_left_comm]

end DrainStats

variable [DecidableEq κ]

namespace Drain
variable {width : Nat} {policy : FlushPolicy} {d : Drain κ τ}

/-- A step counts the batch that it delivers. -/
theorem step_stats (hwidth : 2 * width ≤ maxLanes) (h : d.stats = .ofBatches d.batches) :
    (d.step width policy).stats = .ofBatches (d.step width policy).batches := by
  rw [step_batches width hwidth]
  by_cases hforced : policy.maxDeferrals < d.streak
  · simp [step, nextBatch, hforced, flush, h, DrainStats.ofBatches, itemCount, front, Batch.size]
  · have hsize : (arrange width (2 * width) d.pending).1 =
        min (firsts (d.pending.take (2 * width))).length width := by
      rw [arrange_eq width hwidth]
    simp [step, nextBatch, hforced, deliver, h, DrainStats.ofBatches, itemCount, front, hsize,
      Nat.min_comm width]

theorem run_stats (hwidth : 2 * width ≤ maxLanes) (n : Nat) (h : d.stats = .ofBatches d.batches) :
    (run width policy n d).stats = .ofBatches (run width policy n d).batches := by
  induction n generalizing d with
  | zero => exact h
  | succ n ih =>
    by_cases hne : d.pending = []
    · rwa [run_of_pending_nil _ _ _ hne]
    · rw [run_succ _ hne]
      exact ih (step_stats hwidth h)

end Drain

namespace WorkQueue
variable {width : Nat} (hwidth : 2 * width ≤ maxLanes) (policy : FlushPolicy)
include hwidth

theorem drain_stats (q : WorkQueue κ τ) :
    (q.drain width policy).stats = .ofBatches (q.drain width policy).batches := by
  have hstats : (Drain.run width policy q.size q.undrained).stats =
      .ofBatches (Drain.run width policy q.size q.undrained).batches :=
    Drain.run_stats hwidth q.size rfl
  rw [Drain.run_batches width hwidth] at hstats
  rw [q.drain_batches hwidth]
  exact hstats

/-- A drain counts every queued item once. -/
theorem drain_items (hpos : 1 ≤ width) (q : WorkQueue κ τ) :
    (q.drain width policy).stats.items = q.size := by
  rw [q.drain_stats hwidth policy, DrainStats.items_ofBatches]
  exact (q.drain_items_perm hpos hwidth policy).length_eq

end WorkQueue
end ConflictBatching
