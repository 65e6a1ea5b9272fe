import Mathlib.Data.List.DropRight
import ConflictBatching.Proofs.Queue.Lookahead

/-! # When a batch is forced out

The streak of a drain is the number of short batches at the end of what was delivered, for as long
as items remain. It never gets past the one deferral too many, because the batch after that one is
forced out and starts it over. So the batches before a batch decide its kind, and every forced batch
is announced with the same number of deferrals.
-/
namespace ConflictBatching
variable {κ τ : Type}

/-- A batch that is a deferral if items remain after it. -/
def Batch.Short (policy : FlushPolicy) (b : Batch κ τ) : Prop :=
  b.kind = .parallel ∧ b.size < policy.minBatch

instance (policy : FlushPolicy) (b : Batch κ τ) : Decidable (b.Short policy) :=
  inferInstanceAs (Decidable (_ ∧ _))

/-- What is told of a batch, in order. -/
def Batch.events (policy : FlushPolicy) (b : Batch κ τ) : List (Event κ τ) :=
  match b.kind with
  | .parallel => [.deliver b, .batch .parallel b.size]
  | .sequential =>
    [.flush (policy.maxDeferrals + 1) b.size, .deliver b, .batch .sequential b.size]

theorem le_length_takeWhile_iff {α : Type} {p : α → Bool} {items : List α} {n : Nat} :
    n ≤ (items.takeWhile p).length ↔ n ≤ items.length ∧ ∀ x ∈ items.take n, p x = true := by
  induction items generalizing n with
  | nil => simp
  | cons x xs ih =>
    cases n with
    | zero => simp
    | succ n =>
      by_cases hx : p x
      · simp [hx, ih]
      · simp [hx]

theorem le_length_rtakeWhile_iff {α : Type} {p : α → Bool} {items : List α} {n : Nat} :
    n ≤ (items.rtakeWhile p).length ↔
      n ≤ items.length ∧ ∀ x ∈ items.drop (items.length - n), p x = true := by
  rw [List.rtakeWhile, List.length_reverse, le_length_takeWhile_iff, List.length_reverse,
    List.take_reverse]
  simp only [List.mem_reverse]

variable [DecidableEq κ]

namespace Drain

/-- What holds of a drain before each of its batches. -/
structure Paced (policy : FlushPolicy) (d : Drain κ τ) : Prop where
  streak_le : d.streak ≤ policy.maxDeferrals + 1
  streak_eq : d.pending ≠ [] → d.streak = (d.batches.rtakeWhile (·.Short policy)).length
  trace_eq : d.trace.toList = d.batches.flatMap (Batch.events policy)

section Step
variable {width : Nat} {policy : FlushPolicy} {d : Drain κ τ}

theorem nextBatch_kind_eq_sequential_iff :
    (d.nextBatch width policy).kind = .sequential ↔ policy.maxDeferrals < d.streak := by
  rw [nextBatch]
  split <;> simp_all

/-- A step tells of its batch what there is to tell of it. -/
theorem step_trace (hwidth : 2 * width ≤ maxLanes) (h : d.Paced policy) :
    (d.step width policy).trace.toList =
      d.trace.toList ++ (d.nextBatch width policy).events policy := by
  by_cases hforced : policy.maxDeferrals < d.streak
  · have hstreak : d.streak = policy.maxDeferrals + 1 := Nat.le_antisymm h.streak_le hforced
    simp [step, nextBatch, flush, front, Batch.events, hstreak]
  · have htake := arrange_take width hwidth d.pending
    have hsize : (arrange width (2 * width) d.pending).1 =
        min (firsts (d.pending.take (2 * width))).length width := by
      rw [arrange_eq width hwidth]
    rw [hsize] at htake
    simp [step, nextBatch, hforced, deliver, front, Batch.events, Batch.size, htake, hsize,
      Nat.min_comm width]

theorem Paced.step (hwidth : 2 * width ≤ maxLanes) (h : d.Paced policy) (hne : d.pending ≠ []) :
    (d.step width policy).Paced policy := by
  have hbatches := step_batches width hwidth policy d
  have hstreak := step_streak width hwidth policy d
  refine ⟨?_, ?_, ?_⟩
  · rw [hstreak]
    split
    · next hshort =>
      have hcalm : ¬policy.maxDeferrals < d.streak := by
        intro hforced
        have hkind := hshort.1
        rw [nextBatch_kind_eq_sequential_iff.mpr hforced] at hkind
        cases hkind
      omega
    · exact Nat.zero_le _
  · intro hrest
    rw [hstreak, hbatches]
    by_cases hshort : (d.nextBatch width policy).Short policy
    · rw [if_pos ⟨hshort.1, hshort.2, hrest⟩, List.rtakeWhile_concat_pos _ _ _ (by simpa using hshort),
        List.length_append, h.streak_eq hne, List.length_singleton]
    · rw [if_neg fun hall => hshort ⟨hall.1, hall.2.1⟩,
        List.rtakeWhile_concat_neg _ _ _ (by simpa using hshort), List.length_nil]
  · rw [step_trace hwidth h, hbatches, h.trace_eq, List.flatMap_append, List.flatMap_singleton]

theorem Paced.run (hwidth : 2 * width ≤ maxLanes) (h : d.Paced policy) (n : Nat) :
    (run width policy n d).Paced policy := by
  induction n generalizing d with
  | zero => exact h
  | succ n ih =>
    by_cases hne : d.pending = []
    · rwa [run_of_pending_nil _ _ _ hne]
    · rw [run_succ _ hne]
      exact ih (h.step hwidth hne)

end Step
end Drain

namespace WorkQueue
variable {width : Nat} (hpos : 1 ≤ width) (hwidth : 2 * width ≤ maxLanes) (policy : FlushPolicy)
include hwidth

theorem drainAt_paced (q : WorkQueue κ τ) (k : Nat) : (q.drainAt width policy k).Paced policy :=
  Drain.Paced.run hwidth ⟨Nat.zero_le _, fun _ => rfl, rfl⟩ k

theorem drain_trace (q : WorkQueue κ τ) :
    (q.drain width policy).trace =
      (q.drain width policy).batches.flatMap (Batch.events policy) ++
        [.summary (q.drain width policy).stats] := by
  have htrace := (q.drainAt_paced hwidth policy q.size).trace_eq
  rw [drainAt, Drain.run_batches width hwidth] at htrace
  rw [q.drain_batches hwidth, drain, Array.toList_push, htrace]
  rfl

include hpos

/-- The batches before a batch decide whether it is forced out. -/
theorem sequential_iff_after_short {q : WorkQueue κ τ} {k : Nat} {b : Batch κ τ}
    (h : (q.drain width policy).batches[k]? = some b) :
    b.kind = .sequential ↔ policy.maxDeferrals + 1 ≤ k ∧
      ∀ c ∈ ((q.drain width policy).batches.take k).drop (k - (policy.maxDeferrals + 1)),
        c.Short policy := by
  have hne : (q.drainAt width policy k).pending ≠ [] := by
    intro hnil
    rw [q.getElem?_batches hpos hwidth, hnil] at h
    cases h
  have htake := q.drain_batches_take hpos hwidth policy k
  have hlen : (q.drainAt width policy k).batches.length = k := by
    obtain ⟨hlt, -⟩ := List.getElem?_eq_some_iff.mp h
    rw [← htake, List.length_take, Nat.min_eq_left hlt.le]
  have hstreak := (q.drainAt_paced hwidth policy k).streak_eq hne
  rw [eq_nextBatch_of_getElem? hpos hwidth policy h, Drain.nextBatch_kind_eq_sequential_iff, hstreak,
    ← Nat.succ_le_iff, le_length_rtakeWhile_iff, hlen, htake]
  simp only [decide_eq_true_eq]

theorem sequential_items {q : WorkQueue κ τ} {k : Nat} {b : Batch κ τ}
    (h : (q.drain width policy).batches[k]? = some b) (hkind : b.kind = .sequential) :
    b.items = (q.drainAt width policy k).pending.take
      (min (2 * width) (q.drainAt width policy k).pending.length) := by
  rw [eq_nextBatch_of_getElem? hpos hwidth policy h] at hkind ⊢
  rw [Drain.nextBatch, if_pos (Drain.nextBatch_kind_eq_sequential_iff.mp hkind), Drain.front,
    ← List.take_eq_take_min]

end WorkQueue

/-- A batch is forced out exactly when one batch more than the tolerated deferrals comes right before
it and all of these are short. It holds the first pending items as they stand, and the events of the
run announce it with that number and its size. So no longer row of batches is short. -/
theorem drain_flushes_after_short_batches {width : Nat} (hpos : 1 ≤ width) (hmax : width ≤ 16)
    (policy : FlushPolicy) (q : WorkQueue κ τ) :
    let d := q.drain width policy
    let wait := policy.maxDeferrals + 1
    (∀ k b, d.batches[k]? = some b →
      d.batches.take k = (q.drainAt width policy k).batches ∧
      (b.kind = .sequential ↔
        wait ≤ k ∧ ∀ c ∈ (d.batches.take k).drop (k - wait), c.Short policy) ∧
      (b.kind = .sequential →
        b.items = (q.drainAt width policy k).pending.take
          (min (2 * width) (q.drainAt width policy k).pending.length))) ∧
    d.trace = d.batches.flatMap (Batch.events policy) ++ [.summary d.stats] ∧
    ∀ i n, (∀ j < n, ∃ b, d.batches[i + j]? = some b ∧ b.Short policy) → n ≤ wait := by
  intro d wait
  have hwidth := window_le_maxLanes hmax
  refine ⟨?_, q.drain_trace hwidth policy, ?_⟩
  · intro k b hb
    exact ⟨q.drain_batches_take hpos hwidth policy k,
      WorkQueue.sequential_iff_after_short hpos hwidth policy hb,
      WorkQueue.sequential_items hpos hwidth policy hb⟩
  · intro i n hshort
    by_contra hlong
    -- The batch after the first `wait` of them would have been forced out.
    obtain ⟨b, hb, hkind, -⟩ := hshort wait (Nat.lt_of_not_le hlong)
    have hforced : b.kind = .sequential := by
      rw [WorkQueue.sequential_iff_after_short hpos hwidth policy hb]
      refine ⟨Nat.le_add_left .., ?_⟩
      intro c hc
      obtain ⟨j, hj⟩ := List.mem_iff_getElem?.mp hc
      rw [Nat.add_sub_cancel, List.getElem?_drop, List.getElem?_take] at hj
      split at hj
      · obtain ⟨c', hc', hcshort⟩ := hshort j (by omega)
        rw [hc', Option.some.injEq] at hj
        exact hj ▸ hcshort
      · cases hj
    rw [hkind] at hforced
    cases hforced

/-- Eight items of one key, and one deferral is tolerated: the third batch is forced out. -/
theorem drain_flushes_third_batch :
    let q : WorkQueue Nat Nat := ⟨(List.range 8).map (7, ·)⟩
    let d := q.drain 2 ⟨1, 2⟩
    1 ≤ 2 ∧ 2 ≤ 16 ∧ ∃ b, d.batches[2]? = some b ∧ b.kind = .sequential ∧
      (∀ c ∈ (d.batches.take 2).drop (2 - (1 + 1)), c.Short ⟨1, 2⟩) ∧
      b.items = [(7, 2), (7, 3), (7, 4), (7, 5)] ∧
      d.trace = d.batches.flatMap (Batch.events ⟨1, 2⟩) ++ [.summary d.stats] := by
  intro q d
  have hkind : d.batches[2]?.map Batch.kind = some .sequential := by decide +kernel
  have hitems : (q.drainAt 2 ⟨1, 2⟩ 2).pending.take
      (min (2 * 2) (q.drainAt 2 ⟨1, 2⟩ 2).pending.length) =
        [(7, 2), (7, 3), (7, 4), (7, 5)] := by decide +kernel
  obtain ⟨b, hb, hsequential⟩ := Option.map_eq_some_iff.mp hkind
  obtain ⟨hforced, htrace, -⟩ :=
    drain_flushes_after_short_batches (show 1 ≤ 2 by decide) (show 2 ≤ 16 by decide) ⟨1, 2⟩ q
  obtain ⟨-, hiff, hfront⟩ := hforced 2 b hb
  exact ⟨by decide, by decide, b, hb, hsequential, (hiff.mp hsequential).2,
    (hfront hsequential).trans hitems, htrace⟩

end ConflictBatching
