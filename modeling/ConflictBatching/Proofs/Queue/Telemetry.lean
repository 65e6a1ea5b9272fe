import Mathlib.Algebra.GroupWithZero.Nat
import ConflictBatching.Proofs.Queue.Counters
import ConflictBatching.Proofs.Queue.Flush

/-! # What is told of a drain

The events of a drain are those of its batches, one batch after the other, and a summary at the end.
Whoever only listens can count along: after any number of batches the counters are what the events up
to then add up to.
-/
namespace ConflictBatching
variable {κ τ : Type}

namespace Event

def isFlush : Event κ τ → Bool
  | flush _ _ => true
  | _ => false

def summary? : Event κ τ → Option DrainStats
  | summary stats => some stats
  | _ => none

end Event

/-- The sizes of the batches of a kind, in the order in which the events hand them out. -/
def deliveredSizes (kind : BatchKind) (events : List (Event κ τ)) : List Nat :=
  ((events.filterMap Event.delivered?).filter (·.kind = kind)).map Batch.size

/-- The counters are what a listener counts: batches and items of each kind by what is handed out, and
flushes also by their announcements. -/
structure DrainStats.Tallies (stats : DrainStats) (events : List (Event κ τ)) : Prop where
  calls : stats.calls = (deliveredSizes .parallel events).length
  parallelBatches : stats.parallelBatches = (deliveredSizes .parallel events).length
  sequentialBatches : stats.sequentialBatches = (deliveredSizes .sequential events).length
  parallelItems : stats.parallelItems = (deliveredSizes .parallel events).sum
  sequentialItems : stats.sequentialItems = (deliveredSizes .sequential events).sum
  flushes : stats.flushes = (deliveredSizes .sequential events).length
  announced : stats.flushes = events.countP Event.isFlush

/-! ## The events of some batches -/

section Events
variable (policy : FlushPolicy) (batches : List (Batch κ τ))

theorem Batch.delivered_events (b : Batch κ τ) :
    (b.events policy).filterMap Event.delivered? = [b] := by
  rw [Batch.events]
  split <;> rfl

theorem Batch.summary_events (b : Batch κ τ) :
    (b.events policy).filterMap Event.summary? = [] := by
  rw [Batch.events]
  split <;> rfl

theorem Batch.countP_isFlush_events (b : Batch κ τ) :
    (b.events policy).countP Event.isFlush = if b.kind = .sequential then 1 else 0 := by
  rw [Batch.events]
  cases b.kind <;> rfl

theorem delivered_flatMap_events :
    (batches.flatMap (Batch.events policy)).filterMap Event.delivered? = batches := by
  simp only [List.filterMap_flatMap, Batch.delivered_events, List.flatMap_singleton']

theorem summary_flatMap_events :
    (batches.flatMap (Batch.events policy)).filterMap Event.summary? = [] := by
  rw [List.filterMap_flatMap, List.flatMap_eq_nil_iff]
  exact fun b _ => b.summary_events policy

theorem countP_isFlush_flatMap_events :
    (batches.flatMap (Batch.events policy)).countP Event.isFlush =
      batches.countP (·.kind = .sequential) := by
  induction batches with
  | nil => rfl
  | cons b bs ih =>
    rw [List.flatMap_cons, List.countP_append, Batch.countP_isFlush_events, ih, List.countP_cons,
      Nat.add_comm]
    simp only [decide_eq_true_eq]

theorem itemCount_eq_sum : itemCount batches = (batches.map Batch.size).sum := List.length_flatMap

/-- Nothing that is told after the batches counts if it neither hands out a batch nor announces one. -/
theorem DrainStats.tallies_events {after : List (Event κ τ)}
    (hdelivered : after.filterMap Event.delivered? = []) (hflushes : after.countP Event.isFlush = 0) :
    (ofBatches batches).Tallies (batches.flatMap (Batch.events policy) ++ after) := by
  have hsizes (kind : BatchKind) :
      deliveredSizes kind (batches.flatMap (Batch.events policy) ++ after) =
        (batches.filter (·.kind = kind)).map Batch.size := by
    rw [deliveredSizes, List.filterMap_append, delivered_flatMap_events, hdelivered, List.append_nil]
  have hlength (kind : BatchKind) : batches.countP (·.kind = kind) =
      (deliveredSizes kind (batches.flatMap (Batch.events policy) ++ after)).length := by
    rw [hsizes, List.length_map, List.countP_eq_length_filter]
  have hsum (kind : BatchKind) : itemCount (batches.filter (·.kind = kind)) =
      (deliveredSizes kind (batches.flatMap (Batch.events policy) ++ after)).sum := by
    rw [hsizes, itemCount_eq_sum]
  refine ⟨hlength _, hlength _, hlength _, hsum _, hsum _, hlength _, ?_⟩
  rw [List.countP_append, hflushes, countP_isFlush_flatMap_events]
  rfl

end Events

variable [DecidableEq κ]

namespace WorkQueue
variable {width : Nat} (hwidth : 2 * width ≤ maxLanes) (policy : FlushPolicy) (q : WorkQueue κ τ)
include hwidth

/-- At every point of a drain a listener has counted what the drain has counted. -/
theorem drainAt_tallies (k : Nat) : (q.drainAt width policy k).stats.Tallies
    (q.drainAt width policy k).trace.toList := by
  have hstats : (q.drainAt width policy k).stats = .ofBatches (q.drainAt width policy k).batches :=
    Drain.run_stats hwidth k rfl
  rw [(q.drainAt_paced hwidth policy k).trace_eq, hstats, ← List.append_nil (List.flatMap _ _)]
  exact DrainStats.tallies_events policy _ rfl rfl

theorem drain_tallies : (q.drain width policy).stats.Tallies (q.drain width policy).trace := by
  rw [q.drain_trace hwidth, q.drain_stats hwidth]
  exact DrainStats.tallies_events policy _ rfl rfl

theorem drain_summary :
    (q.drain width policy).trace.filterMap Event.summary? = [(q.drain width policy).stats] := by
  rw [q.drain_trace hwidth, List.filterMap_append, summary_flatMap_events]
  rfl

end WorkQueue

/-- A drain tells of every batch in order: the announcement if it is forced out, the batch itself, and
its kind and size. The summary comes once, at the end, with the counters that are returned. These are
what the events add up to, at the end as after any number of batches, and they count every queued item
once. -/
theorem drain_tells_what_it_counts {width : Nat} (hpos : 1 ≤ width) (hmax : width ≤ 16)
    (policy : FlushPolicy) (q : WorkQueue κ τ) :
    let d := q.drain width policy
    d.trace = d.batches.flatMap (Batch.events policy) ++ [.summary d.stats] ∧
    d.trace.filterMap Event.summary? = [d.stats] ∧
    d.stats.Tallies d.trace ∧
    d.stats.items = q.size ∧
    ∀ k, (q.drainAt width policy k).stats.Tallies (q.drainAt width policy k).trace.toList := by
  intro d
  have hwidth := window_le_maxLanes hmax
  exact ⟨q.drain_trace hwidth policy, q.drain_summary hwidth policy, q.drain_tallies hwidth policy,
    q.drain_items hwidth policy hpos, q.drainAt_tallies hwidth policy⟩

/-- Six items of one key, and one deferral is tolerated: the third batch is forced out and takes all
that is left. -/
theorem drain_tells_of_last_flush :
    let q : WorkQueue Nat Nat := ⟨(List.range 6).map (7, ·)⟩
    let d := q.drain 2 ⟨1, 2⟩
    1 ≤ 2 ∧ 2 ≤ 16 ∧ d.stats = ⟨2, 2, 1, 2, 4, 1⟩ ∧
      d.trace.filterMap Event.summary? = [d.stats] ∧
      d.stats.Tallies d.trace ∧ d.stats.items = 6 ∧
      d.trace = d.batches.flatMap (Batch.events ⟨1, 2⟩) ++ [.summary d.stats] := by
  intro q d
  obtain ⟨htrace, hsummary, htallies, hitems, -⟩ :=
    drain_tells_what_it_counts (show 1 ≤ 2 by decide) (show 2 ≤ 16 by decide) ⟨1, 2⟩ q
  exact ⟨by decide, by decide, by decide +kernel, hsummary, htallies, hitems, htrace⟩

end ConflictBatching
