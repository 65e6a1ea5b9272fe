import ConflictBatching.Batch.Schedule
import ConflictBatching.Queue.Basic
import ConflictBatching.Queue.Event

/-! # Draining a queue

A drain arranges the pending items, delivers the batch at their front and goes on with the rest.
A batch that stays below the wanted size while items remain is a deferral. After more deferrals
in a row than the policy allows, the next batch is the front of the pending items as they stand.
-/
namespace ConflictBatching

structure FlushPolicy where
  /-- So many deferrals in a row are tolerated. -/
  maxDeferrals : Nat := 4
  /-- A smaller parallel batch is a deferral while items remain. -/
  minBatch : Nat := 2
deriving DecidableEq

/-- No batch is small enough to be a deferral. -/
def FlushPolicy.never : FlushPolicy := ⟨UInt64.size - 1, 0⟩

/-- A drain under way. -/
structure Drain (κ τ : Type) where
  pending : List (κ × τ)
  /-- The deferrals in a row up to now. -/
  streak : Nat := 0
  stats : DrainStats := {}
  trace : Array (Event κ τ) := #[]

namespace Drain
variable {κ τ : Type} [DecidableEq κ]

/-- Delivers the front of the pending items as they stand. -/
def flush (width : Nat) (d : Drain κ τ) : Drain κ τ :=
  let b : Batch κ τ := ⟨.sequential, d.pending.take (2 * width)⟩
  let trace := d.trace.push (.flush d.streak b.size)
  { pending := d.pending.drop (2 * width)
    streak := 0
    stats := { d.stats with
      flushes := d.stats.flushes + 1
      sequentialBatches := d.stats.sequentialBatches + 1
      sequentialItems := d.stats.sequentialItems + b.size }
    trace := (trace.push (.deliver b)).push (.batch b.kind b.size) }

/-- Arranges the pending items and delivers the batch at their front. -/
def deliver (width : Nat) (policy : FlushPolicy) (d : Drain κ τ) : Drain κ τ :=
  let (size, items) := arrange width (2 * width) d.pending
  let b : Batch κ τ := ⟨.parallel, items.take size⟩
  let rest := items.drop size
  { pending := rest
    streak := if size < policy.minBatch ∧ ¬rest.isEmpty then d.streak + 1 else 0
    stats := { d.stats with
      calls := d.stats.calls + 1
      parallelBatches := d.stats.parallelBatches + 1
      parallelItems := d.stats.parallelItems + size }
    trace := (d.trace.push (.deliver b)).push (.batch b.kind size) }

/-- One batch, of the kind the policy calls for. -/
def step (width : Nat) (policy : FlushPolicy) (d : Drain κ τ) : Drain κ τ :=
  if policy.maxDeferrals < d.streak then d.flush width else d.deliver width policy

/-- Batches until nothing is pending, and at most `fuel` of them. -/
def run (width : Nat) (policy : FlushPolicy) : (fuel : Nat) → Drain κ τ → Drain κ τ
  | 0, d => d
  | fuel + 1, d => if d.pending.isEmpty then d else run width policy fuel (d.step width policy)

end Drain

/-- What a drain leaves: the items it did not reach, its counters and its events. -/
structure Drained (κ τ : Type) where
  queue : WorkQueue κ τ
  stats : DrainStats
  trace : List (Event κ τ)

/-- The delivered batches in order. -/
def Drained.batches {κ τ : Type} (d : Drained κ τ) : List (Batch κ τ) :=
  d.trace.filterMap Event.delivered?

/-- A batch delivers at least one item, so as many batches as items are enough. -/
def WorkQueue.drain {κ τ : Type} [DecidableEq κ] (width : Nat) (policy : FlushPolicy)
    (q : WorkQueue κ τ) : Drained κ τ :=
  let d := Drain.run width policy q.size { pending := q.items }
  ⟨⟨d.pending⟩, d.stats, (d.trace.push (.summary d.stats)).toList⟩

end ConflictBatching
