import ConflictBatching.Guard.Apply

/-! # Batches and the events of a drain

A drain hands out batches, counts them and tells what happens in the order in which it happens.
-/
namespace ConflictBatching

inductive BatchKind where
  /-- The keys of the batch are pairwise distinct. -/
  | parallel
  /-- The items stand in queue order and keys may repeat. -/
  | sequential
deriving DecidableEq

structure Batch (κ τ : Type) where
  kind : BatchKind
  items : List (κ × τ)

namespace Batch
variable {κ τ : Type}

def size (b : Batch κ τ) : Nat := b.items.length

def keys (b : Batch κ τ) : List κ := b.items.map (·.1)

def tokens (b : Batch κ τ) : List τ := b.items.map (·.2)

end Batch

structure DrainStats where
  /-- Calls of the scheduler. -/
  calls : Nat := 0
  parallelBatches : Nat := 0
  sequentialBatches : Nat := 0
  parallelItems : Nat := 0
  sequentialItems : Nat := 0
  /-- Batches forced out by the policy. -/
  flushes : Nat := 0
deriving DecidableEq

def DrainStats.items (s : DrainStats) : Nat := s.parallelItems + s.sequentialItems

inductive Event (κ τ : Type) where
  /-- So many items are forced out after so many short batches. -/
  | flush (deferrals size : Nat)
  | deliver (batch : Batch κ τ)
  /-- The batch was delivered. -/
  | batch (kind : BatchKind) (size : Nat)
  | summary (stats : DrainStats)
  | guarded (stats : GuardStats)

def Event.delivered? {κ τ : Type} : Event κ τ → Option (Batch κ τ)
  | deliver b => some b
  | _ => none

end ConflictBatching
