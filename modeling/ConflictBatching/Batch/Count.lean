import ConflictBatching.Batch.Schedule

/-! # Counting the batches of a queue

The plain use of the scheduler: form a batch, step over it and go on until the queue is used up.
-/
namespace ConflictBatching
variable {κ τ : Type} [DecidableEq κ]

structure Sweep (κ τ : Type) where
  batches : Nat := 0
  taken : Array (κ × τ) := #[]
  pending : List (κ × τ)

def Sweep.step (width : Nat) (s : Sweep κ τ) : Sweep κ τ :=
  let (size, items) := arrange width (2 * width) s.pending
  ⟨s.batches + 1, s.taken ++ items.take size, items.drop size⟩

def Sweep.run (width : Nat) : (fuel : Nat) → Sweep κ τ → Sweep κ τ
  | 0, s => s
  | fuel + 1, s => if s.pending.isEmpty then s else run width fuel (s.step width)

def sweep (width : Nat) (items : List (κ × τ)) : Sweep κ τ :=
  Sweep.run width items.length { pending := items }

/-- The number of batches of standard width, and keys and tokens as the batches took them. Where
one list is longer, its rest stays. -/
def countBatches (keys : List κ) (tokens : List τ) : Scheduled κ τ :=
  let s := sweep standardWidth (keys.zip tokens)
  .ofItems keys tokens (s.batches, s.taken.toList ++ s.pending)

end ConflictBatching
