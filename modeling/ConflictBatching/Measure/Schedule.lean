import ConflictBatching.Batch.Count
import ConflictBatching.Measure.Basic
import ConflictBatching.Random.Draw

/-! # Measuring the scheduler

A queue of random keys is used up by batches of standard width.
-/
namespace ConflictBatching

structure ScheduleParams where
  qlen : UInt32
  modulo : UInt32
  seed : UInt64
deriving DecidableEq

def ScheduleParams.keys (p : ScheduleParams) : List UInt32 :=
  randomKeys p.qlen.toNat p.modulo p.seed

def ScheduleParams.report (p : ScheduleParams) (batches : Nat) (d : Duration) : Report :=
  { title := s!"schedule_batch({p.qlen.toNat}, {p.modulo.toNat})"
    rows := [("batches", .count batches), ("total time", .elapsed d),
      ("ns per call", .perUnit d batches), ("ns per item", .perUnit d p.qlen.toNat),
      ("mean batch size", .text (ratio p.qlen.toNat batches))] }

def measureSchedule {m : Type → Type} [Monad m] (watch : Stopwatch m) (p : ScheduleParams) :
    m (Except CommandError Report) := do
  if p.qlen = 0 ∨ p.modulo = 0 then return .error .emptyQueue
  let keys := p.keys
  let tokens := (List.range p.qlen.toNat).map UInt32.ofNat
  let (counted, d) ← watch.time fun _ => countBatches keys tokens
  return .ok (p.report counted.size d)

end ConflictBatching
