import ConflictBatching.Lane.Repeat
import ConflictBatching.Measure.Basic
import ConflictBatching.Random.Draw

/-! # Measuring conflict detection

Random values, drawn from four times as many as there are lanes, are cut into vectors, and the
repeating lanes of each are counted.
-/
namespace ConflictBatching

structure ConflictParams where
  lanes : UInt64
  iterations : UInt64
  seed : UInt64
deriving DecidableEq

structure ConflictCounts where
  vectors : Nat := 0
  conflicting : Nat := 0
  /-- Vectors with such a lane. -/
  vectorsHit : Nat := 0
deriving DecidableEq

def ConflictCounts.add (c : ConflictCounts) (vector : List UInt32) : ConflictCounts :=
  let m := repeats vector
  ⟨c.vectors + 1, c.conflicting + m.count, c.vectorsHit + (!m.isEmpty).toNat⟩

/-- Looks at as many vectors of the given length as the values fill, and at most `fuel`. -/
def sweepVectors (lanes : Nat) : (fuel : Nat) → ConflictCounts → List UInt32 → ConflictCounts
  | 0, c, _ => c
  | fuel + 1, c, values =>
    let vector := values.take lanes
    if vector.length < lanes then c
    else sweepVectors lanes fuel (c.add vector) (values.drop lanes)

namespace ConflictParams

def total (p : ConflictParams) : Nat := p.lanes.toNat * p.iterations.toNat

def domain (p : ConflictParams) : Nat := 4 * p.lanes.toNat

/-- Why a sweep makes no sense. -/
def refusal? (p : ConflictParams) : Option CommandError :=
  if p.lanes = 0 ∨ maxLanes < p.lanes.toNat then some .lanesOutOfRange
  else if p.iterations = 0 then some .noIterations
  else if UInt64.size ≤ p.total then some .tooManyValues
  else none

/-- A sweep that is refused keeps nothing. -/
def hasRoom (p : ConflictParams) : Bool :=
  p.refusal?.isSome || ConflictBatching.hasRoom UInt32 p.total

def values (p : ConflictParams) : List UInt32 :=
  randomKeys p.total (UInt32.ofNat p.domain) p.seed

/-- The counts over all values. -/
def sweep (p : ConflictParams) (values : List UInt32) : ConflictCounts :=
  sweepVectors p.lanes.toNat values.length {} values

def report (p : ConflictParams) (c : ConflictCounts) (d : Duration) : Report :=
  { title := s!"conflict({p.lanes.toNat}, {p.iterations.toNat})"
    rows := [("value domain", .count p.domain), ("conflicting lanes", .count c.conflicting),
      ("conflicting lane share", .text (ratio c.conflicting p.total)),
      ("vectors with a conflict", .count c.vectorsHit),
      ("ns per vector", .perUnit d p.iterations.toNat)] }

end ConflictParams

def measureConflict {m : Type → Type} [Monad m] (watch : Stopwatch m) (p : ConflictParams) :
    m (Except CommandError Report) := do
  if let some refusal := p.refusal? then return .error refusal
  let values := p.values
  let (counts, d) ← watch.time fun _ => p.sweep values
  return .ok (p.report counts d)

end ConflictBatching
