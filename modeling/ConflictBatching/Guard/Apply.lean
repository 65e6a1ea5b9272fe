import ConflictBatching.Guard.Round

/-! # Applying operations

All operations in arrival order, either round after round or one at a time on the store. Each
round takes at least one operation, so there are at most as many rounds as operations.
-/
namespace ConflictBatching
open GuardedUpdate

structure GuardStats where
  rounds : Nat := 0
  /-- Operations that ran together with others or alone in a parallel round. -/
  parallelOps : Nat := 0
  /-- Operations that ran directly on the store. -/
  scalarOps : Nat := 0
  /-- Parallel rounds cut short by a repeated index. -/
  truncatedRounds : Nat := 0
deriving DecidableEq

namespace GuardStats

def add (s t : GuardStats) : GuardStats :=
  ⟨s.rounds + t.rounds, s.parallelOps + t.parallelOps, s.scalarOps + t.scalarOps,
    s.truncatedRounds + t.truncatedRounds⟩

instance : Add GuardStats := ⟨add⟩

def record (s : GuardStats) : Round → GuardStats
  | .idle => s
  | .scalar => { s with rounds := s.rounds + 1, scalarOps := s.scalarOps + 1 }
  | .parallel ops truncated =>
    { s with
      rounds := s.rounds + 1
      parallelOps := s.parallelOps + ops
      truncatedRounds := s.truncatedRounds + truncated.toNat }

end GuardStats

variable {ω ρ : Type} {arity : Nat} [GuardedUpdate ω ρ arity]

/-- Rounds until no operation is left, and at most `fuel` of them. -/
def applyRounds [Inhabited ρ] (width : Nat) :
    (fuel : Nat) → GuardStats → Array ρ → List ω → Option (GuardStats × Array ρ)
  | 0, stats, store, _ => some (stats, store)
  | fuel + 1, stats, store, ops =>
    match runRound width store ops with
    | none => none
    | some (.idle, store) => some (stats, store)
    | some (round, store) =>
      applyRounds width fuel (stats.record round) store (ops.drop round.consumed)

/-- Every operation through guarded rounds of at most `width` operations. Nothing if some
operation that ran directly on the store met an index outside it. -/
def applyGuarded [Inhabited ρ] (width : Nat) (store : Array ρ) (ops : List ω) :
    Option (GuardStats × Array ρ) :=
  applyRounds width ops.length {} store ops

def applySequential (store : Array ρ) (ops : List ω) : Option (Array ρ) :=
  ops.foldlM (fun store op => runDirect op store) store

end ConflictBatching
