import ConflictBatching.Lane.Repeat
import ConflictBatching.Store.MaskedIndices

/-! # Guarded rounds

An operation reads and writes the records at a few store indices. A round lays out the indices of
its operations as interleaved lanes and is cut at the operation that owns the first repeated
lane. The operations before the cut touch pairwise distinct records, so they run as one gather,
one update per operation and one scatter. An operation that repeats an index by itself runs alone
and directly on the store.
-/
namespace ConflictBatching

/-- Operations `ω` over `arity` records of type `ρ`. The two ways to run one are expected to agree
whenever its indices are distinct and lie inside the store. -/
class GuardedUpdate (ω : Type) (ρ : outParam Type) (arity : outParam Nat) where
  refs : ω → Vector Nat arity
  /-- The records after the operation, from the records at `refs`. -/
  update : ω → Vector ρ arity → Vector ρ arity
  /-- The records after the operation, as many as before; nothing if it meets an index outside. -/
  applyScalar {n : Nat} : ω → Vector ρ n → Option (Vector ρ n)

open GuardedUpdate

inductive Round where
  | idle
  | scalar
  /-- So many operations ran together; the round may have been cut short. -/
  | parallel (ops : Nat) (truncated : Bool)
deriving DecidableEq

def Round.consumed : Round → Nat
  | idle => 0
  | scalar => 1
  | parallel ops _ => ops

variable {ω ρ : Type} {arity : Nat} [GuardedUpdate ω ρ arity]

def runDirect (op : ω) (store : Array ρ) : Option (Array ρ) :=
  (applyScalar op store.toVector).map Vector.toArray

def interleave (ops : List ω) : List Nat := ops.flatMap fun op => (refs op).toList

def safeOps (ops : List ω) : Nat :=
  match firstRepeat? (interleave ops) with
  | none => ops.length
  | some lane => min (lane / arity) ops.length

/-- The gathered records after the operation whose lanes start at `start`. -/
def updateSlot [Inhabited ρ] {n : Nat} (records : Vector ρ n) (start : Nat) (op : ω) :
    Vector ρ n :=
  let slot : Vector ρ arity := Vector.ofFn fun r => records[start + r]?.getD default
  let slot := update op slot
  (List.finRange arity).foldl
    (fun rs (r : Fin arity) => rs.setIfInBounds (start + r.val) (slot.get r)) records

def updateSlots [Inhabited ρ] {n : Nat} (records : Vector ρ n) (start : Nat) :
    List ω → Vector ρ n
  | [] => records
  | op :: ops => updateSlots (updateSlot records start op) (start + arity) ops

/-- Runs operations together: gather, update, scatter. Lanes outside the store stay inert. -/
def runTogether [Inhabited ρ] (store : Array ρ) (lanes : List Nat) (ops : List ω) : Array ρ :=
  let m : MaskedIndices maxLanes := MaskedIndices.inert.setFrom 0 lanes
  let m := (m.truncate (ops.length * arity)).fixup store.size
  scatter store m (updateSlots (gather store m) 0 ops)

def runRound [Inhabited ρ] (width : Nat) (store : Array ρ) (ops : List ω) :
    Option (Round × Array ρ) :=
  match ops.take width with
  | [] => some (.idle, store)
  | first :: rest =>
    let front := first :: rest
    let safe := safeOps front
    if safe = 0 then (runDirect first store).map (Round.scalar, ·)
    else some (.parallel safe (safe < front.length),
      runTogether store (interleave front) (front.take safe))

end ConflictBatching
