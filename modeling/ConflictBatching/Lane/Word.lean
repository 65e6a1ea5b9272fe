import ConflictBatching.Lane.Mask

/-! # Masks and vectors of lane words

A vector keeps one word of `w` bits in each of its `n` lanes. A mask expands to the vector whose
lanes are all ones or zero, and a vector collects to the mask of its top bits. Blending chooses
each lane from one of two vectors.
-/
namespace ConflictBatching

abbrev LaneVector (w n : Nat) := Vector (BitVec w) n

namespace LaneVector
variable {w n : Nat}

def zero (w n : Nat) : LaneVector w n := Vector.replicate n 0

def allOnes (w n : Nat) : LaneVector w n := Vector.replicate n (BitVec.allOnes w)

/-- The number of a lane as a word, truncated to the width. -/
def ofLane (w lane : Nat) : BitVec w := BitVec.ofNat w lane

def index (w n : Nat) : LaneVector w n := Vector.ofFn fun lane => ofLane w lane

/-- Lane `i` is all ones where the mask holds `i`, and zero elsewhere. -/
def ofMask (w n : Nat) (m : LaneMask) : LaneVector w n :=
  Vector.ofFn fun lane => if m.contains lane then BitVec.allOnes w else 0

def toMask (v : LaneVector w n) : LaneMask :=
  (List.finRange n).foldl (fun m lane => if (v.get lane).msb then m.insert lane else m) .empty

end LaneVector

/-- Lane `i` comes from `onTrue` where the mask holds `i`, and from `onFalse` elsewhere. -/
def blend {α : Type} {n : Nat} (m : LaneMask) (onTrue onFalse : Vector α n) : Vector α n :=
  Vector.ofFn fun lane => if m.contains lane then onTrue.get lane else onFalse.get lane

end ConflictBatching
