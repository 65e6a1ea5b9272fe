import ConflictBatching.Lane.Mask

/-! # Equal values within a lane vector

Two readings of the same question: for each active lane the earlier active lanes that hold its
value, and for a whole list the lanes that repeat some earlier value. Both compare every pair.
-/
namespace ConflictBatching
variable {α : Type} [DecidableEq α]

/-- For every active lane, the earlier active lanes with an equal value. Inactive lanes get the
empty mask and count for no other lane. -/
def earlierEqual {n : Nat} (values : Vector α n) (active : LaneMask) : Vector LaneMask n :=
  Vector.ofFn fun lane =>
    if active.contains lane then
      let earlier := active &&& .firstN lane
      .ofLanes (earlier.lanes.filter fun j => values[j]? = some (values.get lane))
    else .empty

/-- Adds the lanes of `values`, counted from `lane`, that repeat a value of `earlier` or of a
lane before them. -/
def addRepeats (earlier : List α) (lane : Nat) (m : LaneMask) : List α → LaneMask
  | [] => m
  | v :: vs => addRepeats (v :: earlier) (lane + 1) (if v ∈ earlier then m.insert lane else m) vs

/-- The lanes that repeat the value of an earlier lane. Only the first `maxLanes` are looked at. -/
def repeats (values : List α) : LaneMask := addRepeats [] 0 .empty (values.take maxLanes)

def firstRepeat? (values : List α) : Option Nat := (repeats values).first?

end ConflictBatching
