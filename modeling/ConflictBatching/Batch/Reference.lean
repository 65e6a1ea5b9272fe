import ConflictBatching.Batch.Schedule

/-! # The scheduler by lists

The same batch by a plain pass over the window: an item joins the first occurrences or the
repeats, whichever its key calls for, and the two lists are joined at the end. It works for any
width, also beyond the lanes of a mask.
-/
namespace ConflictBatching
variable {κ τ : Type} [DecidableEq κ]

/-- Twice the width in machine arithmetic, so that it wraps from half the word size on. -/
def referenceReach (width : Nat) : Nat := 2 * width % UInt64.size

/-- The first occurrences and the repeats among the items so far. -/
structure Occurrences (κ τ : Type) where
  firsts : Array (κ × τ) := #[]
  repeated : Array (κ × τ) := #[]

def Occurrences.add (s : Occurrences κ τ) (item : κ × τ) : Occurrences κ τ :=
  if s.firsts.any (·.1 = item.1) then { s with repeated := s.repeated.push item }
  else { s with firsts := s.firsts.push item }

def arrangeReference (width window : Nat) (items : List (κ × τ)) : Nat × List (κ × τ) :=
  let seen := (items.take window).foldl Occurrences.add {}
  (min seen.firsts.size width,
    seen.firsts.toList ++ seen.repeated.toList ++ items.drop window)

def scheduleReference (width : Nat) (keys : List κ) (tokens : List τ) (extent : Nat) :
    Scheduled κ τ :=
  .ofItems keys tokens
    (arrangeReference width (min extent (referenceReach width)) (keys.zip tokens))

end ConflictBatching
