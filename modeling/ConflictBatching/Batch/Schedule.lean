import ConflictBatching.Lane.Partition
import ConflictBatching.Lane.Repeat

/-! # Forming one batch

A batch is formed from a window at the front of the pending items. The window is partitioned
into the first occurrences of its keys followed by the repeats, both in order, and the batch is
the first occurrences, up to the width. A repeat only ever moves behind a first occurrence of
another key, so the items of one key keep their order.
-/
namespace ConflictBatching
variable {κ τ : Type} [DecidableEq κ]

def standardWidth : Nat := 8

def lookahead : Nat := 2 * standardWidth

def maxWindow : Nat := 2 * lookahead

/-- The size of the batch and the items after a window of at most `window` items was arranged. -/
def arrange (width window : Nat) (items : List (κ × τ)) : Nat × List (κ × τ) :=
  let front := items.take window
  let firsts := ~~~(repeats (front.map (·.1))) &&& .firstN front.length
  let (unique, front) := partitionItems firsts front
  (min unique width, front ++ items.drop window)

/-- Keys and tokens after one call, and the size of the batch at their front. -/
structure Scheduled (κ τ : Type) where
  size : Nat
  keys : List κ
  tokens : List τ

/-- Keys and tokens are arranged in lockstep as far as both go; the rest of the longer list
stays. -/
def Scheduled.ofItems (keys : List κ) (tokens : List τ) (arranged : Nat × List (κ × τ)) :
    Scheduled κ τ :=
  let n := min keys.length tokens.length
  ⟨arranged.1, arranged.2.map (·.1) ++ keys.drop n, arranged.2.map (·.2) ++ tokens.drop n⟩

/-- The window reaches over twice the width, within the extent. -/
def schedule (width : Nat) (keys : List κ) (tokens : List τ) (extent : Nat) : Scheduled κ τ :=
  .ofItems keys tokens (arrange width (min extent (2 * width)) (keys.zip tokens))

end ConflictBatching
