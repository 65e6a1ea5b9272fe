/-! # Work queues

A queue of items, each a key beside its token. It is built from two lists of equal length or item
by item, and only ever read from the front.

Room for it may be asked in advance. Items of one kind are kept side by side in a block of memory,
and the bytes of a block are counted by a signed word, so there is room for a number of items or not,
whatever the items are.
-/
namespace ConflictBatching

class Stored (α : Type) where
  /-- The bytes that an item takes in its block. -/
  bytes : Nat

instance : Stored UInt8 := ⟨1⟩
instance : Stored UInt32 := ⟨4⟩
instance : Stored Int64 := ⟨8⟩

/-- A text is kept elsewhere; the item is its place and its length. -/
instance : Stored String := ⟨16⟩

/-- Whether so many items have room in one block. -/
def hasRoom (α : Type) [Stored α] (n : Nat) : Bool := n * Stored.bytes α ≤ 0x7fffffffffffffff

structure WorkQueue (κ τ : Type) where
  items : List (κ × τ) := []

inductive QueueError where
  /-- Keys and tokens do not describe the same items. -/
  | lengthMismatch (keys tokens : Nat)
deriving DecidableEq

def QueueError.message : QueueError → String
  | lengthMismatch keys tokens => s!"queue length mismatch: {keys} keys vs {tokens} tokens"

namespace WorkQueue
variable {κ τ : Type}

def empty : WorkQueue κ τ := {}

/-- An empty queue, if there is room for so many keys and tokens. -/
def withRoom? [Stored κ] [Stored τ] (n : Nat) : Option (WorkQueue κ τ) :=
  if hasRoom κ n && hasRoom τ n then some empty else none

def ofParts (keys : List κ) (tokens : List τ) : Except QueueError (WorkQueue κ τ) :=
  if keys.length = tokens.length then .ok ⟨keys.zip tokens⟩
  else .error (.lengthMismatch keys.length tokens.length)

def push (q : WorkQueue κ τ) (key : κ) (token : τ) : WorkQueue κ τ := ⟨q.items ++ [(key, token)]⟩

def size (q : WorkQueue κ τ) : Nat := q.items.length

def isEmpty (q : WorkQueue κ τ) : Bool := q.items.isEmpty

def keys (q : WorkQueue κ τ) : List κ := q.items.map (·.1)

def tokens (q : WorkQueue κ τ) : List τ := q.items.map (·.2)

end WorkQueue
end ConflictBatching
