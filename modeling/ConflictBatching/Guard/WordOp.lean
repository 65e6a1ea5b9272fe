import ConflictBatching.Guard.Round

/-! # Operations on a store of words

Four operations of one to four records each, over words that wrap around. Run directly on the
store, an operation reads what its own earlier writes left, which shows when it names one record
twice.
-/
namespace ConflictBatching

/-- Multiplies a word by ten and adds to it, so that the order of two bumps shows. -/
structure Bump where
  index : Nat
  addend : UInt64

instance : GuardedUpdate Bump UInt64 1 where
  refs op := #v[op.index]
  update op r := #v[r[0] * 10 + op.addend]
  applyScalar op store := do
    let r ← store[op.index]?
    return store.setIfInBounds op.index (r * 10 + op.addend)

structure Exchange where
  first : Nat
  second : Nat

instance : GuardedUpdate Exchange UInt64 2 where
  refs op := #v[op.first, op.second]
  update _ r := #v[r[1], r[0]]
  applyScalar op store := do
    let a ← store[op.first]?
    let b ← store[op.second]?
    return (store.setIfInBounds op.first b).setIfInBounds op.second a

structure Rotate where
  first : Nat
  second : Nat
  third : Nat

instance : GuardedUpdate Rotate UInt64 3 where
  refs op := #v[op.first, op.second, op.third]
  update _ r := #v[r[1], r[2], r[0]]
  applyScalar op store := do
    let a ← store[op.first]?
    let b ← store[op.second]?
    let c ← store[op.third]?
    let store := store.setIfInBounds op.first b
    return (store.setIfInBounds op.second c).setIfInBounds op.third a

structure Spread where
  source : Nat
  targets : Vector Nat 3

/-- Adds the word at `source`, as it is now, to the word at `target`. -/
def addWord (source : Nat) {n : Nat} (store : Vector UInt64 n) (target : Nat) :
    Option (Vector UInt64 n) := do
  let a ← store[source]?
  let b ← store[target]?
  return store.setIfInBounds target (b + a)

instance : GuardedUpdate Spread UInt64 4 where
  refs op := #v[op.source, op.targets[0], op.targets[1], op.targets[2]]
  update _ r := #v[r[0], r[1] + r[0], r[2] + r[0], r[3] + r[0]]
  applyScalar op store := op.targets.toList.foldlM (addWord op.source) store

end ConflictBatching
