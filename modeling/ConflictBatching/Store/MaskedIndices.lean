import ConflictBatching.Lane.Mask

/-! # Masked store indices

Each of `n` lanes either addresses a record or is inert. Inert lanes are marked in a mask and not
by a special index, so the index a lane held before it became inert is never read. A gather reads
one record per lane and a scatter writes one record per lane; neither reads or writes through a lane
that is inert or addresses no record of the store.
-/
namespace ConflictBatching

structure MaskedIndices (n : Nat) where
  indices : Vector Nat n
  valid : LaneMask
deriving DecidableEq

namespace MaskedIndices
variable {n : Nat}

/-- All lanes inert. -/
def inert : MaskedIndices n := ⟨Vector.replicate n 0, .empty⟩

instance : Inhabited (MaskedIndices n) := ⟨inert⟩

/-- A lane beyond the last is left out. -/
def set (m : MaskedIndices n) (lane index : Nat) : MaskedIndices n :=
  if lane < n then ⟨m.indices.setIfInBounds lane index, m.valid.insert lane⟩ else m

/-- The record a lane addresses, unless it is inert. -/
def get? (m : MaskedIndices n) (lane : Nat) : Option Nat :=
  if m.valid.contains lane then m.indices[lane]? else none

def setFrom (m : MaskedIndices n) (lane : Nat) : List Nat → MaskedIndices n
  | [] => m
  | index :: rest => setFrom (m.set lane index) (lane + 1) rest

def ofOptions (lanes : Vector (Option Nat) n) : MaskedIndices n :=
  (List.finRange n).foldl (fun m lane => (lanes.get lane).elim m (m.set lane)) inert

def invalidate (m : MaskedIndices n) (lane : Nat) : MaskedIndices n :=
  { m with valid := m.valid.erase lane }

/-- Every lane from `k` on becomes inert. -/
def truncate (m : MaskedIndices n) (k : Nat) : MaskedIndices n :=
  { m with valid := m.valid &&& .firstN k }

/-- A lane becomes inert when its index lies outside a store of `len` records. -/
def checkLane (len : Nat) (m : MaskedIndices n) (lane : Nat) : MaskedIndices n :=
  match m.indices[lane]? with
  | some index => if len ≤ index then m.invalidate lane else m
  | none => m

/-- Every lane that addresses no record of a store of `len` records becomes inert. -/
def fixup (m : MaskedIndices n) (len : Nat) : MaskedIndices n :=
  m.valid.lanes.foldl (checkLane len) m

end MaskedIndices

section Records
variable {ρ : Type} {n : Nat}

/-- The record of each lane; the default record where there is none. -/
def gather [Inhabited ρ] (store : Array ρ) (m : MaskedIndices n) : Vector ρ n :=
  Vector.ofFn fun lane => ((m.get? lane).bind (store[·]?)).getD default

/-- Writes the lanes in ascending order, so of two lanes with one index the later wins. -/
def scatterLane (m : MaskedIndices n) (values : Vector ρ n) (store : Array ρ) (lane : Nat) :
    Array ρ :=
  match m.get? lane, values[lane]? with
  | some index, some value => store.setIfInBounds index value
  | _, _ => store

def scatter (store : Array ρ) (m : MaskedIndices n) (values : Vector ρ n) : Array ρ :=
  m.valid.lanes.foldl (scatterLane m values) store

end Records
end ConflictBatching
