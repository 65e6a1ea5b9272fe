import ConflictBatching.Lane.Mask

/-! # Stable partition by lane mask

The lanes a mask keeps move to the front and the others follow, each group in its own order. Two
lists of different element types are partitioned in lockstep.
-/
namespace ConflictBatching
variable {α κ τ : Type}

def pick (items : List α) (m : LaneMask) : List α := m.lanes.filterMap (items[·]?)

/-- Kept items first; the count is the number of kept lanes. At most `maxLanes` items. -/
def partitionItems (keep : LaneMask) (items : List α) : Nat × List α :=
  let all := LaneMask.firstN items.length
  let kept := keep &&& all
  (kept.count, pick items kept ++ pick items (~~~kept &&& all))

structure Partitioned (κ τ : Type) where
  kept : Nat
  keys : List κ
  tokens : List τ

/-- Keys and tokens move together; tokens beyond the last key stay. More keys than a mask has
lanes, or fewer tokens than keys, have no partition. -/
def partition? (keys : List κ) (tokens : List τ) (keep : LaneMask) : Option (Partitioned κ τ) :=
  if keys.isEmpty then some ⟨0, keys, tokens⟩
  else if maxLanes < keys.length ∨ tokens.length < keys.length then none
  else
    let (kept, items) := partitionItems keep (keys.zip tokens)
    some ⟨kept, items.map (·.1), items.map (·.2) ++ tokens.drop keys.length⟩

end ConflictBatching
