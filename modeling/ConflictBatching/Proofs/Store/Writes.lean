import ConflictBatching.Proofs.Store.PartialMap

/-! # Scatters as lists of writes

A scatter writes the records of its lanes one after the other, so it is a list of writes. Writes
outside the store change nothing, and a record that no write names stays as it was.
-/
namespace ConflictBatching
variable {ρ : Type} {n : Nat}

/-- Writes records to their indices, one after the other. An index outside is skipped. -/
def writeAll (store : Array ρ) (writes : List (Nat × ρ)) : Array ρ :=
  writes.foldl (fun store w => store.setIfInBounds w.1 w.2) store

@[simp] theorem writeAll_nil (store : Array ρ) : writeAll store [] = store := rfl

theorem writeAll_cons (store : Array ρ) (w : Nat × ρ) (writes : List (Nat × ρ)) :
    writeAll store (w :: writes) = writeAll (store.setIfInBounds w.1 w.2) writes := rfl

theorem writeAll_append (store : Array ρ) (ws vs : List (Nat × ρ)) :
    writeAll store (ws ++ vs) = writeAll (writeAll store ws) vs := List.foldl_append

@[simp] theorem size_writeAll (store : Array ρ) (writes : List (Nat × ρ)) :
    (writeAll store writes).size = store.size := by
  induction writes generalizing store with
  | nil => rfl
  | cons w writes ih => rw [writeAll_cons, ih, Array.size_setIfInBounds]

theorem getElem?_writeAll_of_notMem {store : Array ρ} {writes : List (Nat × ρ)} {i : Nat}
    (h : i ∉ writes.map Prod.fst) : (writeAll store writes)[i]? = store[i]? := by
  induction writes generalizing store with
  | nil => rfl
  | cons w writes ih =>
    rw [List.map_cons, List.mem_cons, not_or] at h
    rw [writeAll_cons, ih h.2, Array.getElem?_setIfInBounds_ne (Ne.symm h.1)]

/-- Of all writes to a record the last one stays. -/
theorem getElem?_writeAll_last {store : Array ρ} (before : List (Nat × ρ)) {i : Nat} (x : ρ)
    {after : List (Nat × ρ)} (hi : i < store.size) (hafter : i ∉ after.map Prod.fst) :
    (writeAll store (before ++ (i, x) :: after))[i]? = some x := by
  have hsize : i < (writeAll store before).size := by rwa [size_writeAll]
  rw [writeAll_append, writeAll_cons, getElem?_writeAll_of_notMem hafter,
    Array.getElem?_setIfInBounds_self_of_lt hsize]

theorem writeAll_filter (store : Array ρ) (writes : List (Nat × ρ)) :
    writeAll store (writes.filter (·.1 < store.size)) = writeAll store writes := by
  induction writes generalizing store with
  | nil => rfl
  | cons w writes ih =>
    have hrest := ih (store.setIfInBounds w.1 w.2)
    rw [Array.size_setIfInBounds] at hrest
    by_cases hw : w.1 < store.size
    · rw [List.filter_cons_of_pos (by simpa using hw), writeAll_cons, writeAll_cons, hrest]
    · rw [List.filter_cons_of_neg (by simpa using hw), writeAll_cons, ← hrest,
        Array.setIfInBounds_eq_of_size_le (Nat.le_of_not_lt hw)]

def laneWrite? (m : MaskedIndices n) (values : Vector ρ n) (lane : Nat) : Option (Nat × ρ) :=
  (m.get? lane).bind fun index => values[lane]?.map (index, ·)

theorem laneWrite?_eq_some_iff {m : MaskedIndices n} {values : Vector ρ n} {lane index : Nat} {x : ρ} :
    laneWrite? m values lane = some (index, x) ↔ m.get? lane = some index ∧ values[lane]? = some x := by
  rw [laneWrite?]
  cases m.get? lane <;> simp [and_comm]

/-- What a lane with a checked index writes is what the index would have it write, checked. -/
theorem laneWrite?_eq_filter {m : MaskedIndices n} {lane size : Nat} {address : Option Nat}
    (values : Vector ρ n) (h : m.get? lane = address.filter (· < size)) :
    laneWrite? m values lane =
      (address.bind fun index => values[lane]?.map (index, ·)).filter (·.1 < size) := by
  rw [laneWrite?, h]
  cases address with
  | none => rfl
  | some index =>
    by_cases hindex : index < size <;> cases values[lane]? <;> simp [Option.filter, hindex]

theorem scatterLane_eq_writeAll (m : MaskedIndices n) (values : Vector ρ n) (store : Array ρ)
    (lane : Nat) :
    scatterLane m values store lane = writeAll store (laneWrite? m values lane).toList := by
  unfold scatterLane laneWrite?
  cases m.get? lane with
  | none => rfl
  | some index => cases values[lane]? <;> rfl

theorem foldl_scatterLane (m : MaskedIndices n) (values : Vector ρ n) (lanes : List Nat)
    (store : Array ρ) :
    lanes.foldl (scatterLane m values) store =
      writeAll store (lanes.filterMap (laneWrite? m values)) := by
  induction lanes generalizing store with
  | nil => rfl
  | cons lane rest ih =>
    rw [List.foldl_cons, ih, scatterLane_eq_writeAll, List.filterMap_cons]
    cases laneWrite? m values lane <;> rfl

theorem scatter_eq_writeAll (store : Array ρ) (m : MaskedIndices n) (values : Vector ρ n) :
    scatter store m values =
      writeAll store ((List.range maxLanes).filterMap (laneWrite? m values)) := by
  rw [scatter, foldl_scatterLane, LaneMask.lanes_eq_members, LaneMask.members,
    List.filterMap_filter]
  congr 1
  apply List.filterMap_congr
  intro lane _
  by_cases hvalid : m.valid.contains lane = true
  · simp [hvalid]
  · simp [hvalid, laneWrite?, MaskedIndices.get?]

/-- When the lanes hold the indices of a list that lie inside the store, a scatter writes the list
entry by entry. -/
theorem scatter_of_indices {store : Array ρ} {m : MaskedIndices n} {values : Vector ρ n}
    {indices : List Nat} (hlen : indices.length ≤ maxLanes)
    (hget : ∀ lane, m.get? lane = indices[lane]?.filter (· < store.size)) :
    scatter store m values = writeAll store (indices.zip values.toList) := by
  have hlane : laneWrite? m values =
      fun lane => (indices.zip values.toList)[lane]?.filter (·.1 < store.size) := by
    funext lane
    rw [laneWrite?_eq_filter values (hget lane), List.zip, List.getElem?_zipWith,
      Vector.getElem?_toList]
    cases indices[lane]? <;> cases values[lane]? <;> rfl
  have hzip : (indices.zip values.toList).length ≤ maxLanes := by
    rw [List.length_zip]
    omega
  have hall := filterMap_range_eq_atPositions (fun _ => true) (indices.zip values.toList) hzip
  have hid : atPositions (fun _ => true) (indices.zip values.toList) =
      indices.zip values.toList := by
    simp [atPositions]
  rw [List.filter_true, hid] at hall
  rw [scatter_eq_writeAll, hlane, ← List.filter_filterMap, hall, writeAll_filter]

end ConflictBatching
