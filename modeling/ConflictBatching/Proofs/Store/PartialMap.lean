import ConflictBatching.Store.MaskedIndices
import ConflictBatching.Proofs.Lane.Pick

/-! # Masked indices as a partial map

Reading a lane sees the index only while the lane is valid, so masked indices are a partial map
from lanes to indices and every operation on them is told by what it makes of that map.
-/
namespace ConflictBatching.MaskedIndices
variable {n : Nat}

@[simp] theorem get?_inert (lane : Nat) : (inert : MaskedIndices n).get? lane = none := by
  simp [get?, inert]

theorem lt_of_get? {m : MaskedIndices n} {lane r : Nat} (h : m.get? lane = some r) :
    lane < n ∧ lane < maxLanes := by
  rw [get?] at h
  split at h
  · next hvalid =>
    obtain ⟨hlane, -⟩ := Vector.getElem?_eq_some_iff.mp h
    exact ⟨hlane, LaneMask.lt_of_contains hvalid⟩
  · cases h

theorem get?_set (m : MaskedIndices n) (lane index i : Nat) :
    (m.set lane index).get? i =
      if i = lane ∧ lane < n ∧ lane < maxLanes then some index else m.get? i := by
  by_cases hlane : lane < n
  · simp only [set, if_pos hlane, get?, LaneMask.contains_insert]
    by_cases hi : i = lane
    · subst hi
      by_cases hmax : i < maxLanes
      · simp [hlane, hmax]
      · have hout : m.valid.contains i = false :=
          Bool.eq_false_iff.mpr fun h => hmax (LaneMask.lt_of_contains h)
        simp [hmax, hout]
    · simp [hi, Ne.symm hi]
  · simp [set, hlane]

theorem get?_setFrom (m : MaskedIndices n) (lane : Nat) (indices : List Nat) (i : Nat) :
    (m.setFrom lane indices).get? i =
      if lane ≤ i ∧ i - lane < indices.length ∧ i < n ∧ i < maxLanes then indices[i - lane]?
      else m.get? i := by
  induction indices generalizing m lane with
  | nil => simp [setFrom]
  | cons index rest ih =>
    rw [setFrom, ih, get?_set]
    rcases Nat.lt_trichotomy i lane with hlt | rfl | hgt
    · have hle : ¬lane ≤ i := by omega
      have hle' : ¬lane + 1 ≤ i := by omega
      simp [hle, hle', hlt.ne]
    · simp
    · obtain ⟨k, rfl⟩ := Nat.exists_eq_add_of_lt hgt
      have hk : lane + k + 1 - lane = k + 1 := by omega
      have hk' : lane + k + 1 - (lane + 1) = k := by omega
      have hne : lane + k + 1 ≠ lane := by omega
      have hle : lane + 1 ≤ lane + k + 1 := by omega
      have hle' : lane ≤ lane + k + 1 := by omega
      simp [hk, hk', hne, hle, hle']

theorem get?_truncate (m : MaskedIndices n) (k i : Nat) :
    (m.truncate k).get? i = if i < k then m.get? i else none := by
  simp only [truncate, get?, LaneMask.contains_and, LaneMask.contains_firstN]
  by_cases hvalid : m.valid.contains i = true
  · by_cases hi : i < k <;> simp [hvalid, hi, LaneMask.lt_of_contains hvalid]
  · simp [hvalid]

theorem get?_invalidate (m : MaskedIndices n) (lane i : Nat) :
    (m.invalidate lane).get? i = if i = lane then none else m.get? i := by
  simp only [invalidate, get?, LaneMask.contains_erase]
  by_cases hi : i = lane <;> simp [hi]

/-- A check looks at the stored index, whether the lane is still valid or not. -/
theorem checkLane_eq (len : Nat) (m : MaskedIndices n) (lane : Nat) :
    checkLane len m lane = if ∃ index, m.indices[lane]? = some index ∧ len ≤ index then
      m.invalidate lane else m := by
  unfold checkLane
  cases h : m.indices[lane]? with
  | none => simp
  | some index => simp

theorem foldl_checkLane_indices (len : Nat) (lanes : List Nat) (m : MaskedIndices n) :
    (lanes.foldl (checkLane len) m).indices = m.indices := by
  induction lanes generalizing m with
  | nil => rfl
  | cons lane rest ih =>
    rw [List.foldl_cons, ih, checkLane_eq]
    split <;> rfl

theorem foldl_checkLane_contains (len : Nat) (lanes : List Nat) (m : MaskedIndices n) (i : Nat) :
    (lanes.foldl (checkLane len) m).valid.contains i = true ↔
      m.valid.contains i = true ∧
        ¬(i ∈ lanes ∧ ∃ index, m.indices[i]? = some index ∧ len ≤ index) := by
  induction lanes generalizing m with
  | nil => simp
  | cons lane rest ih =>
    rw [List.foldl_cons, ih, checkLane_eq]
    by_cases hout : ∃ index, m.indices[lane]? = some index ∧ len ≤ index
    · rw [if_pos hout]
      simp only [invalidate, LaneMask.contains_erase, Bool.and_eq_true, decide_eq_true_eq,
        List.mem_cons]
      by_cases hi : i = lane
      · subst hi
        simp [hout]
      · simp [hi]
    · rw [if_neg hout]
      by_cases hi : i = lane
      · subst hi
        simp [hout]
      · simp [hi]

theorem get?_fixup (m : MaskedIndices n) (len i : Nat) :
    (m.fixup len).get? i = (m.get? i).filter (· < len) := by
  have hvalid := foldl_checkLane_contains len m.valid.lanes m i
  rw [LaneMask.mem_lanes] at hvalid
  rw [fixup, get?, foldl_checkLane_indices, get?]
  by_cases hcontains : m.valid.contains i = true
  · cases hindex : m.indices[i]? with
    | none => simp
    | some index =>
      simp only [hcontains, hindex, true_and, Option.some.injEq, exists_eq_left'] at hvalid
      by_cases hlt : index < len
      · simp [hcontains, hvalid, hlt, Option.filter]
      · simp [hcontains, hvalid, hlt, Nat.le_of_not_lt hlt, Option.filter]
  · simp [hcontains, hvalid]

end ConflictBatching.MaskedIndices
