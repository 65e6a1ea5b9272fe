import ConflictBatching.Batch.Schedule
import ConflictBatching.Proofs.Batch.Occurrences
import ConflictBatching.Proofs.Lane.Pick
import ConflictBatching.Proofs.Lane.Repeats

/-! # What one call of the scheduler arranges

The mask arithmetic of a call is the split of its window into first occurrences and repeats. All
later facts about batches use this equation and the facts about the two lists.
-/
namespace ConflictBatching
variable {κ τ : Type} [DecidableEq κ]

/-- The positions that repeat a key pick the repeats and the other positions pick the firsts. -/
theorem positions_of_repeats (before items : List (κ × τ)) (seen : List κ)
    (hseen : ∀ key, key ∈ seen ↔ key ∈ before.map Prod.fst) (accept : Nat → Bool)
    (haccept : ∀ i < items.length, accept i = true ↔
      RepeatsAt ((before ++ items).map Prod.fst) (before.length + i)) :
    atPositions (fun i => !accept i) items = firstsFrom seen items ∧
      atPositions accept items = repeatsFrom seen items := by
  induction items generalizing before seen accept with
  | nil => exact ⟨rfl, rfl⟩
  | cons x xs ih =>
    have hzero : accept 0 = true ↔ x.1 ∈ seen := by
      rw [haccept 0 (by simp), hseen, Nat.add_zero]
      simp [RepeatsAt]
    have hsucc : ∀ i < xs.length, accept (i + 1) = true ↔
        RepeatsAt ((before ++ [x] ++ xs).map Prod.fst) ((before ++ [x]).length + i) := by
      intro i hi
      rw [haccept (i + 1) (by simpa using hi), List.append_assoc, List.singleton_append,
        List.length_append, List.length_singleton, Nat.add_assoc, Nat.add_comm 1 i]
    rw [atPositions_cons, atPositions_cons, firstsFrom, repeatsFrom]
    by_cases hx : x.1 ∈ seen
    · have hseen' : ∀ key, key ∈ seen ↔ key ∈ (before ++ [x]).map Prod.fst := by
        intro key
        have hmem : x.1 ∈ before.map Prod.fst := (hseen x.1).mp hx
        rw [hseen, List.map_append, List.mem_append]
        constructor
        · exact Or.inl
        · rintro (h | h)
          · exact h
          · exact List.mem_singleton.mp h ▸ hmem
      obtain ⟨hf, hr⟩ := ih (before ++ [x]) seen hseen' (fun i => accept (i + 1)) hsucc
      simp [hzero.mpr hx, hx, hf, hr]
    · have hseen' : ∀ key, key ∈ x.1 :: seen ↔ key ∈ (before ++ [x]).map Prod.fst := by
        intro key
        simp [hseen, or_comm]
      obtain ⟨hf, hr⟩ := ih (before ++ [x]) (x.1 :: seen) hseen' (fun i => accept (i + 1)) hsucc
      have hzero' : accept 0 = false := Bool.eq_false_iff.mpr (mt hzero.mp hx)
      simp [hzero', hx, hf, hr]

theorem map_fst_zip_take {α β : Type} (xs : List α) (ys : List β) :
    (xs.zip ys).map Prod.fst = xs.take (min xs.length ys.length) := by
  rw [List.zip_eq_zip_take_min, List.map_fst_zip (by simp)]

/-- The windows of all widths that are in use fit into a mask. -/
theorem window_le_maxLanes {width : Nat} (hmax : width ≤ 16) : 2 * width ≤ maxLanes := by
  unfold maxLanes
  omega

/-- One call moves the first occurrences of the window to the front, in order, and takes up to
`width` of them. -/
theorem arrange_eq (width : Nat) {window : Nat} (hwindow : window ≤ maxLanes)
    (items : List (κ × τ)) :
    arrange width window items =
      (min (firsts (items.take window)).length width,
        firsts (items.take window) ++ repeated (items.take window) ++ items.drop window) := by
  generalize hfront : items.take window = front
  have hlen : front.length ≤ maxLanes := by
    rw [← hfront, List.length_take]
    exact (Nat.min_le_left ..).trans hwindow
  have hmask : ∀ i < front.length, (repeats (front.map Prod.fst)).contains i = true ↔
      RepeatsAt ((([] : List (κ × τ)) ++ front).map Prod.fst)
        (([] : List (κ × τ)).length + i) := by
    intro i hi
    rw [contains_repeats, List.nil_append, List.length_nil, Nat.zero_add]
    exact and_iff_right (hi.trans_le hlen)
  obtain ⟨hf, hr⟩ := positions_of_repeats [] front [] (by simp) _ hmask
  have hkeep : ∀ i < front.length,
      (~~~(repeats (front.map Prod.fst)) &&& LaneMask.firstN front.length).contains i =
        !(repeats (front.map Prod.fst)).contains i := by
    intro i hi
    simp [LaneMask.contains_compl, LaneMask.contains_firstN, hi, hi.trans_le hlen]
  have hdrop : ∀ i < front.length,
      (!(~~~(repeats (front.map Prod.fst)) &&& LaneMask.firstN front.length).contains i) =
        (repeats (front.map Prod.fst)).contains i := by
    intro i hi
    rw [hkeep i hi, Bool.not_not]
  simp only [arrange, hfront, partitionItems_eq _ hlen, atPositions_congr hkeep,
    atPositions_congr hdrop, hf, hr]

theorem arrange_take (width : Nat) {window : Nat} (hwindow : window ≤ maxLanes)
    (items : List (κ × τ)) :
    (arrange width window items).2.take (arrange width window items).1 =
      (firsts (items.take window)).take width := by
  rw [arrange_eq width hwindow, List.append_assoc,
    List.take_append_of_le_length (Nat.min_le_left ..), Nat.min_comm, ← List.take_eq_take_min]

theorem arrange_drop (width : Nat) {window : Nat} (hwindow : window ≤ maxLanes)
    (items : List (κ × τ)) :
    (arrange width window items).2.drop (arrange width window items).1 =
      (firsts (items.take window)).drop width ++ repeated (items.take window) ++
        items.drop window := by
  rw [arrange_eq width hwindow, List.append_assoc, List.append_assoc,
    List.drop_append_of_le_length (Nat.min_le_left ..)]
  congr 1
  rcases Nat.le_total (firsts (items.take window)).length width with h | h
  · rw [Nat.min_eq_left h, List.drop_length, List.drop_eq_nil_of_le h]
  · rw [Nat.min_eq_right h]

end ConflictBatching
