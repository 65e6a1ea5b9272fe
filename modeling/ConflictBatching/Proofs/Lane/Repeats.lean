import ConflictBatching.Lane.Repeat
import ConflictBatching.Proofs.Lane.Lanes

/-! # Repeated values by position

A lane of the repeat mask is a position whose value stands at an earlier position. The lowest such
position is where the longest prefix of pairwise distinct values ends.
-/
namespace ConflictBatching
variable {α : Type}

def RepeatsAt (values : List α) (i : Nat) : Prop := ∃ v, values[i]? = some v ∧ v ∈ values.take i

theorem repeatsAt_take {values : List α} {n i : Nat} (hi : i < n) :
    RepeatsAt (values.take n) i ↔ RepeatsAt values i := by
  simp only [RepeatsAt, List.getElem?_take_of_lt hi, List.take_take, Nat.min_eq_left hi.le]

/-- A prefix holds distinct values exactly when no position of it repeats. -/
theorem nodup_take_iff (values : List α) (n : Nat) :
    (values.take n).Nodup ↔ ∀ i < n, ¬RepeatsAt values i := by
  induction n with
  | zero => simp
  | succ n ih =>
    have hlast : (∀ i < n + 1, ¬RepeatsAt values i) ↔
        (∀ i < n, ¬RepeatsAt values i) ∧ ¬RepeatsAt values n := by
      simp only [Nat.lt_succ_iff_lt_or_eq, or_imp, forall_and, forall_eq]
    rw [hlast, ← ih, List.take_add_one]
    cases hv : values[n]? with
    | none => simp [RepeatsAt, hv]
    | some v => simp [RepeatsAt, hv, List.nodup_append, List.forall_mem_ne']

theorem RepeatsAt.lt_length {values : List α} {i : Nat} (h : RepeatsAt values i) :
    i < values.length := by
  obtain ⟨v, hv, -⟩ := h
  exact (List.getElem?_eq_some_iff.mp hv).1

theorem RepeatsAt.not_nodup {values : List α} {i : Nat} (h : RepeatsAt values i) :
    ¬values.Nodup := by
  intro hnodup
  have htake : (values.take (i + 1)).Nodup := hnodup.sublist (List.take_sublist ..)
  exact (nodup_take_iff values (i + 1)).mp htake i (Nat.lt_succ_self i) h

variable [DecidableEq α]

theorem contains_addRepeats (earlier : List α) (lane : Nat) (m : LaneMask) (values : List α)
    (i : Nat) :
    (addRepeats earlier lane m values).contains i = true ↔ m.contains i = true ∨
      i < maxLanes ∧ lane ≤ i ∧
        ∃ v, values[i - lane]? = some v ∧ (v ∈ earlier ∨ v ∈ values.take (i - lane)) := by
  induction values generalizing earlier lane m with
  | nil => simp [addRepeats]
  | cons v vs ih =>
    rw [addRepeats, ih]
    rcases Nat.lt_trichotomy i lane with hlt | rfl | hgt
    · have hne : i ≠ lane := hlt.ne
      have hle : ¬lane + 1 ≤ i := by omega
      split <;> simp [LaneMask.contains_insert, hne, hle, hlt.not_ge]
    · split
      · next hv => simp [LaneMask.contains_insert, hv]
      · next hv => simp [hv]
    · obtain ⟨k, rfl⟩ := Nat.exists_eq_add_of_lt hgt
      have hk : lane + k + 1 - lane = k + 1 := by omega
      have hk' : lane + k + 1 - (lane + 1) = k := by omega
      have hne : lane + k + 1 ≠ lane := by omega
      have hle : lane + 1 ≤ lane + k + 1 := by omega
      have hle' : lane ≤ lane + k + 1 := by omega
      rw [hk, hk', List.getElem?_cons_succ, List.take_succ_cons]
      split
      · next hv =>
        simp only [LaneMask.contains_insert, hne, and_false, decide_false, Bool.or_false,
          List.mem_cons, hle, hle', true_and, or_assoc, or_left_comm]
      · next hv =>
        simp only [List.mem_cons, hle, hle', true_and, or_assoc, or_left_comm]

/-- The repeat mask holds the positions below `maxLanes` that repeat. -/
theorem contains_repeats (values : List α) (i : Nat) :
    (repeats values).contains i = true ↔ i < maxLanes ∧ RepeatsAt values i := by
  rw [repeats, contains_addRepeats]
  simp only [LaneMask.contains_empty, Bool.false_eq_true, false_or, Nat.zero_le, true_and,
    Nat.sub_zero, List.not_mem_nil]
  exact and_congr_right fun hi => repeatsAt_take hi

theorem nodup_of_firstRepeat?_none {values : List α} (hlen : values.length ≤ maxLanes)
    (h : firstRepeat? values = none) : values.Nodup := by
  rw [firstRepeat?, LaneMask.first?_eq_head?, List.head?_eq_none_iff] at h
  have hno : ∀ i < maxLanes, ¬RepeatsAt values i := by
    intro i hi hrep
    have hmem := LaneMask.mem_members.mpr ((contains_repeats values i).mpr ⟨hi, hrep⟩)
    rw [h] at hmem
    exact List.not_mem_nil hmem
  rw [← List.take_of_length_le hlen]
  exact (nodup_take_iff values maxLanes).mpr hno

theorem firstRepeat?_eq_some {values : List α} {lane : Nat} (h : firstRepeat? values = some lane) :
    (values.take lane).Nodup ∧ RepeatsAt values lane := by
  rw [firstRepeat?, LaneMask.first?_eq_head?] at h
  obtain ⟨rest, hmembers⟩ := List.head?_eq_some_iff.mp h
  have hsorted := (repeats values).members_sorted
  rw [hmembers] at hsorted
  have hlane : lane ∈ (repeats values).members := by simp [hmembers]
  obtain ⟨hlt, hrep⟩ := (contains_repeats values lane).mp (LaneMask.mem_members.mp hlane)
  refine ⟨(nodup_take_iff values lane).mpr ?_, hrep⟩
  intro i hi hri
  have hmem := LaneMask.mem_members.mpr ((contains_repeats values i).mpr ⟨hi.trans hlt, hri⟩)
  rw [hmembers] at hmem
  rcases List.mem_cons.mp hmem with rfl | hmem
  · exact Nat.lt_irrefl _ hi
  · exact Nat.lt_asymm hi (List.rel_of_pairwise_cons hsorted hmem)

end ConflictBatching
