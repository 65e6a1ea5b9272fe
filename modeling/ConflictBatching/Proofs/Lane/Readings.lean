import Mathlib.Data.Finset.Card
import Mathlib.Order.Bounds.Basic
import ConflictBatching.Proofs.Lane.Repeats

/-! # Three readings of equal values

Each lane is given the earlier lanes that hold its value. The lanes for which there are such lanes are
the repeats of the whole list, one for each value beyond its first occurrence, and the lowest of them is
where the longest prefix of pairwise distinct values ends.
-/
namespace ConflictBatching
variable {α : Type} {n : Nat}

theorem repeatsAt_toList_iff (values : Vector α n) (i : Fin n) :
    RepeatsAt values.toList i ↔ ∃ j, ∃ hj : j < n, j < i ∧ values[j] = values[i] := by
  have hi : values.toList[i.val]? = some values[i] := by simp
  rw [RepeatsAt, hi]
  simp only [Option.some.injEq, exists_eq_left', List.mem_take_iff_getElem]
  constructor
  · rintro ⟨j, hj, hvalue⟩
    rw [Vector.length_toList] at hj
    exact ⟨j, by omega, by omega, by simpa using hvalue⟩
  · rintro ⟨j, hj, hlt, hvalue⟩
    exact ⟨j, by rw [Vector.length_toList]; omega, by simpa using hvalue⟩

variable [DecidableEq α]

/-! ## Lane by lane -/

theorem contains_earlierEqual (values : Vector α n) (active : LaneMask) (i : Fin n) (j : Nat) :
    (earlierEqual values active)[i].contains j = true ↔
      ∃ hj : j < n, j < i ∧ active.contains i = true ∧ active.contains j = true ∧
        values[j] = values[i] := by
  have hentry : (earlierEqual values active)[i] =
      if active.contains i then
        .ofLanes ((active &&& .firstN i).lanes.filter fun j => values[j]? = some (values.get i))
      else .empty := by
    simp [earlierEqual]
  rw [hentry]
  by_cases hi : active.contains i = true
  · rw [if_pos hi, LaneMask.contains_ofLanes, List.mem_filter, LaneMask.mem_lanes,
      LaneMask.contains_and, LaneMask.contains_firstN, Bool.and_eq_true, decide_eq_true_eq,
      decide_eq_true_eq, Vector.getElem?_eq_some_iff]
    constructor
    · rintro ⟨-, ⟨hj, -, hlt⟩, hin, hvalue⟩
      exact ⟨hin, hlt, hi, hj, hvalue⟩
    · rintro ⟨hin, hlt, -, hj, hvalue⟩
      have hmax := LaneMask.lt_of_contains hj
      exact ⟨hmax, ⟨hj, hmax, hlt⟩, hin, hvalue⟩
  · simp [hi]

/-- Neither the values of inactive lanes nor active lanes beyond the last play a part. -/
theorem earlierEqual_congr {values values' : Vector α n} {active active' : LaneMask}
    (hactive : ∀ i : Fin n, active.contains i = active'.contains i)
    (hvalues : ∀ i : Fin n, active.contains i = true → values[i] = values'[i]) :
    earlierEqual values active = earlierEqual values' active' := by
  apply Vector.ext
  intro i hi
  apply LaneMask.ext_contains
  intro j
  apply Bool.eq_iff_iff.mpr
  refine (contains_earlierEqual values active ⟨i, hi⟩ j).trans
    (Iff.trans ?_ (contains_earlierEqual values' active' ⟨i, hi⟩ j).symm)
  apply exists_congr
  intro hj
  rw [← hactive ⟨i, hi⟩, ← hactive ⟨j, hj⟩]
  refine and_congr_right fun _ => and_congr_right fun hiactive => and_congr_right fun hjactive => ?_
  have hatI : values[i] = values'[i] := hvalues ⟨i, hi⟩ hiactive
  have hatJ : values[j] = values'[j] := hvalues ⟨j, hj⟩ hjactive
  change values[j] = values[i] ↔ values'[j] = values'[i]
  rw [hatI, hatJ]

/-! ## The whole list -/

/-- When all lanes are active, those with an earlier equal lane are the repeats. -/
theorem contains_repeats_iff_earlierEqual (hn : n ≤ maxLanes) (values : Vector α n) {full : LaneMask}
    (hfull : ∀ i : Fin n, full.contains i = true) (i : Nat) :
    (repeats values.toList).contains i = true ↔
      ∃ hi : i < n, (earlierEqual values full)[i] ≠ .empty := by
  rw [contains_repeats]
  constructor
  · rintro ⟨-, hrepeat⟩
    have hi : i < n := by simpa using hrepeat.lt_length
    refine ⟨hi, LaneMask.ne_empty_iff.mpr ?_⟩
    obtain ⟨j, hj, hlt, hvalue⟩ := (repeatsAt_toList_iff values ⟨i, hi⟩).mp hrepeat
    exact ⟨j, (contains_earlierEqual values full ⟨i, hi⟩ j).mpr
      ⟨hj, hlt, hfull _, hfull ⟨j, hj⟩, hvalue⟩⟩
  · rintro ⟨hi, hne⟩
    obtain ⟨j, hcontains⟩ := LaneMask.ne_empty_iff.mp hne
    obtain ⟨hj, hlt, -, -, hvalue⟩ := (contains_earlierEqual values full ⟨i, hi⟩ j).mp hcontains
    exact ⟨hi.trans_le hn, (repeatsAt_toList_iff values ⟨i, hi⟩).mpr ⟨j, hj, hlt, hvalue⟩⟩

/-- Up to each lane, the repeats and the distinct values together are as many as the lanes. -/
theorem countP_repeats_add_card (values : List α) {m : Nat} (hm : m ≤ maxLanes) :
    (List.range m).countP (repeats values).contains + (values.take m).toFinset.card =
      min m values.length := by
  induction m with
  | zero => simp
  | succ m ih =>
    have hbefore := ih (Nat.le_of_succ_le hm)
    rw [List.range_succ, List.countP_append, List.countP_singleton, List.take_add_one,
      List.toFinset_append]
    have hrepeat := contains_repeats values m
    cases hv : values[m]? with
    | none =>
      have hlen := List.getElem?_eq_none_iff.mp hv
      have hnot : (repeats values).contains m = false := by
        apply Bool.eq_false_iff.mpr
        intro h
        exact Nat.not_lt.mpr hlen (hrepeat.mp h).2.lt_length
      rw [hnot]
      simp only [Option.toList_none, List.toFinset_nil, Finset.union_empty, Bool.false_eq_true,
        if_false]
      omega
    | some v =>
      have hlen := (List.getElem?_eq_some_iff.mp hv).1
      have hat : (repeats values).contains m = true ↔ v ∈ values.take m := by
        rw [hrepeat, RepeatsAt, hv]
        simpa using fun _ => Nat.lt_of_succ_le hm
      by_cases hmem : v ∈ values.take m
      · have hcard : (values.take m).toFinset ∪ (some v).toList.toFinset =
            (values.take m).toFinset := by
          simpa using hmem
        rw [if_pos (hat.mpr hmem), hcard]
        omega
      · have hcard : ((values.take m).toFinset ∪ (some v).toList.toFinset).card =
            (values.take m).toFinset.card + 1 := by
          rw [Option.toList_some, List.toFinset_cons, List.toFinset_nil, insert_empty_eq,
            Finset.union_comm, ← Finset.insert_eq, Finset.card_insert_of_notMem]
          simpa using hmem
        rw [if_neg (mt hat.mp hmem), hcard]
        omega

theorem count_repeats_add_card {values : List α} (hlen : values.length ≤ maxLanes) :
    (repeats values).count + values.toFinset.card = values.length := by
  have h := countP_repeats_add_card values (Nat.le_refl maxLanes)
  rwa [List.take_of_length_le hlen, Nat.min_eq_right hlen] at h

/-! ## The longest prefix of distinct values -/

theorem firstRepeat?_eq_none_iff {values : List α} (hlen : values.length ≤ maxLanes) :
    firstRepeat? values = none ↔ values.Nodup := by
  refine ⟨nodup_of_firstRepeat?_none hlen, fun hnodup => ?_⟩
  cases hfirst : firstRepeat? values with
  | none => rfl
  | some lane => exact absurd hnodup (firstRepeat?_eq_some hfirst).2.not_nodup

theorem isGreatest_of_firstRepeat? {values : List α} {lane : Nat} (h : firstRepeat? values = some lane) :
    IsGreatest {m | m ≤ values.length ∧ (values.take m).Nodup} lane := by
  obtain ⟨hnodup, hrepeat⟩ := firstRepeat?_eq_some h
  refine ⟨⟨hrepeat.lt_length.le, hnodup⟩, ?_⟩
  rintro m ⟨-, hm⟩
  by_contra hlt
  exact (nodup_take_iff values m).mp hm lane (Nat.lt_of_not_le hlt) hrepeat

theorem firstRepeat?_eq_some_iff {values : List α} (hlen : values.length ≤ maxLanes) (lane : Nat) :
    firstRepeat? values = some lane ↔
      ¬values.Nodup ∧ IsGreatest {m | m ≤ values.length ∧ (values.take m).Nodup} lane := by
  constructor
  · intro h
    exact ⟨(firstRepeat?_eq_some h).2.not_nodup, isGreatest_of_firstRepeat? h⟩
  · rintro ⟨hdup, hgreatest⟩
    cases hfirst : firstRepeat? values with
    | none => exact absurd ((firstRepeat?_eq_none_iff hlen).mp hfirst) hdup
    | some first => rw [(isGreatest_of_firstRepeat? hfirst).unique hgreatest]

/-- A lane is given exactly the earlier active lanes that hold its value if it is active itself, and
nothing else plays a part. The repeats of a list of at most `maxLanes` values are the lanes that are
given any when all are active; with the distinct values they are as many as the values, and the lowest
repeat is the length of the longest prefix of distinct values. There is none exactly when all values
are distinct. -/
theorem equal_lanes_read_alike {n : Nat} (hn : n ≤ maxLanes) (values : Vector α n) :
    (∀ (active : LaneMask) (i : Fin n) (j : Nat),
      (earlierEqual values active)[i].contains j = true ↔
        ∃ hj : j < n, j < i ∧ active.contains i = true ∧ active.contains j = true ∧
          values[j] = values[i]) ∧
    (∀ (active active' : LaneMask) (values' : Vector α n),
      (∀ i : Fin n, active.contains i = active'.contains i) →
      (∀ i : Fin n, active.contains i = true → values[i] = values'[i]) →
        earlierEqual values active = earlierEqual values' active') ∧
    (∀ full : LaneMask, (∀ i : Fin n, full.contains i = true) → ∀ i,
      (repeats values.toList).contains i = true ↔
        ∃ hi : i < n, (earlierEqual values full)[i] ≠ .empty) ∧
    (repeats values.toList).count + values.toList.toFinset.card = n ∧
    (firstRepeat? values.toList = none ↔ values.toList.Nodup) ∧
    ∀ k, firstRepeat? values.toList = some k ↔
      ¬values.toList.Nodup ∧ IsGreatest {m | m ≤ n ∧ (values.toList.take m).Nodup} k := by
  have hlength : values.toList.length = n := Vector.length_toList
  have hlen : values.toList.length ≤ maxLanes := hlength.trans_le hn
  have hcount := count_repeats_add_card hlen
  have hfirst := firstRepeat?_eq_some_iff hlen
  rw [hlength] at hcount hfirst
  exact ⟨contains_earlierEqual values, fun _ _ _ => earlierEqual_congr,
    fun _ => contains_repeats_iff_earlierEqual hn values, hcount, firstRepeat?_eq_none_iff hlen, hfirst⟩

/-- Lane 1 is inactive, so lane 3 is told of no equal lane; with all lanes active it is a repeat, and the
lowest one is lane 2. -/
theorem equal_lanes_read_alike_in_eight :
    let values := #v[5, 6, 5, 6, 8, 9, 8, 5]
    let active : LaneMask := ⟨0b11111101⟩
    8 ≤ maxLanes ∧
      (earlierEqual values active)[3] = .empty ∧
      (∀ j, (earlierEqual values active)[(7 : Fin 8)].contains j = true ↔
        ∃ hj : j < 8, j < (7 : Fin 8).val ∧ active.contains 7 = true ∧ active.contains j = true ∧
          values[j] = values[(7 : Fin 8)]) ∧
      repeats values.toList = ⟨0b11001100⟩ ∧
      (repeats values.toList).count + values.toList.toFinset.card = 8 ∧
      ¬values.toList.Nodup ∧ IsGreatest {m | m ≤ 8 ∧ (values.toList.take m).Nodup} 2 := by
  intro values active
  obtain ⟨hlanes, -, -, hcount, -, hfirst⟩ := equal_lanes_read_alike (show 8 ≤ maxLanes by decide) values
  obtain ⟨hdup, hgreatest⟩ := (hfirst 2).mp (by decide +kernel)
  exact ⟨by decide, by decide +kernel, hlanes active 7, by decide +kernel, hcount, hdup, hgreatest⟩

end ConflictBatching
