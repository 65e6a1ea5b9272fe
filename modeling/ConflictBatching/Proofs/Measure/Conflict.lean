import ConflictBatching.Proofs.Lane.Readings
import ConflictBatching.Proofs.Measure.Schedule

/-! # What a sweep for conflicts counts

The values fill a number of vectors of the same length, and a sweep looks at these vectors, each once.
In a vector all lanes but one for each value conflict, so the distinct values of the vectors and the
counted lanes together are all values.
-/
namespace ConflictBatching

theorem LaneMask.isEmpty_iff {m : LaneMask} : m.isEmpty = true ↔ m = .empty := by
  rw [isEmpty, beq_iff_eq, LaneMask.ext_iff]
  rfl

theorem isEmpty_repeats {α : Type} [DecidableEq α] {values : List α}
    (hlen : values.length ≤ maxLanes) : (repeats values).isEmpty = decide values.Nodup := by
  have hall : values.take maxLanes = values := List.take_of_length_le hlen
  rw [Bool.eq_iff_iff, decide_eq_true_iff, LaneMask.isEmpty_iff, ← not_iff_not, ← ne_eq,
    LaneMask.ne_empty_iff, ← hall, nodup_take_iff, hall]
  simp [contains_repeats]

/-- A vector without repeats has no conflicting lane, and in any other at least one lane conflicts and at
most all but the first. -/
theorem count_repeats_bounds {α : Type} [DecidableEq α] {values : List α}
    (hlen : values.length ≤ maxLanes) (hne : values ≠ []) :
    (!(repeats values).isEmpty).toNat ≤ (repeats values).count ∧
      (repeats values).count ≤ (values.length - 1) * (!(repeats values).isEmpty).toNat := by
  have hcount := count_repeats_add_card hlen
  by_cases hnodup : values.Nodup
  · rw [List.toFinset_card_of_nodup hnodup] at hcount
    rw [isEmpty_repeats hlen, decide_eq_true hnodup, Bool.not_true, Bool.toNat_false]
    omega
  · have hcard : 0 < values.toFinset.card :=
      Finset.card_pos.mpr ((List.toFinset_nonempty_iff _).mpr hne)
    have hless : values.toFinset.card < values.length := by
      refine lt_of_le_of_ne (List.toFinset_card_le values) fun heq => hnodup ?_
      exact (Multiset.toFinset_card_eq_card_iff_nodup (m := (values : Multiset α))).mp heq
    rw [isEmpty_repeats hlen, decide_eq_false hnodup, Bool.not_false, Bool.toNat_true]
    omega

namespace ConflictCounts

/-- The counts over the vectors that were seen, all of one length. -/
structure Tallies (lanes : Nat) (c : ConflictCounts) (seen : List (List UInt32)) : Prop where
  vectors : c.vectors = seen.length
  conflicting :
    c.conflicting + (seen.map fun v => v.toFinset.card).sum = lanes * seen.length
  vectorsHit : c.vectorsHit = seen.countP fun v => ¬v.Nodup
  hit_le_conflicting : c.vectorsHit ≤ c.conflicting
  conflicting_le : c.conflicting ≤ (lanes - 1) * c.vectorsHit

theorem tallies_nil (lanes : Nat) : Tallies lanes {} [] where
  vectors := rfl
  conflicting := rfl
  vectorsHit := rfl
  hit_le_conflicting := Nat.le_refl 0
  conflicting_le := Nat.zero_le _

theorem tallies_add {lanes : Nat} {c : ConflictCounts} {seen : List (List UInt32)}
    (h : Tallies lanes c seen) (hpos : 1 ≤ lanes) (hmax : lanes ≤ maxLanes) {v : List UInt32}
    (hv : v.length = lanes) : Tallies lanes (c.add v) (seen ++ [v]) := by
  have hlen : v.length ≤ maxLanes := hv.trans_le hmax
  have hne : v ≠ [] := List.length_pos_iff.mp (hv ▸ hpos)
  have hcount := count_repeats_add_card hlen
  obtain ⟨hhit, hmost⟩ := count_repeats_bounds hlen hne
  rw [hv] at hcount hmost
  have hconflicting := h.conflicting
  refine ⟨?_, ?_, ?_, Nat.add_le_add h.hit_le_conflicting hhit, ?_⟩
  · rw [List.length_append, List.length_singleton, ← h.vectors]
    rfl
  · simp only [ConflictCounts.add, List.map_append, List.map_cons, List.map_nil, List.sum_append,
      List.sum_singleton, List.length_append, List.length_singleton, Nat.mul_add, Nat.mul_one]
    omega
  · rw [ConflictCounts.add, isEmpty_repeats hlen, h.vectorsHit]
    by_cases hnodup : v.Nodup <;> simp [hnodup]
  · rw [ConflictCounts.add, Nat.mul_add]
    exact Nat.add_le_add h.conflicting_le hmost

theorem tallies_foldl_add {lanes : Nat} {c : ConflictCounts} {seen vectors : List (List UInt32)}
    (h : Tallies lanes c seen) (hpos : 1 ≤ lanes) (hmax : lanes ≤ maxLanes)
    (hvectors : ∀ v ∈ vectors, v.length = lanes) :
    Tallies lanes (vectors.foldl add c) (seen ++ vectors) := by
  induction vectors generalizing c seen with
  | nil => simpa using h
  | cons v vectors ih =>
    obtain ⟨hv, hrest⟩ := List.forall_mem_cons.mp hvectors
    have hnext := ih (tallies_add h hpos hmax hv) hrest
    rwa [List.append_assoc, List.singleton_append] at hnext

end ConflictCounts

/-- Values that fill a number of vectors are these vectors one behind the other, and a sweep adds each
of them to its counts. -/
theorem exists_vectors {lanes : Nat} (hpos : 1 ≤ lanes) {n : Nat} {values : List UInt32}
    (hlen : values.length = lanes * n) :
    ∃ vectors : List (List UInt32), vectors.length = n ∧ (∀ v ∈ vectors, v.length = lanes) ∧
      vectors.flatten = values ∧
      ∀ fuel c, n ≤ fuel → sweepVectors lanes fuel c values = vectors.foldl ConflictCounts.add c := by
  induction n generalizing values with
  | zero =>
    have hnil : values = [] := List.length_eq_zero_iff.mp hlen
    subst hnil
    refine ⟨[], rfl, List.forall_mem_nil _, rfl, fun fuel c _ => ?_⟩
    cases fuel with
    | zero => rfl
    | succ fuel => simp [sweepVectors, Nat.lt_of_succ_le hpos]
  | succ n ih =>
    rw [Nat.mul_succ] at hlen
    have hrest : (values.drop lanes).length = lanes * n := by
      rw [List.length_drop]
      omega
    have hfirst : (values.take lanes).length = lanes := by
      rw [List.length_take]
      omega
    obtain ⟨vectors, hn, hvectors, hflat, hsweep⟩ := ih hrest
    refine ⟨values.take lanes :: vectors, ?_, ?_, ?_, ?_⟩
    · rw [List.length_cons, hn]
    · exact List.forall_mem_cons.mpr ⟨hfirst, hvectors⟩
    · rw [List.flatten_cons, hflat, List.take_append_drop]
    · intro fuel c hfuel
      cases fuel with
      | zero => exact absurd hfuel (Nat.not_succ_le_zero n)
      | succ fuel =>
        rw [sweepVectors, if_neg (Nat.not_lt.mpr hfirst.ge), List.foldl_cons]
        exact hsweep fuel _ (Nat.le_of_succ_le_succ hfuel)

namespace ConflictParams

/-- Lanes of one mask, at least one vector, and no more values than a word counts. -/
def Sweepable (p : ConflictParams) : Prop :=
  1 ≤ p.lanes.toNat ∧ p.lanes.toNat ≤ 64 ∧ 1 ≤ p.iterations.toNat ∧
    p.lanes.toNat * p.iterations.toNat < 2 ^ 64

instance (p : ConflictParams) : Decidable p.Sweepable := inferInstanceAs (Decidable (_ ∧ _))

theorem refusal?_eq_none_iff {p : ConflictParams} : p.refusal? = none ↔ p.Sweepable := by
  have hlanes : p.lanes = 0 ↔ p.lanes.toNat = 0 := UInt64.toNat_inj.symm
  have hiterations : p.iterations = 0 ↔ p.iterations.toNat = 0 := UInt64.toNat_inj.symm
  unfold refusal? Sweepable total maxLanes UInt64.size
  simp only [hlanes, hiterations]
  split_ifs <;> simp only [false_iff, true_iff] <;> omega

theorem length_values (p : ConflictParams) :
    p.values.length = p.lanes.toNat * p.iterations.toNat :=
  length_randomKeys ..

end ConflictParams

theorem measureConflict_of_refusal {m : Type → Type} [Monad m] (watch : Stopwatch m)
    {p : ConflictParams} (h : ¬p.Sweepable) :
    ∃ cause, measureConflict watch p = pure (.error cause) := by
  rw [← ConflictParams.refusal?_eq_none_iff] at h
  obtain ⟨cause, hcause⟩ := Option.ne_none_iff_exists'.mp h
  exact ⟨cause, by simp [measureConflict, hcause]⟩

theorem measureConflict_eq {m : Type → Type} [Monad m] [LawfulMonad m] {watch : Stopwatch m}
    (hwatch : watch.Transparent) {p : ConflictParams} (h : p.Sweepable) :
    measureConflict watch p = (fun d => .ok (p.report (p.sweep p.values) d)) <$> watch.elapsed := by
  have hnone := ConflictParams.refusal?_eq_none_iff.mpr h
  have htime := hwatch fun _ => p.sweep p.values
  simp only [measureConflict, hnone, htime, bind_pure_comp, Functor.map_map]

/-- The measurement is an error unless there are lanes for one mask and at least one vector, and the
values are counted by a word. Otherwise the values are so many vectors of the lanes one behind the
other, each looked at once; the conflicting lanes are all values less the distinct values of each
vector, and at least one and all lanes but one of every vector that is hit. The report gives both
counts. -/
theorem conflicts_are_counted_by_vector (p : ConflictParams) :
    ((∃ cause, measureConflict .stopped p = .error cause) ↔ ¬p.Sweepable) ∧
    ∀ {m : Type → Type} [Monad m] [LawfulMonad m] (watch : Stopwatch m), watch.Transparent →
      (¬p.Sweepable → ∃ cause, measureConflict watch p = pure (.error cause)) ∧
      (p.Sweepable → ∃ (vectors : List (List UInt32)) (counts : ConflictCounts),
        vectors.length = p.iterations.toNat ∧ (∀ v ∈ vectors, v.length = p.lanes.toNat) ∧
        vectors.flatten =
          randomKeys (p.lanes.toNat * p.iterations.toNat) (UInt32.ofNat (4 * p.lanes.toNat)) p.seed ∧
        counts = vectors.foldl ConflictCounts.add {} ∧ counts.vectors = p.iterations.toNat ∧
        counts.conflicting + (vectors.map fun v => v.toFinset.card).sum =
          p.lanes.toNat * p.iterations.toNat ∧
        (counts.vectorsHit = vectors.countP fun v => ¬v.Nodup) ∧
        counts.vectorsHit ≤ p.iterations.toNat ∧ counts.vectorsHit ≤ counts.conflicting ∧
        counts.conflicting ≤ (p.lanes.toNat - 1) * counts.vectorsHit ∧
        measureConflict watch p = (fun d => .ok (p.report counts d)) <$> watch.elapsed ∧
        ∀ d, (p.report counts d).rows.lookup "conflicting lanes" = some (.count counts.conflicting) ∧
          (p.report counts d).rows.lookup "vectors with a conflict" =
            some (.count counts.vectorsHit)) := by
  refine ⟨⟨?_, ?_⟩, ?_⟩
  · rintro ⟨cause, herror⟩ hsweepable
    rw [measureConflict_eq Stopwatch.transparent_stopped hsweepable] at herror
    cases herror
  · exact measureConflict_of_refusal .stopped
  · intro m _ _ watch hwatch
    refine ⟨measureConflict_of_refusal watch, fun hsweepable => ?_⟩
    obtain ⟨hpos, hmax, -, -⟩ := id hsweepable
    obtain ⟨vectors, hlen, hvectors, hflat, hsweep⟩ := exists_vectors hpos p.length_values
    -- The sweep may look at as many vectors as there are values, and each vector has a value.
    have hfuel : p.iterations.toNat ≤ p.values.length := by
      rw [p.length_values]
      exact Nat.le_mul_of_pos_left _ hpos
    have hcounts : p.sweep p.values = vectors.foldl ConflictCounts.add {} := hsweep _ _ hfuel
    have htallies := ConflictCounts.tallies_foldl_add (ConflictCounts.tallies_nil p.lanes.toNat) hpos
      hmax hvectors
    rw [List.nil_append, ← hcounts] at htallies
    have hhit : (p.sweep p.values).vectorsHit ≤ p.iterations.toNat := by
      rw [htallies.vectorsHit, ← hlen]
      exact List.countP_le_length
    have hall := htallies.conflicting
    rw [hlen] at hall
    exact ⟨vectors, p.sweep p.values, hlen, hvectors, hflat, hcounts, htallies.vectors.trans hlen,
      hall, htallies.vectorsHit, hhit, htallies.hit_le_conflicting, htallies.conflicting_le,
      measureConflict_eq hwatch hsweepable, fun _ => ⟨rfl, rfl⟩⟩

/-- Three vectors of two lanes, and as many vectors of no lanes. -/
theorem conflicts_are_counted_in_three_vectors :
    let p : ConflictParams := ⟨2, 3, 7⟩
    Stopwatch.stopped.Transparent ∧ p.Sweepable ∧ ¬{ p with lanes := 0 : ConflictParams }.Sweepable ∧
      (∃ (vectors : List (List UInt32)) (counts : ConflictCounts), vectors.length = 3 ∧
        vectors.flatten = randomKeys 6 8 7 ∧
        counts.conflicting + (vectors.map fun v => v.toFinset.card).sum = 6 ∧
        counts.vectorsHit ≤ counts.conflicting ∧ counts.conflicting ≤ 1 * counts.vectorsHit ∧
        measureConflict .stopped p = .ok (p.report counts ⟨0⟩)) ∧
      ∃ cause, measureConflict .stopped { p with lanes := 0 } = .error cause := by
  intro p
  have hsweepable : p.Sweepable := by decide
  have hnot : ¬{ p with lanes := 0 : ConflictParams }.Sweepable := by decide
  obtain ⟨-, hmeasured⟩ := conflicts_are_counted_by_vector p
  obtain ⟨vectors, counts, hlen, -, hflat, -, -, hall, -, -, hhit, hle, hreport, -⟩ :=
    (hmeasured .stopped Stopwatch.transparent_stopped).2 hsweepable
  have hrefused := (conflicts_are_counted_by_vector { p with lanes := 0 }).1.mpr hnot
  exact ⟨Stopwatch.transparent_stopped, hsweepable, hnot,
    ⟨vectors, counts, hlen, hflat, hall, hhit, hle, hreport⟩, hrefused⟩

end ConflictBatching
