import ConflictBatching.Proofs.Queue.Step

/-! # Runs of a drain

The batches of a run are read off the steps, so that a run from any state in the middle is again
a run. Each pending item takes at most one step, which is why as many steps as items are enough.
-/
namespace ConflictBatching.Drain
variable {κ τ : Type} [DecidableEq κ]

/-- The batches of at most `n` steps. -/
def upcoming (width : Nat) (policy : FlushPolicy) : (n : Nat) → Drain κ τ → List (Batch κ τ)
  | 0, _ => []
  | n + 1, d =>
    if d.pending.isEmpty then []
    else d.nextBatch width policy :: upcoming width policy n (d.step width policy)

theorem run_of_pending_nil (width : Nat) (policy : FlushPolicy) (n : Nat) {d : Drain κ τ}
    (h : d.pending = []) : run width policy n d = d := by
  cases n with
  | zero => rfl
  | succ n => simp [run, h]

theorem run_succ {width : Nat} {policy : FlushPolicy} (n : Nat) {d : Drain κ τ}
    (h : d.pending ≠ []) : run width policy (n + 1) d = run width policy n (d.step width policy) := by
  simp [run, h]

theorem upcoming_of_pending_nil (width : Nat) (policy : FlushPolicy) (n : Nat) {d : Drain κ τ}
    (h : d.pending = []) : upcoming width policy n d = [] := by
  cases n with
  | zero => rfl
  | succ n => simp [upcoming, h]

theorem upcoming_succ {width : Nat} {policy : FlushPolicy} (n : Nat) {d : Drain κ τ}
    (h : d.pending ≠ []) :
    upcoming width policy (n + 1) d =
      d.nextBatch width policy :: upcoming width policy n (d.step width policy) := by
  simp [upcoming, h]

theorem run_add (width : Nat) (policy : FlushPolicy) (m n : Nat) (d : Drain κ τ) :
    run width policy (m + n) d = run width policy n (run width policy m d) := by
  induction m generalizing d with
  | zero => simp [run]
  | succ m ih =>
    by_cases h : d.pending = []
    · simp only [run_of_pending_nil width policy _ h]
    · rw [Nat.succ_add, run_succ _ h, run_succ _ h, ih]

theorem upcoming_add (width : Nat) (policy : FlushPolicy) (m n : Nat) (d : Drain κ τ) :
    upcoming width policy (m + n) d =
      upcoming width policy m d ++ upcoming width policy n (run width policy m d) := by
  induction m generalizing d with
  | zero => simp [run, upcoming]
  | succ m ih =>
    by_cases h : d.pending = []
    · simp only [run_of_pending_nil width policy _ h, upcoming_of_pending_nil width policy _ h,
        List.append_nil]
    · rw [Nat.succ_add, upcoming_succ _ h, upcoming_succ _ h, run_succ _ h, ih, List.cons_append]

/-- More steps than pending items can use deliver nothing more. -/
theorem upcoming_of_run_nil {width : Nat} {policy : FlushPolicy} {m n : Nat} {d : Drain κ τ}
    (h : (run width policy m d).pending = []) (hmn : m ≤ n) :
    upcoming width policy n d = upcoming width policy m d := by
  obtain ⟨more, rfl⟩ := Nat.exists_eq_add_of_le hmn
  rw [upcoming_add, upcoming_of_pending_nil _ _ _ h, List.append_nil]

theorem upcoming_length_le (width : Nat) (policy : FlushPolicy) (n : Nat) (d : Drain κ τ) :
    (upcoming width policy n d).length ≤ n := by
  induction n generalizing d with
  | zero => simp [upcoming]
  | succ n ih =>
    rw [upcoming]
    split
    · exact Nat.zero_le _
    · exact Nat.succ_le_succ (ih _)

theorem upcoming_length_of_pending {width : Nat} {policy : FlushPolicy} {n : Nat} {d : Drain κ τ}
    (h : (run width policy n d).pending ≠ []) : (upcoming width policy n d).length = n := by
  induction n generalizing d with
  | zero => rfl
  | succ n ih =>
    by_cases hd : d.pending = []
    · rw [run_of_pending_nil width policy _ hd] at h
      exact absurd hd h
    · rw [run_succ _ hd] at h
      rw [upcoming_succ _ hd, List.length_cons, ih h]

theorem upcoming_take {width : Nat} {policy : FlushPolicy} {m n : Nat} {d : Drain κ τ}
    (h : (run width policy n d).pending = []) :
    (upcoming width policy n d).take m = upcoming width policy m d := by
  rcases Nat.le_total m n with hmn | hnm
  · obtain ⟨more, rfl⟩ := Nat.exists_eq_add_of_le hmn
    rw [upcoming_add]
    by_cases hm : (run width policy m d).pending = []
    · rw [upcoming_of_pending_nil _ _ _ hm, List.append_nil]
      exact List.take_of_length_le (upcoming_length_le ..)
    · exact List.take_left' (upcoming_length_of_pending hm)
  · rw [upcoming_of_run_nil h hnm]
    exact List.take_of_length_le ((upcoming_length_le ..).trans hnm)

theorem run_batches (width : Nat) (hwidth : 2 * width ≤ maxLanes) (policy : FlushPolicy) (n : Nat)
    (d : Drain κ τ) :
    (run width policy n d).batches = d.batches ++ upcoming width policy n d := by
  induction n generalizing d with
  | zero => simp [run, upcoming]
  | succ n ih =>
    by_cases h : d.pending = []
    · rw [run_of_pending_nil _ _ _ h, upcoming_of_pending_nil _ _ _ h, List.append_nil]
    · rw [run_succ _ h, upcoming_succ _ h, ih, step_batches width hwidth, List.append_assoc,
        List.singleton_append]

/-- Delivered and pending items together keep the line of every key. -/
theorem run_ofKey (width : Nat) (hwidth : 2 * width ≤ maxLanes) (policy : FlushPolicy) (n : Nat)
    (d : Drain κ τ) (key : κ) :
    ofKey key ((upcoming width policy n d).flatMap Batch.items) ++
      ofKey key (run width policy n d).pending = ofKey key d.pending := by
  induction n generalizing d with
  | zero => simp [run, upcoming]
  | succ n ih =>
    by_cases h : d.pending = []
    · rw [run_of_pending_nil _ _ _ h, upcoming_of_pending_nil _ _ _ h]
      simp
    · rw [run_succ _ h, upcoming_succ _ h, List.flatMap_cons, ofKey_append, List.append_assoc, ih,
        step_ofKey width hwidth]

theorem upcoming_fits {width : Nat} (hpos : 1 ≤ width) (policy : FlushPolicy) {n : Nat}
    {d : Drain κ τ} {b : Batch κ τ} (hb : b ∈ upcoming width policy n d) : b.Fits width := by
  induction n generalizing d with
  | zero => simp [upcoming] at hb
  | succ n ih =>
    by_cases h : d.pending = []
    · simp [upcoming_of_pending_nil width policy _ h] at hb
    · rw [upcoming_succ _ h] at hb
      rcases List.mem_cons.mp hb with rfl | hb
      · exact nextBatch_fits hpos policy h
      · exact ih hb

theorem run_pending_nil {width : Nat} (hpos : 1 ≤ width) (hwidth : 2 * width ≤ maxLanes)
    (policy : FlushPolicy) {n : Nat} {d : Drain κ τ} (hn : d.pending.length ≤ n) :
    (run width policy n d).pending = [] := by
  induction n generalizing d with
  | zero => exact List.eq_nil_of_length_eq_zero (Nat.le_zero.mp hn)
  | succ n ih =>
    by_cases h : d.pending = []
    · rw [run_of_pending_nil _ _ _ h, h]
    · rw [run_succ _ h]
      have hlt := step_pending_length hpos hwidth policy h
      exact ih (by omega)

end ConflictBatching.Drain
