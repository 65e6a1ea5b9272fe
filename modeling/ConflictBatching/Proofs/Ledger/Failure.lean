import ConflictBatching.Proofs.Ledger.Effect

/-! # Indices outside the store

A round does not check its indices. An operation with distinct indices always runs: what it reads
outside the store is the default record and what it writes there is lost. Only an operation that
repeats an index meets the end of the store, and then nothing is left of the whole application,
however many operations a round takes.
-/
namespace ConflictBatching
open GuardedUpdate

theorem foldlM_eq_none_iff {α σ : Type} {step : σ → α → Option σ} {start : σ} {xs : List α} :
    xs.foldlM step start = none ↔ ∃ before x after reached, xs = before ++ x :: after ∧
      before.foldlM step start = some reached ∧ step reached x = none := by
  constructor
  · intro h
    induction xs generalizing start with
    | nil => cases h
    | cons x xs ih =>
      rw [List.foldlM_cons] at h
      cases hx : step start x with
      | none => exact ⟨[], x, xs, start, rfl, rfl, hx⟩
      | some next =>
        rw [hx] at h
        obtain ⟨before, y, after, reached, rfl, hbefore, hy⟩ := ih h
        refine ⟨x :: before, y, after, reached, rfl, ?_, hy⟩
        rw [List.foldlM_cons, hx]
        exact hbefore
  · rintro ⟨before, x, after, reached, rfl, hbefore, hx⟩
    rw [List.foldlM_append, hbefore, Option.bind_eq_bind, Option.bind_some, List.foldlM_cons, hx]
    rfl

section Operations
variable {ω ρ : Type} {arity : Nat} [GuardedUpdate ω ρ arity] [Inhabited ρ]

theorem size_of_runOp {op : ω} {store store' : Array ρ} (h : runOp store op = some store') :
    store'.size = store.size := by
  rw [runOp] at h
  split at h
  · cases h
    exact size_writeAll ..
  · exact size_of_runDirect h

theorem runOp_eq_none_iff {op : ω} {store : Array ρ} :
    runOp store op = none ↔ ¬(refs op).toList.Nodup ∧ runDirect op store = none := by
  rw [runOp]
  split <;> simp [*]

end Operations

namespace Transfer

theorem runDirect_eq_none_iff {t : Transfer} {table : Array Account} :
    runDirect t table = none ↔ ¬t.within table.size := by
  constructor
  · intro h hwithin
    obtain ⟨table', hrun, -⟩ := runDirect_of_within hwithin
    rw [h] at hrun
    cases hrun
  · intro h
    exact congrArg (Option.map Vector.toArray) (dif_neg h)

theorem runOp_eq_none_iff {t : Transfer} {table : Array Account} :
    runOp table t = none ↔ t.source = t.target ∧ table.size ≤ t.source := by
  rw [ConflictBatching.runOp_eq_none_iff, runDirect_eq_none_iff, refs_toList, within]
  simp only [List.nodup_cons, List.mem_singleton, List.not_mem_nil, not_false_eq_true,
    List.nodup_nil, and_true, not_not]
  constructor
  · rintro ⟨hself, hout⟩
    exact ⟨hself, Nat.le_of_not_lt fun hlt => hout ⟨hlt, hself ▸ hlt⟩⟩
  · rintro ⟨hself, hle⟩
    exact ⟨hself, fun hin => Nat.not_lt_of_le hle hin.1⟩

/-- Transfers keep the size of the table, so the place of a failing one does not matter. -/
theorem foldlM_runOp_eq_none_iff {transfers : List Transfer} {table : Array Account} :
    transfers.foldlM runOp table = none ↔
      ∃ t ∈ transfers, t.source = t.target ∧ table.size ≤ t.source := by
  induction transfers generalizing table with
  | nil => simp
  | cons t ts ih =>
    rw [List.foldlM_cons, List.exists_mem_cons_iff]
    cases hrun : runOp table t with
    | none => exact iff_of_true rfl (.inl (runOp_eq_none_iff.mp hrun))
    | some next =>
      have hruns : ¬(t.source = t.target ∧ table.size ≤ t.source) := by
        rw [← runOp_eq_none_iff, hrun]
        exact Option.some_ne_none next
      rw [or_iff_right hruns, ← size_of_runOp hrun]
      exact ih

end Transfer

/-- A guarded application is its operations one at a time: with distinct indices on the records they
name, else directly on the store. It fails exactly where one of the latter fails, so no two widths
differ; of transfers only those within one missing account fail. -/
theorem guarded_rounds_fold_operations :
    (∀ {ω ρ : Type} {arity : Nat} [GuardedUpdate ω ρ arity] [Inhabited ρ] {width : Nat},
      1 ≤ arity → 1 ≤ width → width * arity ≤ maxLanes → ∀ (store : Array ρ) (ops : List ω),
        (applyGuarded width store ops).map Prod.snd = ops.foldlM runOp store ∧
        (applyGuarded width store ops = none ↔
          ∃ (before : List ω) (op : ω) (after : List ω) (reached : Array ρ),
            ops = before ++ op :: after ∧
            before.foldlM runOp store = some reached ∧
            ¬(refs op).toList.Nodup ∧ runDirect op reached = none) ∧
        ∀ {width' : Nat}, 1 ≤ width' → width' * arity ≤ maxLanes →
          (applyGuarded width' store ops).map Prod.snd =
            (applyGuarded width store ops).map Prod.snd) ∧
    ∀ {width : Nat}, 1 ≤ width → width * 2 ≤ maxLanes →
      ∀ (table : Array Account) (transfers : List Transfer),
        applyGuarded width table transfers = none ↔
          ∃ t ∈ transfers, t.source = t.target ∧ table.size ≤ t.source := by
  constructor
  · intro ω ρ arity _ _ width harity hwidth hfit store ops
    have hfold := applyGuarded_eq_foldlM harity hwidth hfit store ops
    refine ⟨hfold, ?_, ?_⟩
    · rw [← Option.map_eq_none_iff (f := Prod.snd), hfold, foldlM_eq_none_iff]
      simp only [runOp_eq_none_iff]
    · intro width' hwidth' hfit'
      rw [hfold, applyGuarded_eq_foldlM harity hwidth' hfit']
  · intro width hwidth hfit table transfers
    rw [← Option.map_eq_none_iff (f := Prod.snd),
      applyGuarded_eq_foldlM (by decide) hwidth hfit, Transfer.foldlM_runOp_eq_none_iff]

/-- Two accounts: the missing account of the first transfer is no failure, the one that the last names
twice is. -/
theorem guarded_rounds_fail_within_missing_account :
    let table : Array Account := Array.replicate 2 { balance := 100 }
    let transfers : List Transfer := [⟨1, 0, 7, 50⟩, ⟨2, 1, 1, 30⟩, ⟨3, 9, 9, 20⟩]
    1 ≤ 2 ∧ 1 ≤ 4 ∧ 4 * 2 ≤ maxLanes ∧ 1 ≤ 32 ∧ 32 * 2 ≤ maxLanes ∧
      (applyGuarded 4 table (transfers.take 2)).map Prod.snd =
        some #[⟨50, 1⟩, ⟨100, 2⟩] ∧
      (applyGuarded 32 table transfers).map Prod.snd =
        (applyGuarded 4 table transfers).map Prod.snd ∧
      applyGuarded 4 table transfers = none := by
  intro table transfers
  obtain ⟨hfold, -, -⟩ := guarded_rounds_fold_operations.1 (by decide) (show 1 ≤ 4 by decide)
    (by decide) table (transfers.take 2)
  obtain ⟨-, -, hwidths⟩ := guarded_rounds_fold_operations.1 (by decide) (show 1 ≤ 4 by decide)
    (by decide) table transfers
  have hfails := guarded_rounds_fold_operations.2 (show 1 ≤ 4 by decide) (by decide) table transfers
  refine ⟨by decide, by decide, by decide, by decide, by decide, ?_, ?_, ?_⟩
  · rw [hfold]
    decide +kernel
  · exact hwidths (by decide) (by decide)
  · exact hfails.mpr ⟨⟨3, 9, 9, 20⟩, by decide, rfl, by decide⟩

end ConflictBatching
