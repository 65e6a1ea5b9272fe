import ConflictBatching.Proofs.Ledger.Effect

/-! # One transfer at a time

Transfers within the table always run, and what they leave on an account depends only on those of
them that touch it and on the order of these. Two lists that agree on every account therefore
leave the same table, however they interleave transfers without a common account.
-/
namespace ConflictBatching

namespace Transfer

theorem foldl_effect_filter (account : Nat) (ts : List Transfer) (a : Account) :
    ts.foldl (fun a t => t.effect account a) a =
      (ts.filter (·.touches account)).foldl (fun a t => t.effect account a) a := by
  induction ts generalizing a with
  | nil => rfl
  | cons t ts ih =>
    rw [List.foldl_cons, ih]
    by_cases h : t.touches account
    · simp only [List.filter_cons, h, decide_true, ↓reduceIte, List.foldl_cons]
    · simp [h, effect_of_not_touches h]

end Transfer

theorem applySequential_of_within {ts : List Transfer} {table : Array Account}
    (h : ∀ t ∈ ts, t.within table.size) :
    ∃ table', applySequential table ts = some table' ∧ ∀ account,
      table'[account]? = table[account]?.map fun a => ts.foldl (fun a t => t.effect account a) a := by
  induction ts generalizing table with
  | nil => exact ⟨table, rfl, by simp⟩
  | cons t ts ih =>
    obtain ⟨ht, hts⟩ := List.forall_mem_cons.mp h
    obtain ⟨next, hrun, hnext⟩ := Transfer.runDirect_of_within ht
    rw [← size_of_runDirect hrun] at hts
    obtain ⟨table', hrest, htable'⟩ := ih hts
    refine ⟨table', ?_, ?_⟩
    · rw [applySequential, List.foldlM_cons, hrun]
      exact hrest
    · intro account
      rw [htable', hnext, Option.map_map]
      rfl

/-- Only the order of the transfers on each account matters. -/
theorem applySequential_congr {ts us : List Transfer} {table : Array Account}
    (hts : ∀ t ∈ ts, t.within table.size) (hus : ∀ t ∈ us, t.within table.size)
    (h : ∀ account, ts.filter (·.touches account) = us.filter (·.touches account)) :
    applySequential table ts = applySequential table us := by
  obtain ⟨table', hrun, htable'⟩ := applySequential_of_within hts
  obtain ⟨table'', hrun', htable''⟩ := applySequential_of_within hus
  rw [hrun, hrun']
  congr 1
  apply Array.ext_getElem?
  intro account
  rw [htable', htable'']
  congr 1
  funext a
  rw [Transfer.foldl_effect_filter, h, ← Transfer.foldl_effect_filter]

theorem applySequential_append {ω ρ : Type} {arity : Nat} [GuardedUpdate ω ρ arity]
    (store : Array ρ) (ops ops' : List ω) :
    applySequential store (ops ++ ops') =
      (applySequential store ops).bind fun store => applySequential store ops' :=
  List.foldlM_append

end ConflictBatching
