import ConflictBatching.Proofs.Ledger.Effect

/-! # Guarded rounds leave the sequential store

This holds for operations of any arity on records of any type, of which only their own promise is
known, and transfers keep that promise.
-/
namespace ConflictBatching
open GuardedUpdate

/-- The law of an operation says nothing of one that repeats an index: such an operation must run
directly, and the rounds have to see to it. -/
theorem guarded_rounds_leave_sequential_store :
    (∀ {ω ρ : Type} {arity : Nat} [GuardedUpdate ω ρ arity] [Inhabited ρ] {width : Nat},
      1 ≤ arity → 1 ≤ width → width * arity ≤ maxLanes →
      ∀ (store : Array ρ) (ops : List ω), (∀ op ∈ ops, InRange store.size op) →
        (∀ op ∈ ops, AgreesOnDistinct op) →
        (applyGuarded width store ops).map Prod.snd = applySequential store ops) ∧
    ∀ t : Transfer, AgreesOnDistinct t := by
  refine ⟨?_, Transfer.agreesOnDistinct⟩
  intro ω ρ arity _ _ width harity hwidth hfit store ops hrange hagree
  exact applyGuarded_eq_applySequential harity hwidth hfit hrange hagree

/-- Three transfers over three accounts, the second within one account. -/
theorem guarded_rounds_leave_store_of_self_transfer :
    let store : Array Account := Array.replicate 3 { balance := 100 }
    let ops : List Transfer := [⟨1, 0, 1, 50⟩, ⟨2, 1, 1, 30⟩, ⟨3, 0, 1, 20⟩]
    1 ≤ 2 ∧ 1 ≤ 4 ∧ 4 * 2 ≤ maxLanes ∧ (∀ op ∈ ops, InRange store.size op) ∧
      (∀ op ∈ ops, AgreesOnDistinct op) ∧
      (applyGuarded 4 store ops).map Prod.snd = applySequential store ops := by
  intro store ops
  have hrange : ∀ op ∈ ops, InRange store.size op := by
    intro op hop
    rw [Transfer.inRange_iff_within, Transfer.within]
    revert op
    decide
  have hagree : ∀ op ∈ ops, AgreesOnDistinct op := fun op _ => Transfer.agreesOnDistinct op
  exact ⟨by decide, by decide, by decide, hrange, hagree,
    guarded_rounds_leave_sequential_store.1 (by decide) (by decide) (by decide) store ops hrange hagree⟩

end ConflictBatching
