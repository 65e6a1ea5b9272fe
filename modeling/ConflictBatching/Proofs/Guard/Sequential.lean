import ConflictBatching.Proofs.Guard.Rounds

/-! # Guarded application is sequential application

An operation promises that its two ways to run agree when its indices are distinct and inside the
store. Nothing is promised for an operation that repeats an index: a round never updates it.
-/
namespace ConflictBatching
open GuardedUpdate
variable {ω ρ : Type} {arity : Nat} [GuardedUpdate ω ρ arity]

def InRange (len : Nat) (op : ω) : Prop := ∀ i ∈ (refs op).toList, i < len

/-- Run directly, an operation with distinct indices inside the store writes exactly its records,
with the values that its update computes from their old values. -/
def AgreesOnDistinct [Inhabited ρ] (op : ω) : Prop :=
  ∀ store : Array ρ, InRange store.size op → (refs op).toList.Nodup →
    runDirect op store = some (applyRecords store op)

theorem size_of_runDirect {op : ω} {store store' : Array ρ} (h : runDirect op store = some store') :
    store'.size = store.size := by
  obtain ⟨v, -, rfl⟩ := Option.map_eq_some_iff.mp h
  exact v.size_toArray

theorem size_of_applySequential {ops : List ω} {store store' : Array ρ}
    (h : applySequential store ops = some store') : store'.size = store.size := by
  induction ops generalizing store with
  | nil => cases h; rfl
  | cons op ops ih =>
    rw [applySequential, List.foldlM_cons] at h
    obtain ⟨next, hop, hrest⟩ := Option.bind_eq_some_iff.mp h
    rw [ih hrest, size_of_runDirect hop]

variable [Inhabited ρ]

theorem runOp_eq_runDirect {op : ω} (hop : AgreesOnDistinct op) {store : Array ρ}
    (hrange : InRange store.size op) : runOp store op = runDirect op store := by
  rw [runOp]
  split
  · next hnodup => exact (hop store hrange hnodup).symm
  · rfl

theorem foldlM_runOp_eq_applySequential {ops : List ω} (hagree : ∀ op ∈ ops, AgreesOnDistinct op)
    {store : Array ρ} (hrange : ∀ op ∈ ops, InRange store.size op) :
    ops.foldlM runOp store = applySequential store ops := by
  induction ops generalizing store with
  | nil => rfl
  | cons op ops ih =>
    obtain ⟨hop, hops⟩ := List.forall_mem_cons.mp hagree
    obtain ⟨hin, hins⟩ := List.forall_mem_cons.mp hrange
    rw [applySequential, List.foldlM_cons, List.foldlM_cons, runOp_eq_runDirect hop hin]
    cases hrun : runDirect op store with
    | none => rfl
    | some store' =>
      have hsize := size_of_runDirect hrun
      exact ih hops (hsize ▸ hins)

theorem applyGuarded_eq_applySequential (harity : 1 ≤ arity) {width : Nat} (hwidth : 1 ≤ width)
    (hfit : width * arity ≤ maxLanes) {store : Array ρ} {ops : List ω}
    (hrange : ∀ op ∈ ops, InRange store.size op) (hagree : ∀ op ∈ ops, AgreesOnDistinct op) :
    (applyGuarded width store ops).map Prod.snd = applySequential store ops := by
  rw [applyGuarded_eq_foldlM harity hwidth hfit, foldlM_runOp_eq_applySequential hagree hrange]

end ConflictBatching
