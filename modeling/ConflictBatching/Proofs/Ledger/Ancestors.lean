import Mathlib.Logic.Relation
import ConflictBatching.Proofs.Ledger.Lines

/-! # What a transfer has to wait for

A transfer waits for every earlier transfer on one of its accounts, these wait for others in turn,
and so on. It is ready once all of these ancestors are delivered, itself among them.
-/
namespace ConflictBatching
variable {transfers : List Transfer} {delivered : List Nat} {i j : Nat}

/-- Transfer `j` arrived before transfer `i` and shares an account with it. -/
def Precedes (transfers : List Transfer) (j i : Nat) : Prop :=
  j < i ∧ ∃ x y, transfers[j]? = some x ∧ transfers[i]? = some y ∧ x.sharesAccount y

/-- Transfer `j` is transfer `i` itself or is reached from it by steps to transfers that precede. -/
abbrev Ancestor (transfers : List Transfer) (j i : Nat) : Prop :=
  Relation.ReflTransGen (Precedes transfers) j i

/-- All ancestors of a transfer are delivered. -/
def Ready (transfers : List Transfer) (delivered : List Nat) (i : Nat) : Prop :=
  ∀ j, Ancestor transfers j i → j ∈ delivered

theorem Precedes.exists_account (h : Precedes transfers j i) :
    ∃ account, touchesAt transfers account j = true ∧ touchesAt transfers account i = true := by
  obtain ⟨-, x, y, hx, hy, account, hxtouch, hytouch⟩ := h
  refine ⟨account, ?_, ?_⟩
  · rw [touchesAt_eq hx]
    exact decide_eq_true hxtouch
  · rw [touchesAt_eq hy]
    exact decide_eq_true hytouch

theorem precedes_of_touchesAt {account : Nat} (hlt : j < i)
    (hj : touchesAt transfers account j = true) (hi : touchesAt transfers account i = true) :
    Precedes transfers j i := by
  obtain ⟨x, hx, hxtouch⟩ := Option.any_eq_true _ _ |>.mp hj
  obtain ⟨y, hy, hytouch⟩ := Option.any_eq_true _ _ |>.mp hi
  exact ⟨hlt, x, y, hx, hy, account, of_decide_eq_true hxtouch, of_decide_eq_true hytouch⟩

theorem Ancestor.le (h : Ancestor transfers j i) : j ≤ i := by
  induction h with
  | refl => exact Nat.le_refl j
  | tail _ hstep ih => exact ih.trans hstep.1.le

theorem Ready.mem (h : Ready transfers delivered i) : i ∈ delivered := h i .refl

theorem Ready.of_precedes (h : Ready transfers delivered i) (hj : Precedes transfers j i) :
    Ready transfers delivered j :=
  fun k hk => h k (hk.tail hj)

theorem Ready.mono {more : List Nat} (h : Ready transfers delivered i) (hsub : delivered ⊆ more) :
    Ready transfers more i :=
  fun j hj => hsub (h j hj)

/-- A delivered transfer is ready when those that precede it are. -/
theorem ready_of_forall_precedes (hi : i ∈ delivered)
    (h : ∀ j, Precedes transfers j i → Ready transfers delivered j) :
    Ready transfers delivered i := by
  intro k hk
  rcases hk.cases_tail with rfl | ⟨j, hkj, hji⟩
  · exact hi
  · exact h j hji k hkj

/-- What precedes a delivered transfer is delivered as well. -/
def Closed (transfers : List Transfer) (delivered : List Nat) : Prop :=
  ∀ i ∈ delivered, ∀ j, Precedes transfers j i → j ∈ delivered

theorem Closed.ready (h : Closed transfers delivered) (hi : i ∈ delivered) :
    Ready transfers delivered i := by
  intro j hj
  induction hj using Relation.ReflTransGen.head_induction_on with
  | refl => exact hi
  | head hstep _ ih => exact h _ ih _ hstep

end ConflictBatching
