import ConflictBatching.Ledger.Table
import ConflictBatching.Proofs.Guard.Sequential

/-! # Transfers account by account

Seen from one account, a transfer is a function of that account alone, and it is the identity on
the accounts it does not touch. A table after any transfers is told by these functions.
-/
namespace ConflictBatching
open GuardedUpdate

namespace Transfer

def touches (t : Transfer) (account : Nat) : Prop := t.source = account ∨ t.target = account

instance (t : Transfer) (account : Nat) : Decidable (t.touches account) :=
  inferInstanceAs (Decidable (_ ∨ _))

def sharesAccount (t u : Transfer) : Prop := ∃ account, t.touches account ∧ u.touches account

theorem sharesAccount_iff {t u : Transfer} :
    t.sharesAccount u ↔ t.touches u.source ∨ t.touches u.target := by
  constructor
  · rintro ⟨account, ht, rfl | rfl⟩
    · exact Or.inl ht
    · exact Or.inr ht
  · rintro (ht | ht)
    · exact ⟨u.source, ht, Or.inl rfl⟩
    · exact ⟨u.target, ht, Or.inr rfl⟩

instance (t u : Transfer) : Decidable (t.sharesAccount u) :=
  decidable_of_iff _ sharesAccount_iff.symm

def within (len : Nat) (t : Transfer) : Prop := t.source < len ∧ t.target < len

def effect (account : Nat) (t : Transfer) (a : Account) : Account :=
  let debited := if t.source = account then a.debit t else a
  if t.target = account then debited.credit t else debited

theorem effect_of_not_touches {t : Transfer} {account : Nat} (h : ¬t.touches account) :
    t.effect account = fun a => a := by
  rw [touches, not_or] at h
  funext a
  simp [effect, h.1, h.2]

theorem within_iff_accounts {len : Nat} {t : Transfer} :
    t.within len ↔ ∀ account ∈ t.accounts, account < len := by
  simp [within, accounts]

theorem refs_toList (t : Transfer) : (refs t).toList = [t.source, t.target] := rfl

theorem inRange_iff_within {len : Nat} {t : Transfer} : InRange len t ↔ t.within len := by
  simp [InRange, refs_toList, within]

theorem applyTo_of_within {n : Nat} {t : Transfer} (table : Vector Account n) (h : t.within n) :
    ∃ table' : Vector Account n, t.applyTo table = some table' ∧
      ∀ account, table'[account]? = table[account]?.map (t.effect account) := by
  obtain ⟨hsource, htarget⟩ := h
  refine ⟨_, dif_pos ⟨hsource, htarget⟩, ?_⟩
  intro account
  by_cases ht : t.target = account
  · subst ht
    by_cases hs : t.source = t.target <;> simp [effect, hs, htarget]
  · by_cases hs : t.source = account
    · subst hs
      simp [effect, ht, hsource]
    · have hkeep := effect_of_not_touches (not_or.mpr ⟨hs, ht⟩)
      simp [hkeep, hs, ht]

theorem runDirect_of_within {t : Transfer} {table : Array Account} (h : t.within table.size) :
    ∃ table', runDirect t table = some table' ∧
      ∀ account, table'[account]? = table[account]?.map (t.effect account) := by
  obtain ⟨v, hrun, heffect⟩ := applyTo_of_within table.toVector h
  refine ⟨v.toArray, congrArg (Option.map Vector.toArray) hrun, ?_⟩
  intro account
  simpa using heffect account

theorem agreesOnDistinct (t : Transfer) : AgreesOnDistinct t := by
  intro table hrange hnodup
  have hwithin : t.within table.size := inRange_iff_within.mp hrange
  obtain ⟨table', hrun, heffect⟩ := runDirect_of_within hwithin
  have hne : t.source ≠ t.target := by simpa [refs_toList] using hnodup
  rw [hrun]
  congr 1
  apply Array.ext_getElem?
  intro account
  have hwrites : applyRecords table t =
      (table.setIfInBounds t.source ((table[t.source]?.getD default).debit t)).setIfInBounds t.target
        ((table[t.target]?.getD default).credit t) := by
    simp [applyRecords, updated, readAll, refs, update, writeAll, Vector.get]
    rfl
  obtain ⟨hsource, htarget⟩ := hwithin
  rw [heffect, hwrites]
  by_cases ht : t.target = account
  · subst ht
    simp [effect, hne, htarget]
  · by_cases hs : t.source = account
    · subst hs
      simp [effect, ht, hsource]
    · have hkeep := effect_of_not_touches (not_or.mpr ⟨hs, ht⟩)
      simp [hkeep, hs, ht]

end Transfer

theorem AccountTable.validate_eq_ok_iff {t : AccountTable} {transfers : List Transfer} :
    t.validate transfers = .ok () ↔ ∀ x ∈ transfers, x.within t.size := by
  rw [validate]
  generalize 0 = i
  induction transfers generalizing i with
  | nil => simp [checkFrom]
  | cons x xs ih =>
    rw [checkFrom, List.forall_mem_cons, Transfer.within_iff_accounts]
    cases hfind : x.accounts.find? (t.size ≤ ·) with
    | none =>
      have hwithin : ∀ account ∈ x.accounts, account < t.size := by simpa using hfind
      rw [and_iff_right hwithin]
      exact ih (i + 1)
    | some account =>
      have hout : t.size ≤ account := by simpa using List.find?_some hfind
      constructor
      · intro herror
        cases herror
      · rintro ⟨hwithin, -⟩
        exact absurd (hwithin account (List.mem_of_find?_eq_some hfind)) (Nat.not_lt_of_le hout)

end ConflictBatching
