import ConflictBatching.Proofs.Ledger.Ancestors

/-! # What a pass releases

A pass splits its candidates into those that may run and those that are held, and the lines go on
following arrival when the released ones are counted as run. A pass over all that has not run
holds nothing back.
-/
namespace ConflictBatching.ArrivalOrder
variable {transfers : List Transfer} {o : ArrivalOrder} {applied : List Nat}

theorem Follows.advance {i : Nat} {t : Transfer} {o' : ArrivalOrder}
    (h : o.Follows transfers applied) (ht : transfers[i]? = some t)
    (hadvance : o.advance? i t = some o') : o'.Follows transfers (applied ++ [i]) := by
  rw [advance?] at hadvance
  split at hadvance
  · next hnext =>
    cases hadvance
    intro account
    rw [← h account, line_leave, List.filter_append, List.append_assoc]
    congr 1
    by_cases htouch : t.touches account
    · have hhead : (o.line account).head? = some i := by
        rw [← next?_eq_head?]
        rcases htouch with rfl | rfl
        · exact hnext.1
        · exact hnext.2
      obtain ⟨rest, hline⟩ := List.head?_eq_some_iff.mp hhead
      simp [touchesAt_eq ht, htouch, hline]
    · simp [touchesAt_eq ht, htouch]
  · cases hadvance

/-- A transfer is first in line on an account once everything before it there has run. -/
theorem Follows.next?_eq {account i : Nat} (h : o.Follows transfers applied)
    (htouch : touchesAt transfers account i = true) (hi : i ∉ applied)
    (hbefore : ∀ j < i, touchesAt transfers account j = true → j ∈ applied) :
    o.next? account = some i := by
  have hline : i ∈ o.line account := by
    have hmem := mem_arrivals.mpr htouch
    rw [← h account, List.mem_append] at hmem
    rcases hmem with hran | hline
    · exact absurd (List.mem_filter.mp hran).1 hi
    · exact hline
  have hsorted := arrivals_sorted transfers account
  rw [← h account] at hsorted
  obtain ⟨-, hlineSorted, hran⟩ := List.pairwise_append.mp hsorted
  rw [next?_eq_head?]
  cases hcase : o.line account with
  | nil => simp [hcase] at hline
  | cons j rest =>
    rw [hcase] at hline hlineSorted
    have hj : j ∈ arrivals transfers account := by simp [← h account, hcase]
    have hjtouch := mem_arrivals.mp hj
    have hle : ¬j < i := by
      intro hlt
      have hjran := List.mem_filter.mpr ⟨hbefore j hlt hjtouch, hjtouch⟩
      exact Nat.lt_irrefl j (hran j hjran j (by simp [hcase]))
    rcases List.mem_cons.mp hline with rfl | hrest
    · rfl
    · exact absurd (List.rel_of_pairwise_cons hlineSorted hrest) hle

/-- Before the first in line on an account, everything has run. -/
theorem Follows.mem_of_next? {account i j : Nat} (h : o.Follows transfers applied)
    (hnext : o.next? account = some i) (htouch : touchesAt transfers account j = true)
    (hlt : j < i) : j ∈ applied := by
  rw [next?_eq_head?] at hnext
  obtain ⟨rest, hline⟩ := List.head?_eq_some_iff.mp hnext
  have hj := mem_arrivals.mpr htouch
  have hsorted := arrivals_sorted transfers account
  rw [← h account, hline] at hj hsorted
  obtain ⟨-, hlineSorted, -⟩ := List.pairwise_append.mp hsorted
  rcases List.mem_append.mp hj with hran | hwaits
  · exact (List.mem_filter.mp hran).1
  · rcases List.mem_cons.mp hwaits with rfl | hlater
    · exact absurd hlt (Nat.lt_irrefl j)
    · exact absurd hlt (Nat.lt_asymm (List.rel_of_pairwise_cons hlineSorted hlater))

/-- A transfer may run exactly when all that precede it have run. -/
theorem Follows.advance?_isSome_iff {i : Nat} {t : Transfer} (h : o.Follows transfers applied)
    (ht : transfers[i]? = some t) (hi : i ∉ applied) :
    (o.advance? i t).isSome = true ↔ ∀ j, Precedes transfers j i → j ∈ applied := by
  have hends : ∀ account, t.touches account → touchesAt transfers account i = true := by
    intro account htouch
    rw [touchesAt_eq ht]
    exact decide_eq_true htouch
  rw [advance?]
  constructor
  · intro hrun j hj
    split at hrun
    · next hnext =>
      obtain ⟨account, hjtouch, hitouch⟩ := hj.exists_account
      rw [touchesAt_eq ht] at hitouch
      rcases of_decide_eq_true hitouch with rfl | rfl
      · exact h.mem_of_next? hnext.1 hjtouch hj.1
      · exact h.mem_of_next? hnext.2 hjtouch hj.1
    · cases hrun
  · intro hbefore
    have hnext : ∀ account, t.touches account → o.next? account = some i := by
      intro account htouch
      apply h.next?_eq (hends account htouch) hi
      intro j hj hjtouch
      exact hbefore j (precedes_of_touchesAt hj hjtouch (hends account htouch))
    rw [if_pos ⟨hnext t.source (Or.inl rfl), hnext t.target (Or.inr rfl)⟩]
    rfl

theorem release_follows (h : o.Follows transfers applied) (candidates : List Nat) :
    (release transfers.toArray o candidates).order.Follows transfers
      (applied ++ (release transfers.toArray o candidates).ready) := by
  induction candidates generalizing o applied with
  | nil => simpa [release] using h
  | cons i rest ih =>
    rw [release]
    split
    · next o' hrun =>
      obtain ⟨t, ht, hadvance⟩ := Option.bind_eq_some_iff.mp hrun
      rw [List.getElem?_toArray] at ht
      have hrest := ih (h.advance ht hadvance)
      rwa [List.append_assoc] at hrest
    · exact ih h

theorem release_perm (transfers : Array Transfer) (o : ArrivalOrder) (candidates : List Nat) :
    ((release transfers o candidates).ready ++ (release transfers o candidates).held).Perm
      candidates := by
  induction candidates generalizing o with
  | nil => exact List.Perm.nil
  | cons i rest ih =>
    rw [release]
    split
    · next o' _ => exact (ih o').cons i
    · exact List.perm_middle.trans ((ih o).cons i)

/-- Whatever is ready is run by one ascending pass over the delivered transfers, and nothing else is:
what precedes a candidate has run before the pass comes to it, or is not ready itself. -/
theorem release_eq_filter {delivered candidates : List Nat}
    [DecidablePred (Ready transfers delivered)] (h : o.Follows transfers applied)
    (hsorted : candidates.Pairwise (· < ·)) (hran : ∀ i ∈ applied, Ready transfers delivered i)
    (hwaiting : ∀ i, Ready transfers delivered i → i ∈ applied ∨ i ∈ candidates)
    (hcandidates : ∀ i ∈ candidates, i < transfers.length ∧ i ∈ delivered ∧ i ∉ applied) :
    (release transfers.toArray o candidates).ready =
        candidates.filter (fun i => Ready transfers delivered i) ∧
      (release transfers.toArray o candidates).held =
        candidates.filter (fun i => ¬Ready transfers delivered i) := by
  induction candidates generalizing o applied with
  | nil => exact ⟨rfl, rfl⟩
  | cons i rest ih =>
    obtain ⟨hfirst, hrest⟩ := List.pairwise_cons.mp hsorted
    obtain ⟨⟨hlt, hdelivered, hfresh⟩, hcandidatesRest⟩ := List.forall_mem_cons.mp hcandidates
    have ht : transfers[i]? = some transfers[i] := List.getElem?_eq_getElem hlt
    have hruns := h.advance?_isSome_iff ht hfresh
    by_cases hready : Ready transfers delivered i
    · have hbefore : ∀ j, Precedes transfers j i → j ∈ applied := by
        intro j hj
        rcases hwaiting j (hready.of_precedes hj) with hran | hwaits
        · exact hran
        · rcases List.mem_cons.mp hwaits with rfl | hlater
          · exact absurd hj.1 (Nat.lt_irrefl j)
          · exact absurd hj.1 (Nat.lt_asymm (hfirst j hlater))
      obtain ⟨o', hadvance⟩ := Option.isSome_iff_exists.mp (hruns.mpr hbefore)
      have hran' : ∀ j ∈ applied ++ [i], Ready transfers delivered j := by
        intro j hj
        rcases List.mem_append.mp hj with hj | hj
        · exact hran j hj
        · rwa [List.mem_singleton.mp hj]
      have hwaiting' : ∀ j, Ready transfers delivered j → j ∈ applied ++ [i] ∨ j ∈ rest := by
        intro j hj
        have hplace := hwaiting j hj
        rw [List.mem_cons] at hplace
        simpa [or_assoc] using hplace
      have hcandidates' : ∀ j ∈ rest,
          j < transfers.length ∧ j ∈ delivered ∧ j ∉ applied ++ [i] := by
        intro j hj
        obtain ⟨hjlt, hjdelivered, hjfresh⟩ := hcandidatesRest j hj
        have hne : j ≠ i := (hfirst j hj).ne'
        exact ⟨hjlt, hjdelivered, by simp [hjfresh, hne]⟩
      obtain ⟨hreadyRest, hheldRest⟩ :=
        ih (h.advance ht hadvance) hrest hran' hwaiting' hcandidates'
      simp [release, ht, hadvance, hready, hreadyRest, hheldRest]
    · have hstuck : o.advance? i transfers[i] = none := by
        rw [← Option.not_isSome_iff_eq_none, hruns]
        intro hbefore
        exact hready (ready_of_forall_precedes hdelivered fun j hj => hran j (hbefore j hj))
      have hwaiting' : ∀ j, Ready transfers delivered j → j ∈ applied ∨ j ∈ rest := by
        intro j hj
        rcases hwaiting j hj with hran | hwaits
        · exact Or.inl hran
        · rcases List.mem_cons.mp hwaits with rfl | hlater
          · exact absurd hj hready
          · exact Or.inr hlater
      obtain ⟨hreadyRest, hheldRest⟩ := ih h hrest hran hwaiting' hcandidatesRest
      simp [release, ht, hstuck, hready, hreadyRest, hheldRest]

theorem pairwise_lt_of_nodup {indices : List Nat} (hsorted : indices.Pairwise (· ≤ ·))
    (hnodup : indices.Nodup) : indices.Pairwise (· < ·) :=
  (hsorted.and hnodup).imp fun h => Nat.lt_of_le_of_ne h.1 h.2

/-- Once everything is delivered, everything is ready. -/
theorem release_held_nil {candidates : List Nat} (h : o.Follows transfers applied)
    (hsorted : candidates.Pairwise (· ≤ ·))
    (hall : (applied ++ candidates).Perm (List.range transfers.length)) :
    (release transfers.toArray o candidates).held = [] := by
  classical
  have hmem : ∀ i, i ∈ applied ++ candidates ↔ i < transfers.length := by
    intro i
    rw [hall.mem_iff, List.mem_range]
  have hready : ∀ i ∈ applied ++ candidates, Ready transfers (List.range transfers.length) i := by
    intro i hi j hj
    exact List.mem_range.mpr (hj.le.trans_lt ((hmem i).mp hi))
  obtain ⟨-, hnodup, hdisjoint⟩ :=
    List.nodup_append.mp (hall.nodup_iff.mpr List.nodup_range)
  obtain ⟨-, hheld⟩ := release_eq_filter h (pairwise_lt_of_nodup hsorted hnodup)
    (fun i hi => hready i (List.mem_append_left _ hi))
    (fun i hi => List.mem_append.mp (hall.symm.subset hi.mem))
    (fun i hi => by
      have hlt := (hmem i).mp (List.mem_append_right _ hi)
      exact ⟨hlt, List.mem_range.mpr hlt, fun hran => hdisjoint i hran i hi rfl⟩)
  rw [hheld, List.filter_eq_nil_iff]
  intro i hi
  simpa using hready i (List.mem_append_right _ hi)

end ConflictBatching.ArrivalOrder
