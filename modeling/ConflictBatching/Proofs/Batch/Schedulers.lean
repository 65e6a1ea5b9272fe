import Mathlib.Data.Finset.Card
import Mathlib.Data.List.Zip
import ConflictBatching.Batch.Reference
import ConflictBatching.Proofs.Batch.Arrange

/-! # Two schedulers, one arrangement

The scheduler reads a mask of repeats and partitions by lanes, the other one fills two lists. Both
leave the window as its first occurrences followed by its repeats, whatever the lengths of keys,
tokens and extent, and neither moves anything behind the window.
-/
namespace ConflictBatching

theorem map_fst_zip_append_drop {α β : Type} (xs : List α) (ys : List β) (n : Nat) :
    ((xs.zip ys).drop n).map Prod.fst ++ xs.drop (min xs.length ys.length) =
      xs.drop (min n (min xs.length ys.length)) := by
  rw [List.map_drop, map_fst_zip_take]
  rcases Nat.le_total n (min xs.length ys.length) with hle | hge
  · have hlen : n ≤ (xs.take (min xs.length ys.length)).length := by
      rw [List.length_take]
      omega
    rw [← List.drop_append_of_le_length hlen, List.take_append_drop, Nat.min_eq_left hle]
  · rw [List.drop_eq_nil_of_le (by simp only [List.length_take]; omega), List.nil_append,
      Nat.min_eq_right hge]

theorem map_snd_zip_append_drop {α β : Type} (xs : List α) (ys : List β) (n : Nat) :
    ((xs.zip ys).drop n).map Prod.snd ++ ys.drop (min xs.length ys.length) =
      ys.drop (min n (min xs.length ys.length)) := by
  have h := map_fst_zip_append_drop ys xs n
  have hswap : (xs.zip ys).map Prod.snd = (ys.zip xs).map Prod.fst := by
    rw [← List.zip_swap, List.map_map]
    rfl
  rw [List.map_drop, Nat.min_comm ys.length] at h
  rw [List.map_drop, hswap]
  exact h

theorem take_zip {α β : Type} (xs : List α) (ys : List β) (n : Nat) :
    (xs.zip ys).take n =
      (xs.take (min n (min xs.length ys.length))).zip
        (ys.take (min n (min xs.length ys.length))) := by
  rw [List.zip_eq_zip_take_min, List.zip, List.take_zipWith, List.take_take, List.take_take]

variable {κ τ : Type} [DecidableEq κ]

/-- Whether an item before a position has the key of the item there. -/
def keyBefore (items : List (κ × τ)) (i : Nat) : Bool :=
  items[i]?.any fun x => x.1 ∈ (items.take i).map Prod.fst

theorem keyBefore_iff (items : List (κ × τ)) (i : Nat) :
    keyBefore items i = true ↔ RepeatsAt (items.map Prod.fst) i := by
  rw [keyBefore, RepeatsAt, List.getElem?_map, List.map_take]
  cases items[i]? <;> simp

theorem firsts_eq_atPositions (items : List (κ × τ)) :
    firsts items = atPositions (fun i => !keyBefore items i) items ∧
      repeated items = atPositions (keyBefore items) items := by
  have haccept : ∀ i < items.length, keyBefore items i = true ↔
      RepeatsAt ((([] : List (κ × τ)) ++ items).map Prod.fst)
        (([] : List (κ × τ)).length + i) := by
    intro i _
    rw [List.nil_append, List.length_nil, Nat.zero_add]
    exact keyBefore_iff items i
  obtain ⟨hfirsts, hrepeated⟩ := positions_of_repeats [] items [] (by simp) _ haccept
  exact ⟨hfirsts.symm, hrepeated.symm⟩

/-- There is one first occurrence for every key. -/
theorem firsts_length_eq_card (items : List (κ × τ)) :
    (firsts items).length = (items.map Prod.fst).toFinset.card := by
  have hkeys : (items.map Prod.fst).toFinset = ((firsts items).map Prod.fst).toFinset := by
    ext key
    rw [List.mem_toFinset, List.mem_toFinset, ← ofKey_ne_nil, ← ofKey_ne_nil, ofKey_firsts]
    simp
  rw [hkeys, List.toFinset_card_of_nodup (firstsFrom_keys_nodup [] items), List.length_map]

/-- Each item joins the list that its key calls for. -/
theorem foldl_add (s : Occurrences κ τ) (seen : List κ) (items : List (κ × τ))
    (hseen : ∀ key, key ∈ seen ↔ key ∈ s.firsts.toList.map Prod.fst) :
    (items.foldl Occurrences.add s).firsts.toList = s.firsts.toList ++ firstsFrom seen items ∧
      (items.foldl Occurrences.add s).repeated.toList =
        s.repeated.toList ++ repeatsFrom seen items := by
  induction items generalizing s seen with
  | nil => simp [firstsFrom, repeatsFrom]
  | cons x xs ih =>
    have hany : s.firsts.any (fun y => decide (y.1 = x.1)) = true ↔ x.1 ∈ seen := by
      rw [hseen, ← Array.any_toList, List.any_eq_true, List.mem_map]
      simp only [decide_eq_true_eq]
    rw [List.foldl_cons, firstsFrom, repeatsFrom]
    by_cases hx : x.1 ∈ seen
    · have hadd : s.add x = { s with repeated := s.repeated.push x } := if_pos (hany.mpr hx)
      obtain ⟨hfirsts, hrepeated⟩ := ih (s.add x) seen (by rw [hadd]; exact hseen)
      rw [if_pos hx, if_pos hx, hfirsts, hrepeated, hadd]
      simp
    · have hadd : s.add x = { s with firsts := s.firsts.push x } := if_neg (mt hany.mp hx)
      have hseen' : ∀ key, key ∈ x.1 :: seen ↔ key ∈ (s.add x).firsts.toList.map Prod.fst := by
        intro key
        rw [hadd, List.mem_cons, hseen, or_comm]
        simp
      obtain ⟨hfirsts, hrepeated⟩ := ih (s.add x) (x.1 :: seen) hseen'
      rw [if_neg hx, if_neg hx, hfirsts, hrepeated, hadd]
      simp

theorem referenceReach_of_lt {width : Nat} (h : 2 * width < UInt64.size) :
    referenceReach width = 2 * width := Nat.mod_eq_of_lt h

theorem arrangeReference_eq (width window : Nat) (items : List (κ × τ)) :
    arrangeReference width window items =
      (min (firsts (items.take window)).length width,
        firsts (items.take window) ++ repeated (items.take window) ++ items.drop window) := by
  obtain ⟨hfirsts, hrepeated⟩ := foldl_add {} [] (items.take window) (by simp)
  rw [List.nil_append] at hfirsts hrepeated
  simp only [arrangeReference, ← Array.length_toList, hfirsts, hrepeated]

theorem ofItems_arranged (width window : Nat) (keys : List κ) (tokens : List τ) :
    let reach := min window (min keys.length tokens.length)
    let items := (keys.take reach).zip (tokens.take reach)
    Scheduled.ofItems keys tokens
      (min (firsts ((keys.zip tokens).take window)).length width,
        firsts ((keys.zip tokens).take window) ++ repeated ((keys.zip tokens).take window) ++
          (keys.zip tokens).drop window) =
      { size := min width (items.map Prod.fst).toFinset.card
        keys := (firsts items ++ repeated items).map Prod.fst ++ keys.drop reach
        tokens := (firsts items ++ repeated items).map Prod.snd ++ tokens.drop reach } := by
  intro reach items
  have hitems : (keys.zip tokens).take window = items := take_zip keys tokens window
  have hkeys := map_fst_zip_append_drop keys tokens window
  have htokens := map_snd_zip_append_drop keys tokens window
  rw [Scheduled.ofItems, hitems, firsts_length_eq_card, Nat.min_comm width]
  generalize firsts items ++ repeated items = arranged
  simp only [List.map_append, List.append_assoc]
  rw [hkeys, htokens]

/-- For every width whose window fits into a mask, both schedulers agree on any keys, tokens and
extent: first the items with no equal key before them in the window, then the other items of the
window, each in order, and behind the window nothing moves. The batch is one item of each key, up to
the width. -/
theorem schedulers_arrange_alike {width : Nat} (hmax : width ≤ 16) (keys : List κ)
    (tokens : List τ) (extent : Nat) :
    let window := min (min extent (2 * width)) (min keys.length tokens.length)
    let items := (keys.take window).zip (tokens.take window)
    let arranged := atPositions (fun i => !keyBefore items i) items ++
      atPositions (keyBefore items) items
    schedule width keys tokens extent = scheduleReference width keys tokens extent ∧
    schedule width keys tokens extent =
      { size := min width (keys.take window).toFinset.card
        keys := arranged.map Prod.fst ++ keys.drop window
        tokens := arranged.map Prod.snd ++ tokens.drop window } := by
  intro window items arranged
  have hfit := window_le_maxLanes hmax
  have hreach : referenceReach width = 2 * width :=
    referenceReach_of_lt (Nat.lt_of_le_of_lt hfit (by decide))
  have hwindow : min extent (2 * width) ≤ maxLanes := (Nat.min_le_right ..).trans hfit
  have hkeys : (items.map Prod.fst) = keys.take window := List.map_fst_zip (by
    rw [List.length_take, List.length_take]
    omega)
  obtain ⟨hfirsts, hrepeated⟩ := firsts_eq_atPositions items
  constructor
  · rw [schedule, scheduleReference, hreach, arrange_eq width hwindow, arrangeReference_eq]
  · rw [schedule, arrange_eq width hwindow, ofItems_arranged]
    simp only [arranged, ← hfirsts, ← hrepeated, ← hkeys]
    rfl

/-- Five keys and four tokens, and an extent beyond both. -/
theorem schedulers_arrange_unequal_lists_alike :
    let keys : List Nat := [7, 7, 5, 7, 6]
    let tokens : List Nat := [0, 1, 2, 3]
    2 ≤ 16 ∧ schedule 2 keys tokens 9 = scheduleReference 2 keys tokens 9 ∧
      schedule 2 keys tokens 9 = ⟨2, [7, 5, 7, 7, 6], [0, 2, 1, 3]⟩ := by
  intro keys tokens
  obtain ⟨halike, harranged⟩ := schedulers_arrange_alike (show 2 ≤ 16 by decide) keys tokens 9
  exact ⟨by decide, halike, harranged.trans rfl⟩

end ConflictBatching
