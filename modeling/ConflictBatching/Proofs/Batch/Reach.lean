import ConflictBatching.Proofs.Batch.Packed

/-! # How far a wide scheduler reaches

Twice the width is formed in one machine word. Up to half the words the scheduler by lists reaches as far
as it should; from there on the product wraps and it looks at fewer items. It still moves on with every
call, unless the width is exactly half the words: then the reach is nothing and calls stand still.
-/
namespace ConflictBatching

theorem referenceReach_of_le {width : Nat} (hhalf : UInt64.size / 2 ≤ width) (hword : width < UInt64.size) :
    referenceReach width = 2 * width - UInt64.size := by
  unfold referenceReach UInt64.size at *
  omega

/-- Half the words is the only width whose double wraps to nothing. -/
theorem referenceReach_pos_iff {width : Nat} (hpos : 1 ≤ width) (hword : width < UInt64.size) :
    0 < referenceReach width ↔ width ≠ UInt64.size / 2 := by
  unfold referenceReach UInt64.size at *
  omega

/-- The wrapped reach falls short of twice the width only where more items than it are asked for. -/
theorem min_referenceReach_eq_iff {width : Nat} (hword : width < UInt64.size) (extent n : Nat) :
    min (min extent (referenceReach width)) n = min (min extent (2 * width)) n ↔
      width < UInt64.size / 2 ∨ min extent n ≤ 2 * width - UInt64.size := by
  rcases Nat.lt_or_ge width (UInt64.size / 2) with hlt | hge
  · have hfit : 2 * width < UInt64.size := by omega
    rw [referenceReach_of_lt hfit]
    exact iff_of_true rfl (Or.inl hlt)
  · -- Twice the width is past any word, so only the remainder can cut off what is asked for.
    rw [referenceReach_of_le hge hword]
    unfold UInt64.size at *
    omega

variable {κ τ : Type} [DecidableEq κ]

theorem packFront_zero (width : Nat) (keys : List κ) (tokens : List τ) :
    packFront width 0 keys tokens = ⟨0, keys, tokens⟩ := by
  simp [packFront, firstsFrom, repeatsFrom]

theorem packFront_size_pos {width window : Nat} {keys : List κ} {tokens : List τ} (hpos : 1 ≤ width)
    (hwindow : 0 < window) (h : window ≤ min keys.length tokens.length) :
    0 < (packFront width window keys tokens).size := by
  have hkeys : keys.take window ≠ [] := by
    rw [← List.length_pos_iff, List.length_take]
    omega
  have hcard : 0 < (keys.take window).toFinset.card := by
    rw [Finset.card_pos]
    exact (List.toFinset_nonempty_iff _).mpr hkeys
  rw [packFront, front_keys h]
  exact Nat.lt_min.mpr ⟨hpos, hcard⟩

/-- A call keeps the line of every key. -/
theorem ofKey_zip_packFront (width window : Nat) (keys : List κ) (tokens : List τ) (key : κ) :
    ofKey key ((packFront width window keys tokens).keys.zip
        (packFront width window keys tokens).tokens) =
      ofKey key (keys.zip tokens) := by
  rw [packFront, zip_map_fst_snd_append, ofKey_append, ofKey_firsts_append_repeated, ← ofKey_append,
    zip_take_append_zip_drop]

/-! ## Calls one after the other -/

/-- The items that calls took, and the keys and tokens that they left. -/
structure Advance (κ τ : Type) where
  taken : List (κ × τ) := []
  keys : List κ
  tokens : List τ

namespace Advance

/-- One call of the given extent, and the step over its batch. -/
def call (width : Nat) (a : Advance κ τ) (extent : Nat) : Advance κ τ :=
  let s := scheduleReference width a.keys a.tokens extent
  ⟨a.taken ++ (s.keys.take s.size).zip (s.tokens.take s.size), s.keys.drop s.size,
    s.tokens.drop s.size⟩

/-- Calls of the given extents. -/
def calls (width : Nat) (a : Advance κ τ) (extents : List Nat) : Advance κ τ :=
  extents.foldl (call width) a

/-- The items that were taken, and those that are left. -/
def items (a : Advance κ τ) : List (κ × τ) := a.taken ++ a.keys.zip a.tokens

theorem ofKey_items_call (width : Nat) (a : Advance κ τ) (extent : Nat) (key : κ) :
    ofKey key (a.call width extent).items = ofKey key a.items := by
  have hline := ofKey_zip_packFront width
    (min (min extent (referenceReach width)) (min a.keys.length a.tokens.length)) a.keys a.tokens key
  rw [← scheduleReference_eq_packFront] at hline
  rw [items, call, List.append_assoc, zip_take_append_zip_drop, ofKey_append, hline, ← ofKey_append,
    items]

/-- A call takes at least one item as long as both lists have one. -/
theorem length_call {width : Nat} (hpos : 1 ≤ width) (hreach : 0 < referenceReach width)
    (a : Advance κ τ) {extent : Nat} (hextent : 1 ≤ extent) :
    min (a.call width extent).keys.length (a.call width extent).tokens.length ≤
      min a.keys.length a.tokens.length - 1 := by
  have hwindow : min (min extent (referenceReach width)) (min a.keys.length a.tokens.length) ≤
      min a.keys.length a.tokens.length := Nat.min_le_right ..
  obtain ⟨hkeys, htokens⟩ := packFront_lengths width hwindow
  have hsize := fun hpositive => packFront_size_pos hpos hpositive hwindow
  rw [← scheduleReference_eq_packFront] at hkeys htokens hsize
  simp only [call, List.length_drop, hkeys, htokens]
  omega

theorem ofKey_items_calls (width : Nat) (a : Advance κ τ) (extents : List Nat) (key : κ) :
    ofKey key (a.calls width extents).items = ofKey key a.items := by
  induction extents generalizing a with
  | nil => rfl
  | cons extent extents ih => exact (ih (a.call width extent)).trans (ofKey_items_call ..)

theorem length_calls {width : Nat} (hpos : 1 ≤ width) (hreach : 0 < referenceReach width)
    (a : Advance κ τ) {extents : List Nat} (hextents : ∀ extent ∈ extents, 1 ≤ extent) :
    min (a.calls width extents).keys.length (a.calls width extents).tokens.length ≤
      min a.keys.length a.tokens.length - extents.length := by
  induction extents generalizing a with
  | nil => exact Nat.le_refl _
  | cons extent extents ih =>
    obtain ⟨hextent, hrest⟩ := List.forall_mem_cons.mp hextents
    have hcall := length_call hpos hreach a hextent
    have hcalls := ih (a.call width extent) hrest
    rw [List.length_cons]
    change min ((a.call width extent).calls width extents).keys.length
      ((a.call width extent).calls width extents).tokens.length ≤ _
    omega

/-- As many calls as there are items take all of them, each key in its own order. -/
theorem drained_of_length_le {width : Nat} (hpos : 1 ≤ width) (hreach : 0 < referenceReach width)
    (keys : List κ) (tokens : List τ) {extents : List Nat}
    (hextents : ∀ extent ∈ extents, 1 ≤ extent)
    (hlen : min keys.length tokens.length ≤ extents.length) :
    let a := calls width { keys, tokens } extents
    (a.keys = [] ∨ a.tokens = []) ∧ ∀ key, ofKey key a.taken = ofKey key (keys.zip tokens) := by
  intro a
  have hshort : min a.keys.length a.tokens.length ≤
      min keys.length tokens.length - extents.length :=
    length_calls hpos hreach { keys, tokens } hextents
  have hempty : a.keys = [] ∨ a.tokens = [] := by
    rw [← List.length_eq_zero_iff, ← List.length_eq_zero_iff]
    omega
  have hleft : a.keys.zip a.tokens = [] := by
    rcases hempty with h | h
    · rw [h, List.zip_nil_left]
    · rw [h, List.zip_nil_right]
  refine ⟨hempty, fun key => ?_⟩
  have hline : ofKey key a.items = ofKey key (items { keys, tokens }) :=
    ofKey_items_calls width _ extents key
  rw [items, hleft, List.append_nil] at hline
  exact hline

end Advance

/-- Any word may be the width. A call looks at the items it is asked for, up to the double of the width as
one word holds it, and these are as many as twice the width allows unless that is no word and more items
than its remainder are asked for. They are left with the first occurrences in front, and the batch is one
item of each key, up to the width. Calls take something as long as there are items, so they drain keys
and tokens; only at half the words no call does anything. -/
theorem wide_calls_reach_wrapped_double {width : Nat} (hpos : 1 ≤ width) (hword : width < UInt64.size)
    (keys : List κ) (tokens : List τ) (extent : Nat) :
    let n := min keys.length tokens.length
    let window := min (min extent (referenceReach width)) n
    let items := (keys.take window).zip (tokens.take window)
    let arranged := atPositions (fun i => !keyBefore items i) items ++
      atPositions (keyBefore items) items
    let s := scheduleReference width keys tokens extent
    (window = min (min extent (2 * width)) n ↔
      width < UInt64.size / 2 ∨ min extent n ≤ 2 * width - UInt64.size) ∧
    s =
      { size := min width (keys.take window).toFinset.card
        keys := arranged.map Prod.fst ++ keys.drop window
        tokens := arranged.map Prod.snd ++ tokens.drop window } ∧
    (keys ≠ [] → tokens ≠ [] → 1 ≤ extent → (1 ≤ s.size ↔ width ≠ UInt64.size / 2)) ∧
    (width = UInt64.size / 2 → s = ⟨0, keys, tokens⟩) ∧
    (width ≠ UInt64.size / 2 → ∀ extents : List Nat, (∀ e ∈ extents, 1 ≤ e) → n ≤ extents.length →
      let a := Advance.calls width { keys, tokens } extents
      (a.keys = [] ∨ a.tokens = []) ∧ ∀ key, ofKey key a.taken = ofKey key (keys.zip tokens)) := by
  intro n window items arranged s
  have hwindow : window ≤ min keys.length tokens.length := Nat.min_le_right ..
  have hs : s = packFront width window keys tokens := scheduleReference_eq_packFront ..
  have hreach := referenceReach_pos_iff hpos hword
  have hstill : width = UInt64.size / 2 → s = ⟨0, keys, tokens⟩ := by
    intro hhalf
    have hzero : window = 0 := by
      have hnone : ¬0 < referenceReach width := fun h => hreach.mp h hhalf
      omega
    rw [hs, hzero, packFront_zero]
  refine ⟨min_referenceReach_eq_iff hword extent n, ?_, ?_, hstill, ?_⟩
  · obtain ⟨hfirsts, hrepeated⟩ := firsts_eq_atPositions items
    rw [hs, packFront, front_keys hwindow]
    simp only [arranged, ← hfirsts, ← hrepeated]
    rfl
  · intro hkeys htokens hextent
    have hsome : 0 < keys.length ∧ 0 < tokens.length :=
      ⟨List.length_pos_iff.mpr hkeys, List.length_pos_iff.mpr htokens⟩
    constructor
    · intro hsize hhalf
      rw [hstill hhalf] at hsize
      exact Nat.not_succ_le_zero 0 hsize
    · intro hhalf
      have hreached := hreach.mpr hhalf
      rw [hs]
      exact packFront_size_pos hpos (by omega) hwindow
  · intro hhalf extents hextents hlen
    exact Advance.drained_of_length_le hpos (hreach.mpr hhalf) keys tokens hextents hlen

/-- One above half the words the double leaves two: the third item is not looked at, although three are
asked for. Three calls still drain the items. -/
theorem wide_calls_reach_two_of_three :
    let width := UInt64.size / 2 + 1
    let keys : List Nat := [4, 4, 6]
    let a := Advance.calls width { keys, tokens := [0, 1, 2] } [3, 2, 1]
    1 ≤ width ∧ width < UInt64.size ∧ width ≠ UInt64.size / 2 ∧ (∀ e ∈ [3, 2, 1], 1 ≤ e) ∧
      scheduleReference width keys [0, 1, 2] 3 = ⟨1, keys, [0, 1, 2]⟩ ∧
      (a.keys = [] ∨ a.tokens = []) ∧
      ∀ key, ofKey key a.taken = ofKey key [(4, 0), (4, 1), (6, 2)] := by
  intro width keys a
  obtain ⟨-, hcall, -, -, hdrained⟩ := wide_calls_reach_wrapped_double
    (show 1 ≤ width by decide) (by decide) keys [0, 1, 2] 3
  have hextents : ∀ e ∈ [3, 2, 1], 1 ≤ e := by decide
  have hreach : referenceReach width = 2 := by decide
  simp only [hreach] at hcall
  exact ⟨by decide, by decide, by decide, hextents, hcall.trans rfl,
    hdrained (by decide) [3, 2, 1] hextents (by decide)⟩

/-- At half the words a call takes neither of two items of different keys, where a batch of both is due:
two items are asked for and twice the width is more than that. -/
theorem wide_call_takes_none_at_half_words :
    let width := UInt64.size / 2
    let keys : List Nat := [1, 2]
    scheduleReference width keys [1, 2] 2 = ⟨0, keys, [1, 2]⟩ ∧
      min (min 2 (2 * width)) keys.length = 2 ∧ min width (keys.take 2).toFinset.card = 2 := by
  intro width keys
  have hreach : referenceReach width = 0 := by decide
  refine ⟨?_, by decide, by decide⟩
  rw [scheduleReference_eq_packFront, hreach, Nat.min_zero, Nat.zero_min, packFront_zero]

end ConflictBatching
