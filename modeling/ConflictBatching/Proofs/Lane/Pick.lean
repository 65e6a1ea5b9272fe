import ConflictBatching.Lane.Partition
import ConflictBatching.Proofs.Lane.Lanes

/-! # Items at the lanes of a mask

Picking the lanes of a mask from a short list is filtering the list by position, so the kept and
the other items of a partition are two complementary filters of the same list.
-/
namespace ConflictBatching
variable {α : Type}

/-- The items whose position is accepted, in order. -/
def atPositions (accept : Nat → Bool) (items : List α) : List α :=
  (items.zipIdx.filter fun x => accept x.2).map Prod.fst

theorem atPositions_cons (accept : Nat → Bool) (x : α) (xs : List α) :
    atPositions accept (x :: xs) =
      (if accept 0 then [x] else []) ++ atPositions (fun i => accept (i + 1)) xs := by
  simp only [atPositions, List.zipIdx_cons, Nat.zero_add, List.zipIdx_succ, List.filter_cons,
    List.filter_map, Function.comp_def]
  split <;> simp [Function.comp_def]

theorem atPositions_congr {accept accept' : Nat → Bool} {items : List α}
    (h : ∀ i < items.length, accept i = accept' i) :
    atPositions accept items = atPositions accept' items := by
  unfold atPositions
  congr 1
  apply List.filter_congr
  rintro ⟨x, i⟩ hx
  exact h i (by simpa using List.snd_lt_of_mem_zipIdx hx)

theorem filterMap_range_eq_atPositions (accept : Nat → Bool) (items : List α) {n : Nat}
    (hn : items.length ≤ n) :
    ((List.range n).filter accept).filterMap (items[·]?) = atPositions accept items := by
  induction items generalizing accept n with
  | nil => simp [atPositions]
  | cons x xs ih =>
    cases n with
    | zero => simp at hn
    | succ n =>
      have hxs : xs.length ≤ n := Nat.le_of_succ_le_succ hn
      rw [atPositions_cons, ← ih (fun i => accept (i + 1)) hxs, List.range_succ_eq_map,
        List.filter_cons, List.filter_map]
      split <;> simp [List.filterMap_map, Function.comp_def]

/-- Lanes of items all yield an item. -/
theorem map_some_filterMap_getElem? {items : List α} {lanes : List Nat}
    (h : ∀ lane ∈ lanes, lane < items.length) :
    (lanes.filterMap (items[·]?)).map some = lanes.map (items[·]?) := by
  induction lanes with
  | nil => rfl
  | cons lane lanes ih =>
    obtain ⟨hlane, hlanes⟩ := List.forall_mem_cons.mp h
    have hitem : items[lane]? = some items[lane] := List.getElem?_eq_getElem hlane
    rw [List.filterMap_cons_some hitem, List.map_cons, List.map_cons, ih hlanes, hitem]

theorem length_filterMap_getElem? {items : List α} {lanes : List Nat}
    (h : ∀ lane ∈ lanes, lane < items.length) :
    (lanes.filterMap (items[·]?)).length = lanes.length := by
  simpa using congrArg List.length (map_some_filterMap_getElem? h)

/-! ## The order of a partition -/

/-- The lanes below `n`, those of the mask first. -/
def visitOrder (keep : LaneMask) (n : Nat) : List Nat :=
  (List.range n).filter keep.contains ++ (List.range n).filter (!keep.contains ·)

theorem visitOrder_perm (keep : LaneMask) (n : Nat) : (visitOrder keep n).Perm (List.range n) :=
  List.filter_append_perm ..

theorem length_visitOrder (keep : LaneMask) (n : Nat) : (visitOrder keep n).length = n := by
  rw [(visitOrder_perm keep n).length_eq, List.length_range]

theorem lt_of_mem_visitOrder {keep : LaneMask} {n lane : Nat} (h : lane ∈ visitOrder keep n) :
    lane < n :=
  List.mem_range.mp ((visitOrder_perm keep n).subset h)

/-- A partition visits every lane of its items once. -/
theorem partitionItems_eq_visited (keep : LaneMask) {items : List α}
    (hlen : items.length ≤ maxLanes) :
    partitionItems keep items =
      (((List.range items.length).filter keep.contains).length,
        (visitOrder keep items.length).filterMap (items[·]?)) := by
  simp only [partitionItems, pick, keep.count_and_firstN hlen, keep.lanes_and_firstN hlen,
    keep.lanes_rest hlen, visitOrder, List.filterMap_append]

/-- A partition puts the items at kept positions before the items at the other positions. -/
theorem partitionItems_eq {items : List α} (keep : LaneMask) (hlen : items.length ≤ maxLanes) :
    partitionItems keep items =
      ((atPositions keep.contains items).length,
        atPositions keep.contains items ++ atPositions (fun i => !keep.contains i) items) := by
  have hkept := filterMap_range_eq_atPositions keep.contains items (Nat.le_refl _)
  have hothers := filterMap_range_eq_atPositions (!keep.contains ·) items (Nat.le_refl _)
  have hlanes : ∀ lane ∈ (List.range items.length).filter keep.contains, lane < items.length :=
    fun lane h => List.mem_range.mp (List.mem_of_mem_filter h)
  rw [partitionItems_eq_visited keep hlen, visitOrder, List.filterMap_append, hkept, hothers, ← hkept,
    length_filterMap_getElem? hlanes]

end ConflictBatching
