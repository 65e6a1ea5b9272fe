import Mathlib.Data.Nat.SuccPred
import Mathlib.Order.SuccPred.Archimedean
import ConflictBatching.Proofs.Store.Writes

/-! # The highest lane of a record stays

Lanes write from the lowest up, so a record is left with the value of the highest lane that addresses
it. What is gathered again through the same indices is therefore told lane by lane, and writing back
what was just gathered changes nothing, whichever lanes share a record.
-/
namespace ConflictBatching
variable {ρ : Type} {n : Nat}

namespace MaskedIndices

/-- The lanes that address a record. -/
def lanesOf (m : MaskedIndices n) (r : Nat) : Set Nat := {lane | m.get? lane = some r}

/-- There is a highest lane of a record unless no lane addresses it. -/
theorem lanesOf_eq_empty_or_exists_isGreatest (m : MaskedIndices n) (r : Nat) :
    m.lanesOf r = ∅ ∨ ∃ top : Fin n, IsGreatest (m.lanesOf r) top := by
  rcases Set.eq_empty_or_nonempty (m.lanesOf r) with hempty | hnonempty
  · exact .inl hempty
  · have hbounded : BddAbove (m.lanesOf r) := ⟨n, fun _ h => (lt_of_get? h).1.le⟩
    obtain ⟨top, htop⟩ := hbounded.exists_isGreatest_of_nonempty hnonempty
    exact .inr ⟨⟨top, (lt_of_get? htop.1).1⟩, htop⟩

end MaskedIndices

theorem exists_lane_of_mem_writes {m : MaskedIndices n} {values : Vector ρ n} {lanes : List Nat}
    {r : Nat} (h : r ∈ (lanes.filterMap (laneWrite? m values)).map Prod.fst) :
    ∃ lane ∈ lanes, m.get? lane = some r := by
  obtain ⟨⟨index, x⟩, hwrite, rfl⟩ := List.mem_map.mp h
  obtain ⟨lane, hlane, hwrite⟩ := List.mem_filterMap.mp hwrite
  exact ⟨lane, hlane, (laneWrite?_eq_some_iff.mp hwrite).1⟩

theorem size_scatter (store : Array ρ) (m : MaskedIndices n) (values : Vector ρ n) :
    (scatter store m values).size = store.size := by
  rw [scatter_eq_writeAll, size_writeAll]

theorem getElem?_scatter_of_isGreatest {store : Array ρ} {m : MaskedIndices n} (values : Vector ρ n)
    {r : Nat} {top : Fin n} (hr : r < store.size) (htop : IsGreatest (m.lanesOf r) top) :
    (scatter store m values)[r]? = some (values.get top) := by
  obtain ⟨before, after, hsplit⟩ :=
    List.append_of_mem (List.mem_range.mpr (MaskedIndices.lt_of_get? htop.1).2)
  have hlater : ∀ lane ∈ after, top < lane := by
    have hsorted : (before ++ top.val :: after).Pairwise (· < ·) := hsplit ▸ List.pairwise_lt_range
    exact (List.pairwise_cons.mp (List.pairwise_append.mp hsorted).2.1).1
  have hwrite : laneWrite? m values top = some (r, values[top]) :=
    laneWrite?_eq_some_iff.mpr ⟨htop.1, by simp⟩
  rw [scatter_eq_writeAll, hsplit, List.filterMap_append, List.filterMap_cons_some hwrite]
  apply getElem?_writeAll_last _ _ hr
  intro hmem
  obtain ⟨lane, hlane, haddress⟩ := exists_lane_of_mem_writes hmem
  exact Nat.not_lt.mpr (htop.2 haddress) (hlater lane hlane)

theorem getElem?_scatter_of_lanesOf_empty (store : Array ρ) {m : MaskedIndices n}
    (values : Vector ρ n) {r : Nat} (h : m.lanesOf r = ∅) :
    (scatter store m values)[r]? = store[r]? := by
  rw [scatter_eq_writeAll]
  apply getElem?_writeAll_of_notMem
  intro hmem
  obtain ⟨lane, -, haddress⟩ := exists_lane_of_mem_writes hmem
  exact Set.eq_empty_iff_forall_notMem.mp h lane haddress

section Gather
variable [Inhabited ρ]

theorem get_gather (store : Array ρ) (m : MaskedIndices n) (lane : Fin n) :
    (gather store m).get lane = ((m.get? lane).bind (store[·]?)).getD default := by
  have hget : (gather store m).get lane = (gather store m)[lane.val] := rfl
  rw [hget, gather, Vector.getElem_ofFn]

theorem get_gather_of_get? {store : Array ρ} {m : MaskedIndices n} {lane : Fin n} {r : Nat} {x : ρ}
    (hlane : m.get? lane = some r) (hr : store[r]? = some x) : (gather store m).get lane = x := by
  rw [get_gather, hlane, Option.bind_some, hr, Option.getD_some]

theorem get_gather_of_inert {store : Array ρ} {m : MaskedIndices n} {lane : Fin n}
    (h : ∀ r, m.get? lane = some r → store.size ≤ r) : (gather store m).get lane = default := by
  have hnone : (m.get? lane).bind (store[·]?) = none := by
    rw [Option.bind_eq_none_iff]
    intro r hr
    exact Array.getElem?_eq_none (h r hr)
  rw [get_gather, hnone, Option.getD_none]

theorem scatter_gather (store : Array ρ) (m : MaskedIndices n) :
    scatter store m (gather store m) = store := by
  apply Array.ext_getElem?
  intro r
  by_cases hr : r < store.size
  · rcases m.lanesOf_eq_empty_or_exists_isGreatest r with hempty | ⟨top, htop⟩
    · exact getElem?_scatter_of_lanesOf_empty store _ hempty
    · have hrecord := Array.getElem?_eq_getElem hr
      rw [getElem?_scatter_of_isGreatest _ hr htop, get_gather_of_get? htop.1 hrecord, hrecord]
  · have hout := Nat.le_of_not_lt hr
    rw [Array.getElem?_eq_none hout, Array.getElem?_eq_none (by rwa [size_scatter])]

theorem gather_fixup (store : Array ρ) (m : MaskedIndices n) :
    gather store (m.fixup store.size) = gather store m := by
  have hlane (lane : Nat) : ((m.fixup store.size).get? lane).bind (store[·]?) =
      (m.get? lane).bind (store[·]?) := by
    rw [MaskedIndices.get?_fixup]
    cases m.get? lane with
    | none => rfl
    | some r =>
      by_cases hr : r < store.size <;> simp [Option.filter, hr]
  simp only [gather, hlane]

end Gather

theorem scatter_fixup (store : Array ρ) (m : MaskedIndices n) (values : Vector ρ n) :
    scatter store (m.fixup store.size) values = scatter store m values := by
  have hlane : laneWrite? (m.fixup store.size) values =
      fun lane => (laneWrite? m values lane).filter (·.1 < store.size) :=
    funext fun lane => laneWrite?_eq_filter values (m.get?_fixup store.size lane)
  rw [scatter_eq_writeAll, hlane, ← List.filter_filterMap, writeAll_filter, ← scatter_eq_writeAll]

/-- A scatter leaves each record with the value of the highest lane that addresses it, or as it was if
none does. Gathered again through the same indices, each lane that addresses a record has what the
highest lane of that record wrote, which is its own value if no two lanes share a record of the store,
and all others have the default. Writing back what was gathered leaves the store as it was, and to
check the indices against the store first makes no difference. -/
theorem scatter_leaves_highest_lanes [Inhabited ρ] (store : Array ρ) (m : MaskedIndices n)
    (values : Vector ρ n) :
    let left := scatter store m values
    left.size = store.size ∧
    (∀ r < store.size, (m.lanesOf r = ∅ ∧ left[r]? = store[r]?) ∨
      ∃ top : Fin n, IsGreatest (m.lanesOf r) top ∧ left[r]? = some (values.get top)) ∧
    (∀ lane : Fin n,
      (∃ r < store.size, m.get? lane = some r ∧
        ∃ top : Fin n, IsGreatest (m.lanesOf r) top ∧ (gather left m).get lane = values.get top) ∨
      ((∀ r, m.get? lane = some r → store.size ≤ r) ∧ (gather left m).get lane = default)) ∧
    ((∀ r < store.size, (m.lanesOf r).Subsingleton) →
      ∀ lane : Fin n, ∀ r < store.size, m.get? lane = some r → (gather left m).get lane = values.get lane) ∧
    scatter store m (gather store m) = store ∧
    gather store (m.fixup store.size) = gather store m ∧
    scatter store (m.fixup store.size) values = left := by
  intro left
  -- What a lane reads back from a record that it addresses.
  have hback (lane top : Fin n) {r : Nat} (hr : r < store.size) (hlane : m.get? lane = some r)
      (htop : IsGreatest (m.lanesOf r) top) : (gather left m).get lane = values.get top :=
    get_gather_of_get? hlane (getElem?_scatter_of_isGreatest values hr htop)
  refine ⟨size_scatter store m values, ?_, ?_, ?_, scatter_gather store m, gather_fixup store m,
    scatter_fixup store m values⟩
  · intro r hr
    rcases m.lanesOf_eq_empty_or_exists_isGreatest r with hempty | ⟨top, htop⟩
    · exact .inl ⟨hempty, getElem?_scatter_of_lanesOf_empty store values hempty⟩
    · exact .inr ⟨top, htop, getElem?_scatter_of_isGreatest values hr htop⟩
  · intro lane
    by_cases h : ∃ r < store.size, m.get? lane = some r
    · obtain ⟨r, hr, hlane⟩ := h
      rcases m.lanesOf_eq_empty_or_exists_isGreatest r with hempty | ⟨top, htop⟩
      · exact absurd hlane (Set.eq_empty_iff_forall_notMem.mp hempty lane)
      · exact .inl ⟨r, hr, hlane, top, htop, hback lane top hr hlane htop⟩
    · have hinert : ∀ r, m.get? lane = some r → store.size ≤ r := by
        intro r hlane
        exact Nat.le_of_not_lt fun hr => h ⟨r, hr, hlane⟩
      refine .inr ⟨hinert, get_gather_of_inert ?_⟩
      rwa [size_scatter]
  · intro hdistinct lane r hr hlane
    apply hback lane lane hr hlane
    exact ⟨hlane, fun other hother => (hdistinct r hr hother hlane).le⟩

/-- Lanes 0 and 2 share a record, lane 1 is inert and lane 3 addresses no record. -/
theorem scatter_leaves_highest_of_four_lanes :
    let store := #[10, 11, 12]
    let m : MaskedIndices 4 := .ofOptions #v[some 2, none, some 2, some 7]
    let values := #v[1, 2, 3, 4]
    let left := scatter store m values
    left = #[10, 11, 3] ∧ gather left m = #v[3, 0, 3, 0] ∧
      (∃ top : Fin 4, IsGreatest (m.lanesOf 2) top ∧ left[2]? = some (values.get top)) ∧
      scatter store m (gather store m) = store ∧
      gather store (m.fixup 3) = gather store m ∧ scatter store (m.fixup 3) values = left := by
  intro store m values left
  obtain ⟨-, hrecords, -, -, hgathered, hgather, hscatter⟩ :=
    scatter_leaves_highest_lanes store m values
  have htaken : m.lanesOf 2 ≠ ∅ :=
    Set.nonempty_iff_ne_empty.mp ⟨0, show m.get? 0 = some 2 by decide⟩
  have htop := (hrecords 2 (by decide)).resolve_left fun h => htaken h.1
  exact ⟨by decide, by decide, htop, hgathered, hgather, hscatter⟩

end ConflictBatching
