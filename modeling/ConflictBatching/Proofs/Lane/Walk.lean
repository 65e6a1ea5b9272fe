import ConflictBatching.Proofs.Lane.Lanes

/-! # Walks over the lanes of a mask

A step of a walk counts the trailing zeros of its word and clears the bit that it has found. So the lanes
still to come after some steps are those of the mask less as many from the front, and their number is the
population count of the word that is left.
-/
namespace ConflictBatching
namespace LaneMask

/-- Lanes put together in any order are one mask. -/
theorem ofLanes_of_perm {m : LaneMask} {order : List Nat} (h : order.Perm m.lanes) :
    ofLanes order = m := by
  apply ext_contains
  intro lane
  apply Bool.eq_iff_iff.mpr
  rw [contains_ofLanes, h.mem_iff, mem_lanes]
  exact ⟨And.right, fun hlane => ⟨lt_of_contains hlane, hlane⟩⟩

/-! ## The word of a mask -/

theorem cpopNatRec_eq_countP {w : Nat} (bits : BitVec w) (n : Nat) :
    bits.cpopNatRec n 0 = (List.range n).countP bits.getLsbD := by
  induction n with
  | zero => rfl
  | succ n ih =>
    rw [BitVec.cpopNatRec_succ, BitVec.cpopNatRec_add, ih, List.range_succ, List.countP_append,
      List.countP_singleton]
    cases bits.getLsbD n <;> rfl

theorem count_eq_cpop (m : LaneMask) : m.count = m.bits.cpop.toNat := by
  rw [BitVec.toNat_cpop, cpopNatRec_eq_countP]
  rfl

theorem first?_eq_ctz (m : LaneMask) :
    m.first? = if m.bits = 0 then none else some m.bits.ctz.toNat := by
  by_cases hzero : m.bits = 0
  · rw [if_pos hzero, first?, List.find?_eq_none]
    intro lane _
    simp [contains, hzero]
  · rw [if_neg hzero, first?, List.find?_range_eq_some]
    have hlowest : m.contains m.bits.ctz.toNat = true := BitVec.getLsbD_true_ctz_of_ne_zero hzero
    refine ⟨hlowest, List.mem_range.mpr (lt_of_contains hlowest), ?_⟩
    intro lane hlane
    have hbelow : m.contains lane = false := BitVec.getLsbD_false_of_lt_ctz hlane
    rw [hbelow, Bool.not_false]

/-! ## Steps -/

namespace Walk

theorem next?_eq (w : Walk) :
    w.next? = if w.left.bits = 0 then none else
      some (w.left.bits.ctz.toNat, ⟨⟨w.left.bits &&& (w.left.bits - 1)⟩⟩) := by
  rw [next?, first?_eq_ctz]
  split <;> rfl

theorem map_fst_next? (w : Walk) : w.next?.map Prod.fst = w.left.lanes.head? := by
  rw [next?, Option.map_map, ← first?_eq_head?_lanes]
  exact Option.map_id'

theorem left_take (k : Nat) (w : Walk) : (take k w).2.left.members = w.left.members.drop k := by
  induction k generalizing w with
  | zero => rfl
  | succ k ih =>
    cases h : w.left.members with
    | nil => simp only [take, next?_of_members_nil h, h, List.drop_nil]
    | cons lane rest =>
      obtain ⟨w', hw, hrest⟩ := next?_of_members h
      simp only [take, hw, List.drop_succ_cons, ih, hrest]

end Walk
end LaneMask

open LaneMask

/-- A step of a walk yields the number of trailing zeros of its word and clears that bit, and there is no
step from the zero word. The lanes of a mask ascend and are those it contains. After any number of steps
as many lanes from the front were visited, a walk from there visits the others, and the lane to come next
and the number of lanes to come are told by them. The lanes are as many as the mask counts, which is the
population count of its word, the first one is its first lane, and in any order they make up the mask. -/
theorem walk_visits_lanes_upwards (m : LaneMask) :
    (∀ w : Walk, w.next? = if w.left.bits = 0 then none else
      some (w.left.bits.ctz.toNat, ⟨⟨w.left.bits &&& (w.left.bits - 1)⟩⟩)) ∧
    m.lanes.Pairwise (· < ·) ∧
    (∀ lane, lane ∈ m.lanes ↔ m.contains lane = true) ∧
    (∀ k, let (taken, w) := m.walk.take k
      taken = m.lanes.take k ∧ w.left.lanes = m.lanes.drop k ∧
        w.next?.map Prod.fst = m.lanes[k]? ∧ w.remaining = (m.lanes.drop k).length) ∧
    m.count = m.lanes.length ∧ m.bits.cpop.toNat = m.lanes.length ∧
    m.first? = m.lanes.head? ∧
    ∀ order : List Nat, order.Perm m.lanes → ofLanes order = m := by
  have hcount := m.count_eq_length_lanes
  refine ⟨Walk.next?_eq, m.lanes_sorted, fun _ => mem_lanes, ?_, hcount,
    m.count_eq_cpop.symm.trans hcount, m.first?_eq_head?_lanes, fun _ => ofLanes_of_perm⟩
  intro k
  have htaken : (m.walk.take k).1 = m.lanes.take k := by
    rw [Walk.take_eq, lanes_eq_members]
    rfl
  have hleft : (m.walk.take k).2.left.lanes = m.lanes.drop k := by
    rw [lanes_eq_members, Walk.left_take, lanes_eq_members]
    rfl
  refine ⟨htaken, hleft, ?_, ?_⟩
  · rw [Walk.map_fst_next?, hleft, List.head?_drop]
  · rw [Walk.remaining, count_eq_length_lanes, hleft]

/-- The top lane is among three. The fifth step finds none any more. -/
theorem walk_visits_three_lanes_upwards :
    let m : LaneMask := ⟨0x8000000000000014⟩
    m.lanes = [2, 4, 63] ∧
      (m.walk.take 2).1 = [2, 4] ∧ (m.walk.take 2).2.left.lanes = [63] ∧
      (m.walk.take 2).2.next?.map Prod.fst = some 63 ∧ (m.walk.take 2).2.remaining = 1 ∧
      (m.walk.take 5).1 = [2, 4, 63] ∧ (m.walk.take 5).2.next?.map Prod.fst = none ∧
      [63, 2, 4].Perm m.lanes ∧ ofLanes [63, 2, 4] = m := by
  intro m
  have hlanes : m.lanes = [2, 4, 63] := by decide +kernel
  obtain ⟨-, -, -, hsteps, -, -, -, hmade⟩ := walk_visits_lanes_upwards m
  rw [hlanes] at hsteps hmade
  obtain ⟨htaken, hleft, hnext, hremaining⟩ := hsteps 2
  obtain ⟨hall, -, hnone, -⟩ := hsteps 5
  have horder : [63, 2, 4].Perm [2, 4, 63] := by decide
  exact ⟨hlanes, htaken, hleft, hnext, hremaining, hall, hnone, hlanes ▸ horder, hmade _ horder⟩

end ConflictBatching
