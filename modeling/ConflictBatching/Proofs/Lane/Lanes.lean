import ConflictBatching.Lane.Mask
import Mathlib.Data.List.Sort

/-! # The lanes of a mask in ascending order

A walk clears the lowest set bit of its word at every step. Each step is read through membership,
so a full walk is the list of all lanes filtered by the mask, and every later fact about lanes is
a fact about that filter.
-/
namespace ConflictBatching

/-- Subtracting one borrows up to the lowest set bit and leaves the bits above it. -/
theorem testBit_and_pred {n lane : Nat} (hlane : n.testBit lane = true)
    (hlow : ∀ i < lane, n.testBit i = false) (i : Nat) :
    (n &&& (n - 1)).testBit i = (n.testBit i && decide (i ≠ lane)) := by
  have hmod : n % 2 ^ lane = 0 := by
    apply Nat.eq_of_testBit_eq
    intro j
    rw [Nat.testBit_mod_two_pow, Nat.zero_testBit]
    by_cases hj : j < lane
    · simp [hlow j hj]
    · simp [hj]
  obtain ⟨q, hq⟩ : ∃ q, n / 2 ^ lane = 2 * q + 1 := by
    rw [Nat.testBit_eq_decide_div_mod_eq, decide_eq_true_eq] at hlane
    exact ⟨n / 2 ^ lane / 2, by omega⟩
  have hpos := Nat.two_pow_pos lane
  have hn : n = 2 ^ lane * (2 * q + 1) + 0 := by
    rw [← hq, ← hmod, Nat.div_add_mod]
  have hpred : n - 1 = 2 ^ lane * (2 * q) + (2 ^ lane - 1) := by
    rw [hn, Nat.mul_succ]
    omega
  rw [Nat.testBit_and, hpred, hn, Nat.testBit_two_pow_mul_add _ hpos,
    Nat.testBit_two_pow_mul_add _ (Nat.sub_lt hpos Nat.one_pos)]
  by_cases hi : i < lane
  · simp [hi]
  · rw [if_neg hi, if_neg hi]
    rcases Nat.exists_eq_add_of_le (Nat.le_of_not_lt hi) with ⟨k, rfl⟩
    rw [Nat.add_sub_cancel_left]
    cases k with
    | zero => simp
    | succ k => simp [Nat.testBit_succ, Nat.mul_add_div]

namespace LaneMask

def members (m : LaneMask) : List Nat := (List.range maxLanes).filter m.contains

theorem mem_members {m : LaneMask} {lane : Nat} : lane ∈ m.members ↔ m.contains lane = true := by
  rw [members, List.mem_filter, List.mem_range]
  exact ⟨And.right, fun h => ⟨lt_of_contains h, h⟩⟩

theorem members_sorted (m : LaneMask) : m.members.Pairwise (· < ·) :=
  List.pairwise_lt_range.filter _

theorem members_length_le (m : LaneMask) : m.members.length ≤ maxLanes :=
  (List.length_filter_le ..).trans List.length_range.le

theorem first?_eq_head? (m : LaneMask) : m.first? = m.members.head? :=
  List.head?_filter.symm

theorem count_eq_length (m : LaneMask) : m.count = m.members.length :=
  List.countP_eq_length_filter

theorem contains_foldl_insert (m : LaneMask) (lanes : List Nat) (i : Nat) :
    (lanes.foldl insert m).contains i = true ↔
      m.contains i = true ∨ i < maxLanes ∧ i ∈ lanes := by
  induction lanes generalizing m with
  | nil => simp
  | cons lane rest ih =>
    rw [List.foldl_cons, ih, contains_insert, Bool.or_eq_true, decide_eq_true_eq, List.mem_cons,
      and_or_left, or_assoc]

theorem contains_ofLanes (lanes : List Nat) (i : Nat) :
    (ofLanes lanes).contains i = true ↔ i < maxLanes ∧ i ∈ lanes := by
  rw [ofLanes, contains_foldl_insert, contains_empty]
  simp

theorem ne_empty_iff {m : LaneMask} : m ≠ .empty ↔ ∃ lane, m.contains lane = true := by
  constructor
  · intro hne
    by_contra hnone
    apply hne
    apply ext_contains
    intro lane
    rw [contains_empty]
    exact Bool.eq_false_iff.mpr fun h => hnone ⟨lane, h⟩
  · rintro ⟨lane, h⟩ rfl
    rw [contains_empty] at h
    cases h

theorem members_eq_of_sorted {m : LaneMask} {lanes : List Nat} (hs : lanes.Pairwise (· < ·))
    (h : ∀ lane, lane ∈ lanes ↔ m.contains lane = true) : m.members = lanes := by
  have hperm : m.members.Perm lanes :=
    (List.perm_ext_iff_of_nodup m.members_sorted.nodup hs.nodup).mpr
      fun lane => mem_members.trans (h lane).symm
  exact hperm.eq_of_pairwise' m.members_sorted hs

namespace Walk

/-- One step of a walk yields the lowest lane to come and leaves the others. -/
theorem next?_of_members {w : Walk} {lane : Nat} {rest : List Nat}
    (h : w.left.members = lane :: rest) :
    ∃ w' : Walk, w.next? = some (lane, w') ∧ w'.left.members = rest := by
  have hsorted := w.left.members_sorted
  rw [h] at hsorted
  obtain ⟨hlt, hrest⟩ := List.pairwise_cons.mp hsorted
  have hlane : w.left.contains lane = true := mem_members.mp (by simp [h])
  have hlow : ∀ i < lane, w.left.bits.toNat.testBit i = false := by
    intro i hi
    apply Bool.eq_false_iff.mpr
    intro hbit
    have hmem : i ∈ lane :: rest := h ▸ mem_members.mpr hbit
    rcases List.mem_cons.mp hmem with rfl | hmem
    · exact Nat.lt_irrefl _ hi
    · exact Nat.lt_asymm hi (hlt i hmem)
  refine ⟨⟨⟨w.left.bits &&& (w.left.bits - 1)⟩⟩, ?_, ?_⟩
  · simp only [next?, first?_eq_head?, h, List.head?_cons, Option.map_some]
  · apply members_eq_of_sorted hrest
    intro i
    have hne : w.left.bits.toNat ≠ 0 := by
      intro hz
      simp [contains, BitVec.getLsbD, hz] at hlane
    have hstep := testBit_and_pred hlane hlow i
    have hpred : (w.left.bits - 1).toNat = w.left.bits.toNat - 1 := by
      have hle : (1 : BitVec 64) ≤ w.left.bits := BitVec.le_def.mpr (Nat.pos_of_ne_zero hne)
      exact BitVec.toNat_sub_of_le hle
    change i ∈ rest ↔ ((w.left.bits &&& (w.left.bits - 1)).toNat.testBit i) = true
    rw [BitVec.toNat_and, hpred, hstep, Bool.and_eq_true, decide_eq_true_eq]
    have hmem : i ∈ lane :: rest ↔ w.left.bits.toNat.testBit i = true := h ▸ mem_members
    rw [← hmem, List.mem_cons]
    constructor
    · intro hi
      exact ⟨.inr hi, (Nat.ne_of_lt (hlt i hi)).symm⟩
    · rintro ⟨rfl | hi, hne⟩
      · exact absurd rfl hne
      · exact hi

theorem next?_of_members_nil {w : Walk} (h : w.left.members = []) : w.next? = none := by
  simp only [next?, first?_eq_head?, h, List.head?_nil, Option.map_none]

theorem take_eq (k : Nat) (w : Walk) : (take k w).1 = w.left.members.take k := by
  induction k generalizing w with
  | zero => rfl
  | succ k ih =>
    cases h : w.left.members with
    | nil => simp only [take, next?_of_members_nil h, List.take_nil]
    | cons lane rest =>
      obtain ⟨w', hw, hrest⟩ := next?_of_members h
      simp only [take, hw, List.take_succ_cons, ih, hrest]

end Walk

/-- A full walk visits every lane of the mask once, from the lowest up. -/
theorem lanes_eq_members (m : LaneMask) : m.lanes = m.members := by
  rw [lanes, Walk.take_eq]
  exact List.take_of_length_le m.members_length_le

theorem mem_lanes {m : LaneMask} {lane : Nat} : lane ∈ m.lanes ↔ m.contains lane = true := by
  rw [lanes_eq_members, mem_members]

theorem lanes_sorted (m : LaneMask) : m.lanes.Pairwise (· < ·) := by
  rw [lanes_eq_members]
  exact m.members_sorted

theorem count_eq_length_lanes (m : LaneMask) : m.count = m.lanes.length := by
  rw [count_eq_length, lanes_eq_members]

theorem first?_eq_head?_lanes (m : LaneMask) : m.first? = m.lanes.head? := by
  rw [first?_eq_head?, lanes_eq_members]

theorem lanes_and_firstN (m : LaneMask) {n : Nat} (hn : n ≤ maxLanes) :
    (m &&& .firstN n).lanes = (List.range n).filter m.contains := by
  rw [lanes_eq_members]
  apply members_eq_of_sorted (List.pairwise_lt_range.filter _)
  intro lane
  rw [List.mem_filter, List.mem_range, contains_and, contains_firstN, Bool.and_eq_true,
    decide_eq_true_eq]
  constructor
  · rintro ⟨hlt, hin⟩
    exact ⟨hin, hlt.trans_le hn, hlt⟩
  · rintro ⟨hin, -, hlt⟩
    exact ⟨hlt, hin⟩

theorem lanes_rest (m : LaneMask) {n : Nat} (hn : n ≤ maxLanes) :
    (~~~(m &&& .firstN n) &&& .firstN n).lanes = (List.range n).filter (!m.contains ·) := by
  rw [lanes_and_firstN _ hn]
  apply List.filter_congr
  intro lane hlane
  have hlt := List.mem_range.mp hlane
  simp [contains_compl, contains_firstN, hlt, hlt.trans_le hn]

theorem count_and_firstN (m : LaneMask) {n : Nat} (hn : n ≤ maxLanes) :
    (m &&& .firstN n).count = ((List.range n).filter m.contains).length := by
  rw [count_eq_length_lanes, lanes_and_firstN m hn]

end LaneMask
end ConflictBatching
