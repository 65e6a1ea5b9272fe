import ConflictBatching.Lane.Word
import ConflictBatching.Proofs.Lane.Lanes

/-! # Masks as vectors of full and empty lanes

A mask and a vector are read lane by lane: an expanded lane is full where the mask holds it, and the
collected mask holds the lanes whose top bit is set. So each law of the conversions is one of a lane.
-/
namespace ConflictBatching
variable {α : Type} {w n : Nat}

/-- The top bit is set when something is left after all other bits are shifted out. -/
theorem msb_iff_shiftRight_ne_zero (x : BitVec w) : x.msb = true ↔ x >>> (w - 1) ≠ 0 := by
  have hpos := Nat.two_pow_pos (w - 1)
  rw [BitVec.msb_eq_decide, decide_eq_true_eq, Ne, ← BitVec.toNat_inj, BitVec.toNat_ushiftRight,
    Nat.shiftRight_eq_div_pow, BitVec.ofNat_eq_ofNat, BitVec.toNat_zero, Nat.div_eq_zero_iff]
  omega

theorem getElem_blend (m : LaneMask) (a b : Vector α n) {i : Nat} (hi : i < n) :
    (blend m a b)[i] = if m.contains i then a[i] else b[i] := by
  rw [blend, Vector.getElem_ofFn]
  rfl

namespace LaneVector

theorem getElem_ofMask (m : LaneMask) {i : Nat} (hi : i < n) :
    (ofMask w n m)[i] = if m.contains i then BitVec.allOnes w else 0 :=
  Vector.getElem_ofFn hi

/-- The lanes with a set top bit are put into a mask one after the other. -/
theorem toMask_eq_ofLanes (v : LaneVector w n) :
    v.toMask = .ofLanes (((List.finRange n).filter fun lane => (v.get lane).msb).map Fin.val) := by
  rw [LaneMask.ofLanes, List.foldl_map, List.foldl_filter]
  rfl

theorem contains_toMask_iff (hn : n ≤ maxLanes) (v : LaneVector w n) (i : Nat) :
    v.toMask.contains i = true ↔ ∃ hi : i < n, v[i].msb = true := by
  rw [toMask_eq_ofLanes, LaneMask.contains_ofLanes, List.mem_map]
  constructor
  · rintro ⟨-, lane, hlane, rfl⟩
    exact ⟨lane.isLt, (List.mem_filter.mp hlane).2⟩
  · rintro ⟨hi, hmsb⟩
    exact ⟨hi.trans_le hn, ⟨i, hi⟩, List.mem_filter.mpr ⟨List.mem_finRange _, hmsb⟩, rfl⟩

theorem contains_toMask (hn : n ≤ maxLanes) (v : LaneVector w n) {i : Nat} (hi : i < n) :
    v.toMask.contains i = v[i].msb := by
  apply Bool.eq_iff_iff.mpr
  rw [contains_toMask_iff hn]
  exact ⟨fun ⟨_, hmsb⟩ => hmsb, fun hmsb => ⟨hi, hmsb⟩⟩

theorem contains_toMask_beyond (hn : n ≤ maxLanes) (v : LaneVector w n) {i : Nat} (hi : n ≤ i) :
    v.toMask.contains i = false := by
  apply Bool.eq_false_iff.mpr
  intro h
  exact Nat.not_lt.mpr hi ((contains_toMask_iff hn v i).mp h).1

/-- The collected mask has no lane beyond the last, so it is told by the lanes of the vector. -/
theorem toMask_eq_of_lanes (hn : n ≤ maxLanes) {v : LaneVector w n} {m : LaneMask}
    (hbelow : ∀ i (hi : i < n), v[i].msb = m.contains i)
    (hbeyond : ∀ i, n ≤ i → m.contains i = false) : v.toMask = m := by
  apply LaneMask.ext_contains
  intro i
  by_cases hi : i < n
  · rw [contains_toMask hn v hi, hbelow i hi]
  · have hle := Nat.le_of_not_lt hi
    rw [contains_toMask_beyond hn v hle, hbeyond i hle]

theorem toMask_ofMask (hw : 0 < w) (hn : n ≤ maxLanes) (m : LaneMask) :
    (ofMask w n m).toMask = m &&& .firstN n := by
  apply toMask_eq_of_lanes hn
  · intro i hi
    have hmax : i < maxLanes := hi.trans_le hn
    rw [getElem_ofMask, LaneMask.contains_and, LaneMask.contains_firstN]
    cases m.contains i <;> simp [hi, hmax, BitVec.msb_allOnes hw]
  · intro i hi
    rw [LaneMask.contains_and, LaneMask.contains_firstN]
    simp [Nat.not_lt.mpr hi]

theorem getElem_ofMask_toMask (hn : n ≤ maxLanes) (v : LaneVector w n) {i : Nat} (hi : i < n) :
    (ofMask w n v.toMask)[i] = if v[i].msb then BitVec.allOnes w else 0 := by
  rw [getElem_ofMask, contains_toMask hn v hi]

theorem ofMask_toMask_iff (hw : 0 < w) (hn : n ≤ maxLanes) (v : LaneVector w n) :
    ofMask w n v.toMask = v ↔ ∀ i (hi : i < n), v[i] = 0 ∨ v[i] = BitVec.allOnes w := by
  constructor
  · intro hback i hi
    have hlane := getElem_ofMask_toMask hn v hi
    rw [hback] at hlane
    split at hlane
    · exact .inr hlane
    · exact .inl hlane
  · intro hfull
    apply Vector.ext
    intro i hi
    rw [getElem_ofMask_toMask hn v hi]
    rcases hfull i hi with hzero | hones
    · simp [hzero]
    · simp [hones, BitVec.msb_allOnes hw]

theorem toMask_blend (hn : n ≤ maxLanes) (m : LaneMask) (a b : LaneVector w n) :
    LaneVector.toMask (blend m a b) = (m &&& a.toMask) ||| (~~~m &&& b.toMask) := by
  apply toMask_eq_of_lanes hn
  · intro i hi
    have hmax : i < maxLanes := hi.trans_le hn
    rw [getElem_blend, LaneMask.contains_or, LaneMask.contains_and, LaneMask.contains_and,
      LaneMask.contains_compl, contains_toMask hn a hi, contains_toMask hn b hi]
    cases m.contains i <;> simp [hmax]
  · intro i hi
    -- The complement holds lanes beyond the vector, but no collected mask does.
    simp [contains_toMask_beyond hn a hi, contains_toMask_beyond hn b hi]

theorem blend_allOnes_zero (m : LaneMask) : blend m (allOnes w n) (zero w n) = ofMask w n m := by
  apply Vector.ext
  intro i hi
  rw [getElem_blend, getElem_ofMask, allOnes, zero, Vector.getElem_replicate,
    Vector.getElem_replicate]

end LaneVector

open LaneVector

/-- Words of any width but zero and vectors of at most `maxLanes` lanes: the collected mask holds the lanes
that keep a bit when all but the top one are shifted out. Collecting an expanded mask gives its lanes
within the vector, and expanding a collected one gives the vector exactly when all its lanes are zero or
full. Collecting what is blended blends what is collected, and the full and the zero vector blend to the
expanded mask. -/
theorem masks_and_vectors_convert (hw : 0 < w) (hn : n ≤ maxLanes) (m : LaneMask)
    (a b : LaneVector w n) :
    (∀ i, a.toMask.contains i = true ↔ ∃ hi : i < n, a[i] >>> (w - 1) ≠ 0) ∧
    (ofMask w n m).toMask = m &&& .firstN n ∧
    (ofMask w n a.toMask = a ↔ ∀ i (hi : i < n), a[i] = 0 ∨ a[i] = BitVec.allOnes w) ∧
    LaneVector.toMask (blend m a b) = (m &&& a.toMask) ||| (~~~m &&& b.toMask) ∧
    blend m (allOnes w n) (zero w n) = ofMask w n m := by
  refine ⟨?_, toMask_ofMask hw hn m, ofMask_toMask_iff hw hn a, toMask_blend hn m a b,
    blend_allOnes_zero m⟩
  intro i
  rw [contains_toMask_iff hn]
  exact exists_congr fun hi => msb_iff_shiftRight_ne_zero a[i]

/-- Lane 5 of the mask lies beyond the three lanes, and lane 1 is neither zero nor full. -/
theorem masks_and_vectors_convert_in_three_bytes :
    let m : LaneMask := ⟨0b100101⟩
    let a : LaneVector 8 3 := #v[0xff, 0x80, 0]
    let b : LaneVector 8 3 := #v[0, 0x90, 0x90]
    0 < 8 ∧ 3 ≤ maxLanes ∧
      (ofMask 8 3 m).toMask = ⟨0b101⟩ ∧ ofMask 8 3 a.toMask ≠ a ∧
      LaneVector.toMask (blend m a b) = ⟨0b011⟩ ∧
      (m &&& a.toMask) ||| (~~~m &&& b.toMask) = ⟨0b011⟩ ∧
      blend m (allOnes 8 3) (zero 8 3) = #v[0xff, 0, 0xff] := by
  intro m a b
  have hw : 0 < 8 := by decide
  have hn : 3 ≤ maxLanes := by decide
  obtain ⟨-, hcollected, hexpanded, hblended, hfull⟩ := masks_and_vectors_convert hw hn m a b
  have hpart : ¬∀ i (hi : i < 3), a[i] = 0 ∨ a[i] = BitVec.allOnes 8 := by decide
  exact ⟨hw, hn, hcollected.trans (by decide), mt hexpanded.mp hpart, hblended.trans (by decide),
    by decide, hfull.trans (by decide)⟩

end ConflictBatching
