import ConflictBatching.Proofs.Ledger.Effect
import ConflictBatching.Random.Draw

/-! # What random inputs are like

A draw scales a word by the bound and keeps the high half of the product, so it is below the bound
however often words are rejected before. Transfers are drawn one after the other under the next id.
-/
namespace ConflictBatching

theorem drawWithin_lt {bound : Nat} (hbound : 0 < bound) (tries : Nat) (k : Keystream) :
    (drawWithin bound tries k).1 < bound := by
  have hscaled : ∀ v : UInt64, v.toNat * bound / UInt64.size < bound := by
    intro v
    apply Nat.div_lt_of_lt_mul
    exact Nat.mul_lt_mul_of_pos_right v.toNat_lt_size hbound
  induction tries generalizing k with
  | zero => exact hscaled _
  | succ tries ih =>
    simp only [drawWithin]
    split
    · exact hscaled _
    · exact ih _

theorem draw_lt {bound : Nat} (hbound : 0 < bound) (k : Keystream) : (draw bound k).1 < bound :=
  drawWithin_lt hbound 512 k

theorem drawTransfer_within {accounts : Nat} (haccounts : 0 < accounts) (maxAmount : Int64) (id : Nat)
    (k : Keystream) : (drawTransfer accounts maxAmount id k).1.within accounts :=
  ⟨draw_lt haccounts _, draw_lt haccounts _⟩

/-- The next id is one more than the transfers that are there. -/
theorem transfersInto_spec {accounts : Nat} (haccounts : 0 < accounts) (maxAmount : Int64) (n : Nat)
    (out : Array Transfer) (k : Keystream) (hout : ∀ t ∈ out.toList, t.within accounts) :
    (∀ t ∈ (transfersInto accounts maxAmount out n k).toList, t.within accounts) ∧
    (transfersInto accounts maxAmount out n k).toList.map (·.id) =
      out.toList.map (·.id) ++ (List.range' (out.size + 1) n).map UInt64.ofNat := by
  induction n generalizing out k with
  | zero => exact ⟨hout, by simp [transfersInto]⟩
  | succ n ih =>
    rw [transfersInto]
    -- Of the drawn transfer only its accounts and its id matter, not how the stream gives them.
    have hdrawn := drawTransfer_within haccounts maxAmount (out.size + 1) k
    have hid : (drawTransfer accounts maxAmount (out.size + 1) k).1.id =
        UInt64.ofNat (out.size + 1) := rfl
    generalize drawTransfer accounts maxAmount (out.size + 1) k = drawn at hdrawn hid
    have hpush : ∀ t ∈ (out.push drawn.1).toList, t.within accounts := by
      intro t ht
      rw [Array.toList_push, List.mem_append, List.mem_singleton] at ht
      rcases ht with ht | rfl
      · exact hout t ht
      · exact hdrawn
    obtain ⟨hwithin, hids⟩ := ih (out.push drawn.1) drawn.2 hpush
    refine ⟨hwithin, ?_⟩
    rw [hids, Array.size_push, Array.toList_push, List.map_append, List.append_assoc,
      List.range'_succ]
    simp [hid]

theorem randomTransfers_within (n accounts : Nat) (maxAmount : Int64) (seed : UInt64) :
    ∀ t ∈ randomTransfers n accounts maxAmount seed, t.within accounts := by
  rw [randomTransfers]
  split
  · simp
  · next haccounts =>
    exact (transfersInto_spec (Nat.pos_of_ne_zero haccounts) maxAmount n #[] _ (by simp)).1

theorem randomTransfers_ids (n : Nat) {accounts : Nat} (haccounts : 0 < accounts)
    (maxAmount : Int64) (seed : UInt64) :
    (randomTransfers n accounts maxAmount seed).map (·.id) =
      (List.range' 1 n).map UInt64.ofNat := by
  rw [randomTransfers, if_neg (Nat.ne_of_gt haccounts)]
  simpa using (transfersInto_spec haccounts maxAmount n #[] (.ofSeed seed) (by simp)).2

theorem size_wordsInto (out : Array UInt32) (n : Nat) (k : Keystream) :
    (Keystream.wordsInto out n k).1.size = out.size + n := by
  induction n generalizing out k with
  | zero => rfl
  | succ n ih =>
    rw [Keystream.wordsInto, ih, Array.size_push]
    omega

theorem length_randomKeys (n : Nat) (modulo : UInt32) (seed : UInt64) :
    (randomKeys n modulo seed).length = n := by
  rw [randomKeys, List.length_map, Keystream.words, Array.length_toList, size_wordsInto]
  exact Nat.zero_add n

end ConflictBatching
