import ConflictBatching.Proofs.Queue.Delivery

/-! # Bounded delay

A window may put off an item again and again: by items of other keys that enter later, or because
its key is beyond the width. What bounds the delay is the first half of the window. Every key
there gets its earliest item into the next batch, and whatever a full batch leaves of the window
fits into that half.
-/
namespace ConflictBatching
variable {κ τ : Type} [DecidableEq κ]

namespace Drain

/-- How many of the first `n` pending items belong to a key. -/
def ahead (key : κ) (n : Nat) (d : Drain κ τ) : Nat := (ofKey key (d.pending.take n)).length

def served (key : κ) (batches : List (Batch κ τ)) : Nat :=
  (ofKey key (batches.flatMap Batch.items)).length

theorem served_cons (key : κ) (b : Batch κ τ) (bs : List (Batch κ τ)) :
    served key (b :: bs) = (ofKey key b.items).length + served key bs := by
  simp [served]

theorem pending_ne_nil_of_ahead {key : κ} {n : Nat} {d : Drain κ τ} (h : 0 < d.ahead key n) :
    d.pending ≠ [] := by
  intro hnil
  simp [ahead, hnil] at h

omit [DecidableEq κ] in
theorem half_eq_take_front (width : Nat) (d : Drain κ τ) :
    d.pending.take width = (d.front width).take width := by
  rw [front, List.take_take, Nat.min_eq_left (by omega)]

theorem ahead_half_le (key : κ) (width : Nat) (d : Drain κ τ) :
    d.ahead key width ≤ d.ahead key (2 * width) := by
  have hpre : d.pending.take width <+: d.pending.take (2 * width) :=
    List.take_prefix_take_left (by omega)
  exact (ofKey_prefix_of key hpre).length_le

theorem ahead_window (key : κ) (width : Nat) (policy : FlushPolicy) (d : Drain κ τ) :
    d.ahead key (2 * width) = (ofKey key (d.nextBatch width policy).items).length +
      (ofKey key (d.leftover width policy)).length := by
  rw [← List.length_append, nextBatch_ofKey_leftover]
  rfl

/-- Either the window leaves at most its first half, or all its first occurrences are delivered. -/
theorem leftover_short_or_repeated (width : Nat) (policy : FlushPolicy) (d : Drain κ τ) :
    (d.leftover width policy).length ≤ width ∨
      (d.nextBatch width policy).items = firsts (d.front width) ∧
        d.leftover width policy = repeated (d.front width) := by
  by_cases hforced : policy.maxDeferrals < d.streak
  · left
    simp [leftover, hforced]
  · simp only [nextBatch, leftover, if_neg hforced]
    rcases Nat.le_total (firsts (d.front width)).length width with hle | hge
    · right
      rw [List.take_of_length_le hle, List.drop_eq_nil_of_le hle]
      exact ⟨rfl, rfl⟩
    · left
      have hsum := firsts_length_add_repeated (d.front width)
      have hfront := d.front_length_le width
      rw [List.length_append, List.length_drop]
      omega

/-- Every key of the first half of the window is in the next batch. -/
theorem nextBatch_serves_half (key : κ) (width : Nat) (policy : FlushPolicy) (d : Drain κ τ)
    (h : 0 < d.ahead key width) : 0 < (ofKey key (d.nextBatch width policy).items).length := by
  by_cases hforced : policy.maxDeferrals < d.streak
  · simp only [nextBatch, if_pos hforced]
    exact h.trans_le (d.ahead_half_le key width)
  · simp only [nextBatch, if_neg hforced]
    have hpre := ofKey_prefix_of key (firsts_take_prefix_take width (d.front width))
    have hlen := hpre.length_le
    rw [ofKey_firsts, ← half_eq_take_front, List.length_take] at hlen
    rw [ahead] at h
    omega

section Steps
variable {width : Nat} (hwidth : 2 * width ≤ maxLanes) (policy : FlushPolicy) (key : κ)
include hwidth

theorem leftover_ahead (d : Drain κ τ) {n : Nat} (hn : (d.leftover width policy).length ≤ n) :
    (ofKey key (d.leftover width policy)).length ≤ (d.step width policy).ahead key n := by
  have hpre : d.leftover width policy <+: (d.step width policy).pending.take n := by
    rw [step_pending width hwidth]
    exact List.prefix_take_iff.mpr ⟨List.prefix_append .., hn⟩
  exact (ofKey_prefix_of key hpre).length_le

/-- What a batch leaves of the first half of the window is in the first half of the next one. -/
theorem step_half (d : Drain κ τ) (h : 0 < d.ahead key width) :
    d.ahead key width ≤ (ofKey key (d.nextBatch width policy).items).length +
      (d.step width policy).ahead key width := by
  rcases d.leftover_short_or_repeated width policy with hshort | ⟨-, hrepeated⟩
  · have hle := d.ahead_half_le key width
    have hsplit := d.ahead_window key width policy
    have hleft := leftover_ahead hwidth policy key d hshort
    omega
  · have hserved := d.nextBatch_serves_half key width policy h
    have hpre : repeated (d.pending.take width) <+: (d.step width policy).pending.take width := by
      have hfront := repeated_take_prefix_repeated width (d.front width)
      have hsum := firsts_length_add_repeated (d.pending.take width)
      have htake := List.length_take_le width d.pending
      rw [← hrepeated, ← half_eq_take_front] at hfront
      rw [step_pending width hwidth]
      exact List.prefix_take_iff.mpr ⟨hfront.trans (List.prefix_append ..), by omega⟩
    have hlen := (ofKey_prefix_of key hpre).length_le
    rw [ofKey_repeated, List.length_drop] at hlen
    simp only [ahead] at hlen ⊢
    omega

/-- Of the items of a key in the window, those that a batch leaves are in the next window; they
are in its first half unless the batch served the key. -/
theorem step_window (d : Drain κ τ) (h : 0 < d.ahead key (2 * width)) :
    d.ahead key (2 * width) ≤ (ofKey key (d.nextBatch width policy).items).length +
        (d.step width policy).ahead key width ∨
      0 < (ofKey key (d.nextBatch width policy).items).length ∧
        d.ahead key (2 * width) ≤ (ofKey key (d.nextBatch width policy).items).length +
          (d.step width policy).ahead key (2 * width) := by
  have hsplit := d.ahead_window key width policy
  rcases d.leftover_short_or_repeated width policy with hshort | ⟨hbatch, hrepeated⟩
  · left
    have hleft := leftover_ahead hwidth policy key d hshort
    omega
  · right
    have hsum := firsts_length_add_repeated (d.front width)
    have hfront := d.front_length_le width
    have hleft := leftover_ahead hwidth policy key d (n := 2 * width) (by rw [hrepeated]; omega)
    refine ⟨?_, by omega⟩
    change 0 < (ofKey key (d.front width)).length at h
    rw [hbatch, ofKey_firsts, List.length_take]
    omega

/-- The first `c` items of a key in the first half of the window take at most `c` batches. -/
theorem served_of_half {n c : Nat} (hc : c ≤ n) {d : Drain κ τ} (h : c ≤ d.ahead key width) :
    c ≤ served key (upcoming width policy n d) := by
  induction n generalizing c d with
  | zero => omega
  | succ n ih =>
    rcases Nat.eq_zero_or_pos c with rfl | hpos
    · exact Nat.zero_le _
    · have hahead : 0 < d.ahead key width := by omega
      have hserved := d.nextBatch_serves_half key width policy hahead
      have hstep := step_half hwidth policy key d hahead
      rw [upcoming_succ _ (pending_ne_nil_of_ahead hahead), served_cons]
      have hrest := @ih (c - (ofKey key (d.nextBatch width policy).items).length) (by omega)
        (d.step width policy) (by omega)
      omega

/-- The first `c` items of a key in the window take at most `c + 1` batches. -/
theorem served_of_window {n c : Nat} (hc : c < n) {d : Drain κ τ}
    (h : c ≤ d.ahead key (2 * width)) : c ≤ served key (upcoming width policy n d) := by
  induction n generalizing c d with
  | zero => omega
  | succ n ih =>
    rcases Nat.eq_zero_or_pos c with rfl | hpos
    · exact Nat.zero_le _
    · have hahead : 0 < d.ahead key (2 * width) := by omega
      rw [upcoming_succ _ (pending_ne_nil_of_ahead hahead), served_cons]
      rcases step_window hwidth policy key d hahead with hhalf | ⟨hserved, hstep⟩
      · have hrest := served_of_half hwidth policy key (n := n)
          (c := c - (ofKey key (d.nextBatch width policy).items).length) (by omega)
          (d := d.step width policy) (by omega)
        omega
      · have hrest := @ih (c - (ofKey key (d.nextBatch width policy).items).length) (by omega)
          (d.step width policy) (by omega)
        omega

end Steps
end Drain

abbrev WorkQueue.drainAt (width : Nat) (policy : FlushPolicy) (q : WorkQueue κ τ) (k : Nat) :
    Drain κ τ := Drain.run width policy k q.undrained

theorem WorkQueue.drain_batches_take {width : Nat} (hpos : 1 ≤ width)
    (hwidth : 2 * width ≤ maxLanes) (policy : FlushPolicy) (q : WorkQueue κ τ) (k : Nat) :
    (q.drain width policy).batches.take k = (q.drainAt width policy k).batches := by
  have hnil := q.run_undrained_pending hpos hwidth policy
  rw [q.drain_batches hwidth, Drain.upcoming_take hnil, Drain.run_batches width hwidth]
  rfl

theorem WorkQueue.drain_batches_drop_take {width : Nat} (hpos : 1 ≤ width)
    (hwidth : 2 * width ≤ maxLanes) (policy : FlushPolicy) (q : WorkQueue κ τ) {k : Nat}
    (hk : (q.drainAt width policy k).pending ≠ []) (n : Nat) :
    ((q.drain width policy).batches.drop k).take n =
      Drain.upcoming width policy n (q.drainAt width policy k) := by
  have hnil := q.run_undrained_pending hpos hwidth policy
  have hle : k ≤ q.size := by
    by_contra hlt
    apply hk
    rw [drainAt, q.run_of_size_le hpos hwidth policy (by omega), hnil]
  obtain ⟨more, hmore⟩ := Nat.exists_eq_add_of_le hle
  rw [hmore, Drain.run_add] at hnil
  rw [q.drain_batches hwidth, hmore, Drain.upcoming_add,
    List.drop_left' (Drain.upcoming_length_of_pending hk), Drain.upcoming_take hnil]

/-- An item in the window, with `m` items of its key ahead of it, is in one of the next `m + 2`
batches, after those `m` items and whatever enters the window later. -/
theorem drain_bounded_delay {width : Nat} (hpos : 1 ≤ width) (hmax : width ≤ 16)
    (policy : FlushPolicy) (q : WorkQueue κ τ) {k j : Nat} {x : κ × τ} (hj : j < 2 * width)
    (hx : (q.drainAt width policy k).pending[j]? = some x) :
    let pending := (q.drainAt width policy k).pending
    let m := (ofKey x.1 (pending.take j)).length
    let soon := ((q.drain width policy).batches.drop k).take (m + 2)
    (q.drain width policy).batches.take k = (q.drainAt width policy k).batches ∧
    ofKey x.1 (pending.take (j + 1)) <+: ofKey x.1 (soon.flatMap Batch.items) ∧
    ∃ b ∈ soon, x ∈ b.items := by
  intro pending m soon
  have hwidth := window_le_maxLanes hmax
  have hne : pending ≠ [] := by
    intro hnil
    simp [pending, hnil] at hx
  have hsoon : soon = Drain.upcoming width policy (m + 2) (q.drainAt width policy k) :=
    q.drain_batches_drop_take hpos hwidth policy hne (m + 2)
  have hupto : ofKey x.1 (pending.take (j + 1)) = ofKey x.1 (pending.take j) ++ [x] := by
    rw [List.take_add_one, hx, ofKey_append]
    simp [ofKey]
  have hwindow : ofKey x.1 (pending.take (j + 1)) <+: ofKey x.1 (pending.take (2 * width)) :=
    ofKey_prefix_of x.1 (List.take_prefix_take_left (by omega))
  have hcount : m + 1 ≤ (q.drainAt width policy k).ahead x.1 (2 * width) := by
    have hlen := hwindow.length_le
    rw [hupto, List.length_append, List.length_singleton] at hlen
    exact hlen
  have hserved := Drain.served_of_window hwidth policy x.1 (Nat.lt_succ_self (m + 1)) hcount
  have hline : ofKey x.1 (soon.flatMap Batch.items) <+: ofKey x.1 pending := by
    rw [hsoon]
    exact ⟨_, Drain.run_ofKey width hwidth policy (m + 2) (q.drainAt width policy k) x.1⟩
  have hpre : ofKey x.1 (pending.take (j + 1)) <+: ofKey x.1 (soon.flatMap Batch.items) := by
    apply List.prefix_of_prefix_length_le (ofKey_prefix_of x.1 (List.take_prefix ..)) hline
    rw [hupto, List.length_append, List.length_singleton, hsoon]
    exact hserved
  refine ⟨q.drain_batches_take hpos hwidth policy k, hpre, ?_⟩
  have hmem : x ∈ ofKey x.1 (soon.flatMap Batch.items) := hpre.subset (by simp [hupto])
  exact List.mem_flatMap.mp (mem_ofKey.mp hmem).1

/-- After one batch of a queue with four keys, the second item of a key is within reach of the
window: it is in one of the next three batches. -/
theorem drain_delays_second_item :
    let q : WorkQueue Nat Nat := ⟨[(1, 0), (2, 1), (3, 2), (3, 3), (4, 4), (1, 5), (3, 6)]⟩
    1 ≤ 2 ∧ 2 ≤ 16 ∧ 1 < 2 * 2 ∧ (q.drainAt 2 {} 1).pending[1]? = some (3, 3) ∧
      ∃ b ∈ ((q.drain 2 {}).batches.drop 1).take 3, (3, 3) ∈ b.items := by
  intro q
  have hx : (q.drainAt 2 {} 1).pending[1]? = some (3, 3) := by decide +kernel
  have hahead : (ofKey 3 ((q.drainAt 2 {} 1).pending.take 1)).length = 1 := by decide +kernel
  have hdelay := drain_bounded_delay (by decide) (by decide) {} q (by decide) hx
  simp only [hahead] at hdelay
  exact ⟨by decide, by decide, by decide, hx, hdelay.2.2⟩

end ConflictBatching
