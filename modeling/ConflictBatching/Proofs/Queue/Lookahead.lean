import ConflictBatching.Proofs.Queue.Delay

/-! # Nothing beyond the window matters

A batch is formed from the window and from the deferrals before it. Behind the window a run leaves
every item in its place, so two queues with a common beginning are drained alike for as long as the
window stays within it. Tokens are carried along unread, and numbering them by arrival tells how far
back a delivered item can come from.
-/
namespace ConflictBatching
variable {κ τ : Type}

/-- The position at which a batch starts: the items delivered before it. -/
def Drained.start (d : Drained κ τ) (k : Nat) : Nat := itemCount (d.batches.take k)

theorem Drained.same_batch_of_take {d d' : Drained κ τ} {k : Nat}
    (h : d'.batches.take (k + 1) = d.batches.take (k + 1)) :
    d'.batches[k]? = d.batches[k]? ∧ d'.start k = d.start k := by
  constructor
  · rw [← List.getElem?_take_of_lt (Nat.lt_succ_self k), h,
      List.getElem?_take_of_lt (Nat.lt_succ_self k)]
  · have hcut := congrArg (List.take k) h
    rw [List.take_take, List.take_take, Nat.min_eq_left (Nat.le_succ k)] at hcut
    rw [start, start, hcut]

def Batch.mapTokens {τ' : Type} (f : τ → τ') (b : Batch κ τ) : Batch κ τ' :=
  ⟨b.kind, b.items.map (Prod.map id f)⟩

/-- The queue with the arrival number of each item beside its token. -/
def WorkQueue.numbered (q : WorkQueue κ τ) : WorkQueue κ (τ × Nat) :=
  ⟨q.items.zipIdx.map fun (x, i) => (x.1, x.2, i)⟩

theorem Batch.size_mapTokens {τ' : Type} (f : τ → τ') (b : Batch κ τ) :
    (b.mapTokens f).size = b.size := List.length_map _

theorem itemCount_map_mapTokens {τ' : Type} (f : τ → τ') (batches : List (Batch κ τ)) :
    itemCount (batches.map (Batch.mapTokens f)) = itemCount batches := by
  induction batches with
  | nil => rfl
  | cons b bs ih => rw [List.map_cons, itemCount_cons, itemCount_cons, b.size_mapTokens, ih]

theorem WorkQueue.numbered_forget (q : WorkQueue κ τ) :
    q.numbered.items.map (Prod.map id Prod.fst) = q.items := by
  simp [numbered, Function.comp_def]

theorem WorkQueue.mem_take_numbered {q : WorkQueue κ τ} {n : Nat} {x : κ × τ × Nat}
    (h : x ∈ q.numbered.items.take n) : x.2.2 < n ∧ q.items[x.2.2]? = some (x.1, x.2.1) := by
  obtain ⟨i, hi⟩ := List.mem_iff_getElem?.mp h
  rw [List.getElem?_take] at hi
  split at hi
  · next hlt =>
    simp only [numbered, List.getElem?_map, List.getElem?_zipIdx, Option.map_map,
      Option.map_eq_some_iff] at hi
    obtain ⟨y, hy, rfl⟩ := hi
    simpa using ⟨hlt, hy⟩
  · cases hi

variable [DecidableEq κ]

namespace Drain

section Step
variable {width : Nat} (policy : FlushPolicy)

/-- Beyond its window a step only moves items nearer by the size of its batch. -/
theorem step_pending_drop (hwidth : 2 * width ≤ maxLanes) (d : Drain κ τ) {n : Nat}
    (hn : 2 * width ≤ n) :
    (d.step width policy).pending.drop n =
      d.pending.drop ((d.nextBatch width policy).size + n) := by
  have hsize := nextBatch_size_add_leftover width policy d
  rw [step_pending width hwidth, List.drop_append, List.drop_drop]
  -- A window that reaches past the pending items leaves nothing behind it on either side.
  by_cases hfull : 2 * width ≤ d.pending.length
  · have hfront : (d.front width).length = 2 * width := by
      rw [front, List.length_take, Nat.min_eq_left hfull]
    rw [List.drop_eq_nil_of_le (by omega), List.nil_append]
    congr 1
    omega
  · have hfront := d.front_length_le width
    rw [List.drop_eq_nil_of_le (by omega), List.drop_eq_nil_of_le (by omega),
      List.drop_eq_nil_of_le (by omega), List.nil_append]

/-- Two drains with the same next `n` items and as many deferrals in a row. -/
def Agree (n : Nat) (d d' : Drain κ τ) : Prop :=
  d.streak = d'.streak ∧ ∃ shared rest rest', shared.length = n ∧
    d.pending = shared ++ rest ∧ d'.pending = shared ++ rest'

namespace Agree
variable {n : Nat} {d d' : Drain κ τ} (h : Agree n d d')
include h

omit [DecidableEq κ] in
theorem front_eq (hn : 2 * width ≤ n) : d.front width = d'.front width := by
  obtain ⟨-, shared, rest, rest', rfl, hd, hd'⟩ := h
  rw [front, front, hd, hd', List.take_append_of_le_length hn, List.take_append_of_le_length hn]

omit [DecidableEq κ] in
theorem pending_ne_nil (hn : 1 ≤ n) : d.pending ≠ [] ∧ d'.pending ≠ [] := by
  obtain ⟨-, shared, rest, rest', rfl, hd, hd'⟩ := h
  have hshared : shared ≠ [] := List.ne_nil_of_length_pos hn
  simp [hd, hd', hshared]

theorem nextBatch_eq (hn : 2 * width ≤ n) :
    d.nextBatch width policy = d'.nextBatch width policy := by
  simp only [nextBatch, h.front_eq hn, h.1]

theorem leftover_eq (hn : 2 * width ≤ n) :
    d.leftover width policy = d'.leftover width policy := by
  simp only [leftover, h.front_eq hn, h.1]

theorem step (hpos : 1 ≤ width) (hwidth : 2 * width ≤ maxLanes)
    (hn : (d.nextBatch width policy).size + 2 * width ≤ n) :
    Agree (n - (d.nextBatch width policy).size) (d.step width policy) (d'.step width policy) := by
  have hn' : 2 * width ≤ n := (Nat.le_add_left ..).trans hn
  have hbatch := h.nextBatch_eq policy hn'
  have hleft := h.leftover_eq policy hn'
  have hsize := nextBatch_size_add_leftover width policy d
  obtain ⟨hstreak, shared, rest, rest', rfl, hd, hd'⟩ := h
  rw [front, hd, List.take_append_of_le_length hn', List.length_take, Nat.min_eq_left hn'] at hsize
  have hstep : (d.step width policy).pending =
      d.leftover width policy ++ shared.drop (2 * width) ++ rest := by
    rw [step_pending width hwidth, hd, List.drop_append_of_le_length hn', List.append_assoc]
  have hstep' : (d'.step width policy).pending =
      d.leftover width policy ++ shared.drop (2 * width) ++ rest' := by
    rw [step_pending width hwidth, hd', ← hleft, List.drop_append_of_le_length hn',
      List.append_assoc]
  have hlen : (d.leftover width policy ++ shared.drop (2 * width)).length =
      shared.length - (d.nextBatch width policy).size := by
    rw [List.length_append, List.length_drop]
    omega
  have hremain : d.leftover width policy ++ shared.drop (2 * width) ≠ [] :=
    List.ne_nil_of_length_pos (by omega)
  refine ⟨?_, _, rest, rest', hlen, hstep, hstep'⟩
  -- Items remain in both drains, so both count the batch as a deferral or neither does.
  have hne := List.append_ne_nil_of_left_ne_nil hremain rest
  have hne' := List.append_ne_nil_of_left_ne_nil hremain rest'
  rw [step_streak width hwidth, step_streak width hwidth, hstep, hstep', ← hbatch, hstreak]
  simp only [hne, hne', ne_eq, not_false_eq_true]

/-- Drains that agree deliver the same batches for as long as the window stays where they agree. -/
theorem upcoming_eq (hpos : 1 ≤ width) (hwidth : 2 * width ≤ maxLanes) {k : Nat}
    (hreach : itemCount (upcoming width policy k d) + 2 * width ≤ n) :
    upcoming width policy (k + 1) d' = upcoming width policy (k + 1) d := by
  induction k generalizing n d d' with
  | zero =>
    have hn : 2 * width ≤ n := (Nat.le_add_left ..).trans hreach
    obtain ⟨hne, hne'⟩ := h.pending_ne_nil (by omega)
    rw [upcoming_succ _ hne, upcoming_succ _ hne', h.nextBatch_eq policy hn]
    rfl
  | succ k ih =>
    have hn : 2 * width ≤ n := (Nat.le_add_left ..).trans hreach
    obtain ⟨hne, hne'⟩ := h.pending_ne_nil (by omega)
    rw [upcoming_succ _ hne, itemCount_cons] at hreach
    have hstep := h.step policy hpos hwidth (by omega)
    rw [upcoming_succ _ hne, upcoming_succ _ hne', h.nextBatch_eq policy hn,
      ih hstep (by omega)]

end Agree
end Step

section Run
variable {width : Nat} (hwidth : 2 * width ≤ maxLanes) (policy : FlushPolicy)
include hwidth

theorem run_pending_drop (k : Nat) (d : Drain κ τ) {n : Nat} (hn : 2 * width ≤ n) :
    (run width policy k d).pending.drop n =
      d.pending.drop (itemCount (upcoming width policy k d) + n) := by
  induction k generalizing d with
  | zero => simp [run, upcoming]
  | succ k ih =>
    by_cases h : d.pending = []
    · rw [run_of_pending_nil _ _ _ h, upcoming_of_pending_nil _ _ _ h, h]
      simp
    · rw [run_succ _ h, upcoming_succ _ h, itemCount_cons, ih, Nat.add_assoc]
      exact step_pending_drop policy hwidth d (by omega)

theorem run_perm (k : Nat) (d : Drain κ τ) :
    ((upcoming width policy k d).flatMap Batch.items ++ (run width policy k d).pending).Perm
      d.pending := by
  apply perm_of_ofKey_eq
  intro key
  rw [ofKey_append]
  exact run_ofKey width hwidth policy k d key

/-- What is delivered and what is in the window are the items that the window has passed over. -/
theorem run_front_perm (k : Nat) (d : Drain κ τ) :
    ((upcoming width policy k d).flatMap Batch.items ++ (run width policy k d).front width).Perm
      (d.pending.take (itemCount (upcoming width policy k d) + 2 * width)) := by
  have hperm := run_perm hwidth policy k d
  have htail := run_pending_drop hwidth policy k d (Nat.le_refl (2 * width))
  rw [← List.take_append_drop (2 * width) (run width policy k d).pending, ← List.append_assoc,
    htail] at hperm
  -- The items behind the window are the same on both sides and cancel.
  rw [← List.perm_append_right_iff
    (d.pending.drop (itemCount (upcoming width policy k d) + 2 * width)), List.take_append_drop]
  exact hperm

end Run

section Tokens
variable {τ' : Type} {width : Nat} (policy : FlushPolicy)

/-- The same drain over other tokens. -/
def Relabels (f : τ → τ') (d : Drain κ τ) (e : Drain κ τ') : Prop :=
  e.pending = d.pending.map (Prod.map id f) ∧ e.streak = d.streak

namespace Relabels
variable {f : τ → τ'} {d : Drain κ τ} {e : Drain κ τ'} (h : Relabels f d e)
include h

omit [DecidableEq κ] in
theorem pending_eq_nil_iff : e.pending = [] ↔ d.pending = [] := by
  rw [h.1, List.map_eq_nil_iff]

omit [DecidableEq κ] in
theorem front_eq : e.front width = (d.front width).map (Prod.map id f) := by
  rw [front, front, h.1, List.map_take]

theorem nextBatch_eq : e.nextBatch width policy = (d.nextBatch width policy).mapTokens f := by
  simp only [nextBatch, h.2, h.front_eq, firsts, firstsFrom_map_tokens]
  split <;> simp [Batch.mapTokens, List.map_take]

theorem leftover_eq :
    e.leftover width policy = (d.leftover width policy).map (Prod.map id f) := by
  simp only [leftover, h.2, h.front_eq, firsts, repeated, firstsFrom_map_tokens,
    repeatsFrom_map_tokens]
  split <;> simp [List.map_drop]

theorem step (hwidth : 2 * width ≤ maxLanes) :
    Relabels f (d.step width policy) (e.step width policy) := by
  have hpending : (e.step width policy).pending =
      (d.step width policy).pending.map (Prod.map id f) := by
    rw [step_pending width hwidth, step_pending width hwidth, h.leftover_eq, h.1, List.map_append,
      List.map_drop]
  refine ⟨hpending, ?_⟩
  rw [step_streak width hwidth, step_streak width hwidth, h.nextBatch_eq, hpending, h.2,
    Batch.size_mapTokens]
  refine if_congr (and_congr_right fun _ => and_congr_right fun _ => ?_) rfl rfl
  exact not_congr List.map_eq_nil_iff

/-- A drain does not look at tokens: other tokens in the same places leave every batch as it was. -/
theorem upcoming_eq (hwidth : 2 * width ≤ maxLanes) (n : Nat) :
    upcoming width policy n e = (upcoming width policy n d).map (Batch.mapTokens f) := by
  induction n generalizing d e with
  | zero => rfl
  | succ n ih =>
    by_cases hd : d.pending = []
    · have he : e.pending = [] := h.pending_eq_nil_iff.mpr hd
      rw [upcoming_of_pending_nil _ _ _ hd, upcoming_of_pending_nil _ _ _ he, List.map_nil]
    · have he : e.pending ≠ [] := mt h.pending_eq_nil_iff.mp hd
      rw [upcoming_succ _ hd, upcoming_succ _ he, List.map_cons, h.nextBatch_eq,
        ih (h.step policy hwidth)]

end Relabels
end Tokens
end Drain

namespace WorkQueue
variable {width : Nat} (hpos : 1 ≤ width) (hwidth : 2 * width ≤ maxLanes) (policy : FlushPolicy)
include hwidth

theorem numbered_batches (q : WorkQueue κ τ) :
    (q.numbered.drain width policy).batches.map (Batch.mapTokens Prod.fst) =
      (q.drain width policy).batches := by
  have hsize : q.numbered.size = q.size := by simp [size, numbered]
  have hforget : Drain.Relabels Prod.fst q.numbered.undrained q.undrained :=
    ⟨q.numbered_forget.symm, rfl⟩
  rw [q.drain_batches hwidth, q.numbered.drain_batches hwidth, hsize]
  exact (hforget.upcoming_eq policy hwidth q.size).symm

theorem numbered_start (q : WorkQueue κ τ) (k : Nat) :
    (q.numbered.drain width policy).start k = (q.drain width policy).start k := by
  rw [Drained.start, Drained.start, ← q.numbered_batches hwidth, ← List.map_take,
    itemCount_map_mapTokens]

include hpos

theorem take_batches (q : WorkQueue κ τ) (k : Nat) :
    (q.drain width policy).batches.take k = Drain.upcoming width policy k q.undrained := by
  rw [q.drain_batches hwidth, Drain.upcoming_take (q.run_undrained_pending hpos hwidth policy)]

theorem start_eq (q : WorkQueue κ τ) (k : Nat) :
    (q.drain width policy).start k =
      itemCount (Drain.upcoming width policy k q.undrained) := by
  rw [Drained.start, q.take_batches hpos hwidth]

theorem getElem?_batches (q : WorkQueue κ τ) (k : Nat) :
    (q.drain width policy).batches[k]? =
      if (q.drainAt width policy k).pending.isEmpty then none
      else some ((q.drainAt width policy k).nextBatch width policy) := by
  -- It is the last of the first `k + 1` batches, if there are so many.
  have hlast : (q.drain width policy).batches[k]? =
      (Drain.upcoming width policy k q.undrained ++
        Drain.upcoming width policy 1 (q.drainAt width policy k))[k]? := by
    rw [← Drain.upcoming_add, ← q.take_batches hpos hwidth,
      List.getElem?_take_of_lt (Nat.lt_succ_self k)]
  rw [hlast]
  by_cases h : (q.drainAt width policy k).pending = []
  · rw [Drain.upcoming_of_pending_nil _ _ _ h, List.append_nil, h]
    exact List.getElem?_eq_none (Drain.upcoming_length_le ..)
  · have hlen := Drain.upcoming_length_of_pending h
    rw [Drain.upcoming_succ _ h, List.getElem?_append_right hlen.le, hlen, Nat.sub_self]
    simp [h]

theorem eq_nextBatch_of_getElem? {q : WorkQueue κ τ} {k : Nat} {b : Batch κ τ}
    (h : (q.drain width policy).batches[k]? = some b) :
    b = (q.drainAt width policy k).nextBatch width policy := by
  rw [q.getElem?_batches hpos hwidth] at h
  split at h
  · cases h
  · exact (Option.some.inj h).symm

theorem start_add_pending (q : WorkQueue κ τ) (k : Nat) :
    (q.drain width policy).start k + (q.drainAt width policy k).pending.length = q.size := by
  have hlen := (Drain.run_perm hwidth policy k q.undrained).length_eq
  rw [List.length_append, ← itemCount, ← q.start_eq hpos hwidth] at hlen
  exact hlen

theorem exists_batch_of_start_lt {q : WorkQueue κ τ} {k : Nat}
    (h : (q.drain width policy).start k < q.size) :
    ∃ b, (q.drain width policy).batches[k]? = some b := by
  have hsum := q.start_add_pending hpos hwidth policy k
  have hpending : (q.drainAt width policy k).pending ≠ [] := List.ne_nil_of_length_pos (by omega)
  rw [q.getElem?_batches hpos hwidth, List.isEmpty_eq_false_iff.mpr hpending]
  exact ⟨_, rfl⟩

/-- Behind the window of a batch the queue is as it was. -/
theorem getElem?_pending (q : WorkQueue κ τ) (k : Nat) {j : Nat}
    (hj : (q.drain width policy).start k + 2 * width ≤ j) :
    (q.drainAt width policy k).pending[j - (q.drain width policy).start k]? = q.items[j]? := by
  have hdrop := Drain.run_pending_drop hwidth policy k q.undrained (Nat.le_refl (2 * width))
  rw [← q.start_eq hpos hwidth] at hdrop
  obtain ⟨i, rfl⟩ := Nat.exists_eq_add_of_le hj
  rw [Nat.add_assoc, Nat.add_sub_cancel_left, ← List.getElem?_drop, hdrop, List.getElem?_drop,
    Nat.add_assoc]

/-- A batch is made of items that arrived before the end of its window. -/
theorem items_subset_take {q : WorkQueue κ τ} {k : Nat} {b : Batch κ τ}
    (h : (q.drain width policy).batches[k]? = some b) :
    b.items ⊆ q.items.take ((q.drain width policy).start k + 2 * width) := by
  have hfront := Drain.run_front_perm hwidth policy k q.undrained
  rw [← q.start_eq hpos hwidth] at hfront
  rw [eq_nextBatch_of_getElem? hpos hwidth policy h]
  intro x hx
  apply hfront.subset
  apply List.mem_append_right
  exact (Drain.nextBatch_perm width policy _).subset (List.mem_append_left _ hx)

theorem batches_eq_of_shared {shared rest rest' : List (κ × τ)} {k : Nat}
    (hreach : ((WorkQueue.mk (shared ++ rest)).drain width policy).start k + 2 * width ≤
      shared.length) :
    ((WorkQueue.mk (shared ++ rest')).drain width policy).batches.take (k + 1) =
      ((WorkQueue.mk (shared ++ rest)).drain width policy).batches.take (k + 1) := by
  have hagree : Drain.Agree shared.length (WorkQueue.mk (shared ++ rest)).undrained
      (WorkQueue.mk (shared ++ rest')).undrained :=
    ⟨rfl, shared, rest, rest', rfl, rfl, rfl⟩
  rw [start_eq hpos hwidth] at hreach
  rw [take_batches hpos hwidth, take_batches hpos hwidth]
  exact hagree.upcoming_eq policy hpos hwidth hreach

end WorkQueue

/-- Of two queues with a common beginning, whatever follows it and however much, a drain delivers the
same batches for as long as the window ends within the beginning. When a batch starts, the items behind
its window stand where they were queued, so none of its items arrived behind it. -/
theorem drain_blind_beyond_window {width : Nat} (hpos : 1 ≤ width) (hmax : width ≤ 16)
    (policy : FlushPolicy) :
    (∀ (shared rest rest' : List (κ × τ)) (k : Nat),
      let d := (WorkQueue.mk (shared ++ rest)).drain width policy
      let d' := (WorkQueue.mk (shared ++ rest')).drain width policy
      d.start k + 2 * width ≤ shared.length →
        ∃ b, d.batches[k]? = some b ∧ d'.batches[k]? = some b ∧ d'.start k = d.start k) ∧
    ∀ (q : WorkQueue κ τ) (k : Nat), k < (q.drain width policy).batches.length →
      let p := (q.drain width policy).start k
      (q.drain width policy).batches.take k = (q.drainAt width policy k).batches ∧
      (∀ j, p + 2 * width ≤ j → (q.drainAt width policy k).pending[j - p]? = q.items[j]?) ∧
      (q.numbered.drain width policy).batches.map (Batch.mapTokens Prod.fst) =
        (q.drain width policy).batches ∧
      ∃ b, (q.numbered.drain width policy).batches[k]? = some b ∧
        ∀ x ∈ b.items, x.2.2 < p + 2 * width ∧ q.items[x.2.2]? = some (x.1, x.2.1) := by
  have hwidth := window_le_maxLanes hmax
  constructor
  · intro shared rest rest' k d d' hreach
    have htake : d'.batches.take (k + 1) = d.batches.take (k + 1) :=
      WorkQueue.batches_eq_of_shared hpos hwidth policy hreach
    obtain ⟨hsame, hstart⟩ := Drained.same_batch_of_take htake
    have hlt : d.start k < (WorkQueue.mk (shared ++ rest)).size := by
      rw [WorkQueue.size, List.length_append]
      omega
    obtain ⟨b, hb⟩ := WorkQueue.exists_batch_of_start_lt hpos hwidth policy hlt
    exact ⟨b, hb, hsame.trans hb, hstart⟩
  · intro q k hk p
    have hnumbered := q.numbered_batches hwidth policy
    refine ⟨q.drain_batches_take hpos hwidth policy k, ?_, hnumbered, ?_⟩
    · intro j hj
      exact q.getElem?_pending hpos hwidth policy k hj
    · rw [← hnumbered, List.length_map] at hk
      refine ⟨_, List.getElem?_eq_getElem hk, ?_⟩
      intro x hx
      have hsub := WorkQueue.items_subset_take hpos hwidth policy (List.getElem?_eq_getElem hk)
      rw [q.numbered_start hwidth] at hsub
      exact WorkQueue.mem_take_numbered (hsub hx)

/-- Two queues that agree on seven items, drained in batches of at most two: the window of the second
batch ends with the sixth. -/
theorem drain_blind_beyond_six_items :
    let shared : List (Nat × Nat) := [(1, 0), (1, 1), (2, 2), (3, 3), (1, 4), (4, 5), (2, 6)]
    let d := (WorkQueue.mk (shared ++ [])).drain 2 ⟨0, 3⟩
    let d' := (WorkQueue.mk (shared ++ [(5, 7), (3, 8)])).drain 2 ⟨0, 3⟩
    1 ≤ 2 ∧ 2 ≤ 16 ∧ d.start 1 + 2 * 2 ≤ shared.length ∧
      (∃ b, d.batches[1]? = some b ∧ d'.batches[1]? = some b ∧ d'.start 1 = d.start 1) ∧
      1 < d.batches.length ∧
      ∀ j, d.start 1 + 2 * 2 ≤ j →
        ((WorkQueue.mk (shared ++ [])).drainAt 2 ⟨0, 3⟩ 1).pending[j - d.start 1]? =
          (shared ++ [])[j]? := by
  intro shared d d'
  have hreach : d.start 1 + 2 * 2 ≤ shared.length := by decide +kernel
  have hmore : 1 < d.batches.length := by decide +kernel
  have hshared := (drain_blind_beyond_window (show 1 ≤ 2 by decide) (by decide) ⟨0, 3⟩).1
    shared [] [(5, 7), (3, 8)] 1 hreach
  have hbehind := (drain_blind_beyond_window (show 1 ≤ 2 by decide) (by decide) ⟨0, 3⟩).2
    ⟨shared ++ []⟩ 1 hmore
  exact ⟨by decide, by decide, hreach, hshared, hmore, hbehind.2.1⟩

end ConflictBatching
