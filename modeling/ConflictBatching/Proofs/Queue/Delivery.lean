import Mathlib.Data.List.Infix
import ConflictBatching.Proofs.Queue.Run

/-! # A drain delivers every item once

The loop of a drain ends because every batch takes an item. The batches then hold the queued items
and nothing else, and the items of one key come in the order in which they were queued, whichever
of the batches were forced out.
-/
namespace ConflictBatching
variable {κ τ : Type} [DecidableEq κ]

/-- The drain of a queue before its first batch. -/
abbrev WorkQueue.undrained (q : WorkQueue κ τ) : Drain κ τ := { pending := q.items }

theorem WorkQueue.drain_batches {width : Nat} (hwidth : 2 * width ≤ maxLanes)
    (policy : FlushPolicy) (q : WorkQueue κ τ) :
    (q.drain width policy).batches = Drain.upcoming width policy q.size q.undrained := by
  have h := Drain.run_batches width hwidth policy q.size q.undrained
  rw [Drain.batches, Drain.batches] at h
  simpa [WorkQueue.drain, Drained.batches, Event.delivered?, List.filterMap_cons] using h

theorem WorkQueue.run_undrained_pending {width : Nat} (hpos : 1 ≤ width)
    (hwidth : 2 * width ≤ maxLanes) (policy : FlushPolicy) (q : WorkQueue κ τ) :
    (Drain.run width policy q.size q.undrained).pending = [] :=
  Drain.run_pending_nil hpos hwidth policy (Nat.le_refl q.size)

theorem WorkQueue.run_of_size_le {width : Nat} (hpos : 1 ≤ width) (hwidth : 2 * width ≤ maxLanes)
    (policy : FlushPolicy) (q : WorkQueue κ τ) {fuel : Nat} (hfuel : q.size ≤ fuel) :
    Drain.run width policy fuel q.undrained = Drain.run width policy q.size q.undrained := by
  obtain ⟨more, rfl⟩ := Nat.exists_eq_add_of_le hfuel
  have hnil := q.run_undrained_pending hpos hwidth policy
  rw [Drain.run_add, Drain.run_of_pending_nil _ _ _ hnil]

theorem WorkQueue.drain_queue {width : Nat} (hpos : 1 ≤ width) (hwidth : 2 * width ≤ maxLanes)
    (policy : FlushPolicy) (q : WorkQueue κ τ) : (q.drain width policy).queue = .empty := by
  have hnil := q.run_undrained_pending hpos hwidth policy
  exact congrArg WorkQueue.mk hnil

theorem WorkQueue.drain_ofKey {width : Nat} (hpos : 1 ≤ width) (hwidth : 2 * width ≤ maxLanes)
    (policy : FlushPolicy) (q : WorkQueue κ τ) (key : κ) :
    ofKey key ((q.drain width policy).batches.flatMap Batch.items) = ofKey key q.items := by
  have hrun := Drain.run_ofKey width hwidth policy q.size q.undrained key
  have hnil := q.run_undrained_pending hpos hwidth policy
  rw [hnil, ofKey_nil, List.append_nil] at hrun
  rw [q.drain_batches hwidth]
  exact hrun

theorem WorkQueue.drain_items_perm {width : Nat} (hpos : 1 ≤ width) (hwidth : 2 * width ≤ maxLanes)
    (policy : FlushPolicy) (q : WorkQueue κ τ) :
    ((q.drain width policy).batches.flatMap Batch.items).Perm q.items :=
  perm_of_ofKey_eq (q.drain_ofKey hpos hwidth policy)

/-- Where tokens count upwards, the first batches hold with an item all smaller ones of its key. -/
theorem WorkQueue.mem_of_same_key {width : Nat} (hpos : 1 ≤ width) (hwidth : 2 * width ≤ maxLanes)
    (policy : FlushPolicy) {q : WorkQueue κ Nat} (hqueued : q.items.Pairwise (·.2 < ·.2))
    {bs : List (Batch κ Nat)} (hbs : bs <+: (q.drain width policy).batches) {x y : κ × Nat}
    (hx : x ∈ q.items) (hy : y ∈ bs.flatMap Batch.items) (hkey : x.1 = y.1) (hlt : x.2 < y.2) :
    x ∈ bs.flatMap Batch.items := by
  have hprefix := ofKey_prefix_of y.1 (hbs.flatMap Batch.items)
  rw [q.drain_ofKey hpos hwidth policy] at hprefix
  obtain ⟨later, hsplit⟩ := hprefix
  have hsorted : (ofKey y.1 (bs.flatMap Batch.items) ++ later).Pairwise (·.2 < ·.2) := by
    rw [hsplit]
    exact hqueued.filter _
  have hxline : x ∈ ofKey y.1 (bs.flatMap Batch.items) ++ later := by
    rw [hsplit]
    exact mem_ofKey.mpr ⟨hx, hkey⟩
  rcases List.mem_append.mp hxline with hfirst | hlater
  · exact (mem_ofKey.mp hfirst).1
  · have hbefore := (List.pairwise_append.mp hsorted).2.2 y (mem_ofKey.mpr ⟨hy, rfl⟩) x hlater
    exact absurd hlt (Nat.lt_asymm hbefore)

/-- A drain ends after at most one batch for each item and leaves the queue empty. Its batches
hold exactly the queued items, each token beside its key; the items of one key keep their arrival
order, and every batch has the shape of its kind. -/
theorem drain_delivers_each_item_once {width : Nat} (hpos : 1 ≤ width) (hmax : width ≤ 16)
    (policy : FlushPolicy) (q : WorkQueue κ τ) :
    (∀ fuel, q.size ≤ fuel →
      Drain.run width policy fuel q.undrained = Drain.run width policy q.size q.undrained) ∧
    (q.drain width policy).queue = .empty ∧
    ((q.drain width policy).batches.flatMap Batch.items).Perm q.items ∧
    (∀ key, ofKey key ((q.drain width policy).batches.flatMap Batch.items) = ofKey key q.items) ∧
    ∀ b ∈ (q.drain width policy).batches, b.Fits width := by
  have hwidth := window_le_maxLanes hmax
  have hkeys := q.drain_ofKey hpos hwidth policy
  refine ⟨?_, q.drain_queue hpos hwidth policy, perm_of_ofKey_eq hkeys, hkeys, ?_⟩
  · intro fuel hfuel
    exact q.run_of_size_le hpos hwidth policy hfuel
  · intro b hb
    rw [q.drain_batches hwidth] at hb
    exact Drain.upcoming_fits hpos policy hb

/-- Three items of one key among five, in batches of at most two and with every short batch
followed by a forced one. -/
theorem drain_delivers_five_items :
    let q : WorkQueue Nat Nat := ⟨[(7, 0), (7, 1), (5, 2), (7, 3), (6, 4)]⟩
    let d := q.drain 2 ⟨0, 3⟩
    1 ≤ 2 ∧ 2 ≤ 16 ∧ d.queue = .empty ∧ (d.batches.flatMap Batch.items).Perm q.items ∧
      (∀ key, ofKey key (d.batches.flatMap Batch.items) = ofKey key q.items) ∧
      ∀ b ∈ d.batches, b.Fits 2 :=
  ⟨by decide, by decide, (drain_delivers_each_item_once (by decide) (by decide) _ _).2⟩

end ConflictBatching
