import Mathlib
import ConflictBatching.Main
import ConflictBatching.Proofs.Queue.Sweep
import ConflictBatching.Proofs.Random.Draw

/-! # Counted batches are drained batches

Where keys and tokens are counted into batches, the same items may as well be drained as a queue that
never flushes: there are as many batches, and the two lists are left as the batches took them. The
measurement of the scheduler reports this count for its random keys.

A watch may read a clock as often as it likes, but what it hands on of a computation is the result.
This holds of a watch that stands still and of the one that reads the clock of the machine.
-/
namespace ConflictBatching

namespace Stopwatch
variable {m : Type → Type} [Monad m]

def elapsed (watch : Stopwatch m) : m Duration := Prod.snd <$> watch.time fun _ => ()

/-- Timing a computation is handing on its result beside a time. -/
def Transparent (watch : Stopwatch m) : Prop :=
  ∀ {α : Type} (f : Unit → α), watch.time f = (fun d => (f (), d)) <$> watch.elapsed

theorem transparent_stopped : stopped.Transparent := fun _ => rfl

theorem transparent_wallClock : wallClock.Transparent := by
  intro α f
  simp [elapsed, wallClock, IO.lazyPure]

end Stopwatch

variable {κ τ : Type}

theorem WorkQueue.ofParts_take (keys : List κ) (tokens : List τ) :
    WorkQueue.ofParts (keys.take (min keys.length tokens.length))
      (tokens.take (min keys.length tokens.length)) = .ok ⟨keys.zip tokens⟩ := by
  rw [ofParts, if_pos (by simp), ← List.zip_eq_zip_take_min]

variable [DecidableEq κ]

/-- The queue of the items that both lists have. -/
abbrev pairedDrain (keys : List κ) (tokens : List τ) : Drained κ τ :=
  (WorkQueue.mk (keys.zip tokens)).drain standardWidth .never

theorem countBatches_eq (keys : List κ) (tokens : List τ) :
    countBatches keys tokens =
      { size := (pairedDrain keys tokens).batches.length
        keys := (pairedDrain keys tokens).batches.flatMap Batch.keys ++
          keys.drop (min keys.length tokens.length)
        tokens := (pairedDrain keys tokens).batches.flatMap Batch.tokens ++
          tokens.drop (min keys.length tokens.length) } := by
  obtain ⟨hbatches, htaken, hpending⟩ :=
    sweep_eq (show 1 ≤ standardWidth by decide) (by decide) ⟨keys.zip tokens⟩
  rw [countBatches, hbatches, htaken, hpending, List.append_nil, Scheduled.ofItems,
    List.map_flatMap, List.map_flatMap]
  rfl

/-- Batches of pairwise distinct keys are at least as many as the items of any key, and as many as
full batches would be. -/
theorem drain_never_bounds (q : WorkQueue κ τ) :
    q.size ≤ (q.drain standardWidth .never).batches.length * standardWidth ∧
    (∀ key, q.keys.count key ≤ (q.drain standardWidth .never).batches.length) ∧
    (q.drain standardWidth .never).batches.length ≤ q.size := by
  have hwidth : 2 * standardWidth ≤ maxLanes := by decide
  have hperm := q.drain_items_perm (by decide) hwidth .never
  have hcount : itemCount (q.drain standardWidth .never).batches = q.size := hperm.length_eq
  have hkeys : ((q.drain standardWidth .never).batches.flatMap Batch.keys).Perm q.keys := by
    have hmap := hperm.map Prod.fst
    rwa [List.map_flatMap] at hmap
  have hfits : ∀ b ∈ (q.drain standardWidth .never).batches,
      1 ≤ b.size ∧ b.size ≤ standardWidth ∧ b.keys.Nodup := by
    rw [q.drain_batches hwidth]
    intro b hb
    have hkind := Drain.upcoming_parallel hwidth FlushPolicy.never_minBatch rfl b hb
    have hfit := Drain.upcoming_fits (by decide) .never hb
    rwa [Batch.Fits, hkind] at hfit
  refine ⟨?_, ?_, ?_⟩
  · rw [← hcount]
    exact itemCount_le_mul fun b hb => (hfits b hb).2.1
  · intro key
    rw [← hkeys.count_eq]
    exact count_keys_le_length (fun b hb => (hfits b hb).2.2) key
  · rw [← hcount]
    exact length_le_itemCount fun b hb => (hfits b hb).1

namespace ScheduleParams

def tokens (p : ScheduleParams) : List UInt32 := (List.range p.qlen.toNat).map UInt32.ofNat

theorem length_keys (p : ScheduleParams) : p.keys.length = p.qlen.toNat :=
  length_randomKeys ..

theorem length_tokens (p : ScheduleParams) : p.tokens.length = p.qlen.toNat := by
  rw [tokens, List.length_map, List.length_range]

end ScheduleParams

theorem measureSchedule_eq {m : Type → Type} [Monad m] [LawfulMonad m] {watch : Stopwatch m}
    (hwatch : watch.Transparent) {p : ScheduleParams} (hqlen : 0 < p.qlen) (hmodulo : 0 < p.modulo) :
    measureSchedule watch p =
      (fun d => .ok (p.report (countBatches p.keys p.tokens).size d)) <$> watch.elapsed := by
  have hparams : ¬(p.qlen = 0 ∨ p.modulo = 0) := by
    rintro (h | h)
    · rw [h] at hqlen
      exact UInt32.lt_irrefl 0 hqlen
    · rw [h] at hmodulo
      exact UInt32.lt_irrefl 0 hmodulo
  have htime := hwatch fun _ => countBatches p.keys p.tokens
  rw [ScheduleParams.tokens] at htime ⊢
  simp only [measureSchedule, if_neg hparams, htime, bind_pure_comp, Functor.map_map]

/-- The plain loop and the drain that never flushes agree: on as many items as both lists have it forms
the same batches, whose number is bounded by their width and by the items of one key, and of the longer
list the rest stays. The measurement reports this number. -/
theorem counted_batches_are_drained :
    (∀ {κ τ : Type} [DecidableEq κ] (keys : List κ) (tokens : List τ),
      let n := min keys.length tokens.length
      let counted := countBatches keys tokens
      ∃ q : WorkQueue κ τ, WorkQueue.ofParts (keys.take n) (tokens.take n) = .ok q ∧
        let d := q.drain standardWidth .never
        d.stats.flushes = 0 ∧ (∀ b ∈ d.batches, b.kind = .parallel) ∧
        counted.size = d.batches.length ∧
        counted.keys = d.batches.flatMap Batch.keys ++ keys.drop n ∧
        counted.tokens = d.batches.flatMap Batch.tokens ++ tokens.drop n ∧
        (n + 7) / 8 ≤ counted.size ∧ (∀ key, (keys.take n).count key ≤ counted.size) ∧
        counted.size ≤ n) ∧
    ∀ {m : Type → Type} [Monad m] [LawfulMonad m] (watch : Stopwatch m), watch.Transparent →
      ∀ p : ScheduleParams, 0 < p.qlen → 0 < p.modulo →
        ∃ q : WorkQueue UInt32 UInt32,
          WorkQueue.ofParts (randomKeys p.qlen.toNat p.modulo p.seed) p.tokens = .ok q ∧
          let batches := (q.drain standardWidth .never).batches.length
          measureSchedule watch p = (fun d => .ok (p.report batches d)) <$> watch.elapsed ∧
          ∀ d, (p.report batches d).rows.lookup "batches" = some (.count batches) := by
  constructor
  · intro κ τ _ keys tokens n counted
    refine ⟨⟨keys.zip tokens⟩, WorkQueue.ofParts_take keys tokens, ?_⟩
    intro d
    have hwidth : 2 * standardWidth ≤ maxLanes := by decide
    obtain ⟨hfull, hkey, hsize⟩ := drain_never_bounds (WorkQueue.mk (keys.zip tokens))
    rw [WorkQueue.size, List.length_zip] at hfull hsize
    rw [WorkQueue.keys, map_fst_zip_take] at hkey
    have hcounted : counted = _ := countBatches_eq keys tokens
    rw [hcounted]
    refine ⟨?_, ?_, rfl, rfl, rfl, ?_, hkey, hsize⟩
    · exact Drain.run_flushes hwidth FlushPolicy.never_minBatch _ rfl
    · intro b hb
      rw [WorkQueue.drain_batches hwidth] at hb
      exact Drain.upcoming_parallel hwidth FlushPolicy.never_minBatch rfl b hb
    · change (n + 7) / 8 ≤ d.batches.length
      change n ≤ d.batches.length * 8 at hfull
      omega
  · intro m _ _ watch hwatch p hqlen hmodulo
    have hlen : p.keys.length = p.tokens.length := p.length_keys.trans p.length_tokens.symm
    refine ⟨⟨p.keys.zip p.tokens⟩, if_pos hlen, ?_, fun _ => rfl⟩
    rw [measureSchedule_eq hwatch hqlen hmodulo, countBatches_eq]

/-- Five random keys of two values. -/
theorem counted_batches_of_random_keys :
    let p : ScheduleParams := ⟨5, 2, 7⟩
    Stopwatch.stopped.Transparent ∧ 0 < p.qlen ∧ 0 < p.modulo ∧
      ∃ q : WorkQueue UInt32 UInt32,
        WorkQueue.ofParts (randomKeys 5 2 7) p.tokens = .ok q ∧
        let batches := (q.drain standardWidth .never).batches.length
        measureSchedule .stopped p = .ok (p.report batches ⟨0⟩) ∧
        ∀ d, (p.report batches d).rows.lookup "batches" = some (.count batches) :=
  ⟨Stopwatch.transparent_stopped, by decide, by decide,
    counted_batches_are_drained.2 .stopped Stopwatch.transparent_stopped ⟨5, 2, 7⟩ (by decide)
      (by decide)⟩

end ConflictBatching
