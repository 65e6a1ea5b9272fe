import ConflictBatching.Guard.WordOp
import ConflictBatching.Proofs.Guard.Greedy

/-! # As few rounds as can be

A run is followed round by round. No way to cut its operations into segments has fewer segments than
the run has rounds: each round passes the end of the first segment, and what is then left of the cut
still covers what is left of the operations.
-/
namespace ConflictBatching
open GuardedUpdate
variable {ω ρ : Type} {arity : Nat} [GuardedUpdate ω ρ arity] [Inhabited ρ]

def Cuts (width : Nat) (ops : List ω) (segments : List (List ω)) : Prop :=
  segments.flatten = ops ∧ ∀ s ∈ segments, Segment width s

/-- Rounds until no operation is left, each beside the operations that were left before it. -/
inductive RoundRun (width : Nat) : Array ρ → List ω → List (Round × List ω) → Array ρ → Prop
  | done (store : Array ρ) : RoundRun width store [] [] store
  | round {store next final : Array ρ} {ops : List ω} {round : Round}
      {later : List (Round × List ω)} (hops : ops ≠ [])
      (hround : runRound width store ops = some (round, next))
      (hlater : RoundRun width next (ops.drop round.consumed) later final) :
      RoundRun width store ops ((round, ops) :: later) final

section Run
variable (harity : 1 ≤ arity) {width : Nat} (hwidth : 1 ≤ width) (hfit : width * arity ≤ maxLanes)
include harity hwidth hfit

theorem runRound_eq_some {store next : Array ρ} {ops : List ω} (hops : ops ≠ []) {round : Round}
    (h : runRound width store ops = some (round, next)) :
    round = frontRound width ops ∧ (ops.take round.consumed).foldlM runOp store = some next := by
  rw [runRound_eq harity hwidth hfit store hops] at h
  obtain ⟨reached, hrun, heq⟩ := Option.map_eq_some_iff.mp h
  obtain ⟨rfl, rfl⟩ := Prod.mk.inj heq
  exact ⟨rfl, hrun⟩

/-- When no operation fails by itself, the rounds run to the end. -/
theorem exists_roundRun {store final : Array ρ} {ops : List ω}
    (h : ops.foldlM runOp store = some final) : ∃ rounds, RoundRun width store ops rounds final := by
  induction hn : ops.length using Nat.strong_induction_on generalizing store ops with
  | h n ih =>
    by_cases hops : ops = []
    · subst hops
      cases h
      exact ⟨[], .done final⟩
    · have hpos := frontRound_consumed_pos width ops
      have hlength := List.length_pos_of_ne_nil hops
      have hround := runRound_eq harity hwidth hfit store hops
      rw [← List.take_append_drop (frontRound width ops).consumed ops, List.foldlM_append] at h
      obtain ⟨next, hfront, hrest⟩ := Option.bind_eq_some_iff.mp h
      rw [hfront, Option.map_some] at hround
      have hshorter : (ops.drop (frontRound width ops).consumed).length < n := by
        rw [List.length_drop]
        omega
      obtain ⟨later, hlater⟩ := ih _ hshorter hrest rfl
      exact ⟨_, .round hops hround hlater⟩

theorem RoundRun.takesGreedily {store final : Array ρ} {ops : List ω}
    {rounds : List (Round × List ω)} (h : RoundRun width store ops rounds final) :
    ∀ r ∈ rounds, TakesGreedily width r.2 r.1.consumed := by
  induction h with
  | done => simp
  | round hops hround _ ih =>
    obtain ⟨rfl, -⟩ := runRound_eq_some harity hwidth hfit hops hround
    exact List.forall_mem_cons.mpr ⟨frontRound_takesGreedily harity hwidth hfit hops, ih⟩

/-- What the rounds take are segments that make up the operations. -/
theorem RoundRun.cuts {store final : Array ρ} {ops : List ω} {rounds : List (Round × List ω)}
    (h : RoundRun width store ops rounds final) :
    Cuts width ops (rounds.map fun r => r.2.take r.1.consumed) := by
  induction h with
  | done => exact ⟨rfl, by simp⟩
  | round hops hround _ ih =>
    obtain ⟨rfl, -⟩ := runRound_eq_some harity hwidth hfit hops hround
    obtain ⟨hflatten, hsegments⟩ := ih
    refine ⟨?_, List.forall_mem_cons.mpr ⟨segment_frontRound harity hwidth hfit hops, hsegments⟩⟩
    rw [List.map_cons, List.flatten_cons, hflatten, List.take_append_drop]

/-- Segments that reach at least as far back as the operations are at least as many as the rounds:
the first round passes the end of the first segment. -/
theorem RoundRun.length_le {segments : List (List ω)} (hsegments : ∀ s ∈ segments, Segment width s)
    {store final : Array ρ} {ops : List ω} {rounds : List (Round × List ω)}
    (h : RoundRun width store ops rounds final) (hsuffix : ops <:+ segments.flatten) :
    rounds.length ≤ segments.length := by
  induction segments generalizing store ops rounds with
  | nil =>
    cases h with
    | done => exact Nat.le_refl _
    | round hops => exact absurd (List.suffix_nil.mp hsuffix) hops
  | cons s rest ih =>
    obtain ⟨hs, hrest⟩ := List.forall_mem_cons.mp hsegments
    cases h with
    | done => exact Nat.zero_le _
    | @round _ next _ _ round later hops hround hlater =>
      obtain ⟨rfl, -⟩ := runRound_eq_some harity hwidth hfit hops hround
      rw [List.flatten_cons] at hsuffix
      exact Nat.succ_le_succ
        (ih hrest hlater (drop_consumed_suffix harity hwidth hfit hs hsuffix))

/-- The counters of a run, by its rounds and by its operations. -/
theorem RoundRun.record_eq {store final : Array ρ} {ops : List ω}
    {rounds : List (Round × List ω)} (h : RoundRun width store ops rounds final) (s : GuardStats) :
    rounds.foldl (fun s r => s.record r.1) s =
      { rounds := s.rounds + rounds.length
        parallelOps := s.parallelOps + ops.countP (¬SelfRepeating ·)
        scalarOps := s.scalarOps + ops.countP (SelfRepeating ·)
        truncatedRounds := s.truncatedRounds + rounds.countP fun r =>
          r.1.isParallel && decide (r.1.consumed < min width r.2.length) } := by
  induction h generalizing s with
  | done => simp
  | @round _ _ _ ops _ _ hops hround _ ih =>
    obtain ⟨rfl, -⟩ := runRound_eq_some harity hwidth hfit hops hround
    have hcount : ∀ accept : ω → Bool, (ops.take (frontRound width ops).consumed).countP accept +
        (ops.drop (frontRound width ops).consumed).countP accept = ops.countP accept := by
      intro accept
      rw [← List.countP_append, List.take_append_drop]
    have hshort : ∀ short : Bool, short.toNat = if short = true then 1 else 0 := by decide
    rw [List.foldl_cons, ih, record_frontRound harity hwidth hfit s hops, List.countP_cons,
      List.length_cons, ← hcount (¬SelfRepeating ·), ← hcount (SelfRepeating ·), hshort]
    simp only [GuardStats.mk.injEq]
    refine ⟨?_, ?_, ?_, ?_⟩ <;> omega

theorem RoundRun.applyRounds_eq {store final : Array ρ} {ops : List ω}
    {rounds : List (Round × List ω)} (h : RoundRun width store ops rounds final) {fuel : Nat}
    (stats : GuardStats) (hfuel : ops.length ≤ fuel) :
    applyRounds width fuel stats store ops =
      some (rounds.foldl (fun s r => s.record r.1) stats, final) := by
  induction h generalizing fuel stats with
  | done =>
    cases fuel with
    | zero => rfl
    | succ fuel => simp [applyRounds, runRound_nil]
  | @round _ _ _ ops round _ hops hround _ ih =>
    have hpos := List.length_pos_of_ne_nil hops
    obtain ⟨fuel, rfl⟩ := Nat.exists_eq_add_of_le' (hpos.trans_le hfuel)
    obtain ⟨hfront, -⟩ := runRound_eq_some harity hwidth hfit hops hround
    have hidle := frontRound_ne_idle width ops
    have hconsumed := frontRound_consumed_pos width ops
    rw [← hfront] at hidle hconsumed
    have hdrop : (ops.drop round.consumed).length ≤ fuel := by
      rw [List.length_drop]
      omega
    rw [applyRounds, hround]
    cases round with
    | idle => exact absurd rfl hidle
    | scalar => exact ih _ hdrop
    | parallel n truncated => exact ih _ hdrop

/-- A guarded application that runs counts the operations that ran by themselves and the others. -/
theorem applyGuarded_counts {store final : Array ρ} {ops : List ω} {stats : GuardStats}
    (h : applyGuarded width store ops = some (stats, final)) :
    stats.parallelOps = ops.countP (¬SelfRepeating ·) ∧
      stats.scalarOps = ops.countP (SelfRepeating ·) := by
  have hrun := applyGuarded_eq_foldlM harity hwidth hfit store ops
  rw [h, Option.map_some] at hrun
  obtain ⟨rounds, hrounds⟩ := exists_roundRun harity hwidth hfit hrun.symm
  have hstats := hrounds.applyRounds_eq harity hwidth hfit {} (Nat.le_refl ops.length)
  rw [hrounds.record_eq harity hwidth hfit] at hstats
  cases h.symm.trans hstats
  exact ⟨Nat.zero_add _, Nat.zero_add _⟩

end Run

/-- Where no operation fails by itself, every round takes as many operations as it can, there are as
many rounds as the shortest cut has segments, and the counters tell the operations that ran by
themselves from the others and count the rounds that stayed short. -/
theorem guarded_rounds_greedy_and_fewest (harity : 1 ≤ arity) {width : Nat} (hwidth : 1 ≤ width)
    (hfit : width * arity ≤ maxLanes) {store final : Array ρ} {ops : List ω}
    (hrun : ops.foldlM runOp store = some final) :
    (ops ≠ [] → ∃ round next, runRound width store ops = some (round, next) ∧
      TakesGreedily width ops round.consumed) ∧
    ∃ rounds stats, RoundRun width store ops rounds final ∧
      applyGuarded width store ops = some (stats, final) ∧
      (∀ r ∈ rounds, TakesGreedily width r.2 r.1.consumed) ∧
      stats.rounds = rounds.length ∧
      IsLeast {n | ∃ segments, Cuts width ops segments ∧ segments.length = n} stats.rounds ∧
      stats.scalarOps = ops.countP (SelfRepeating ·) ∧
      stats.parallelOps = ops.countP (¬SelfRepeating ·) ∧
      stats.truncatedRounds = rounds.countP fun r =>
        r.1.isParallel && decide (r.1.consumed < min width r.2.length) := by
  obtain ⟨rounds, hrounds⟩ := exists_roundRun harity hwidth hfit hrun
  have hstats := hrounds.applyRounds_eq harity hwidth hfit {} (Nat.le_refl ops.length)
  rw [hrounds.record_eq harity hwidth hfit] at hstats
  have hgreedy := hrounds.takesGreedily harity hwidth hfit
  have hcuts := hrounds.cuts harity hwidth hfit
  refine ⟨?_, rounds, _, hrounds, hstats, hgreedy, Nat.zero_add _, ⟨?_, ?_⟩, Nat.zero_add _,
    Nat.zero_add _, Nat.zero_add _⟩
  · intro hops
    cases hrounds with
    | done => exact absurd rfl hops
    | round _ hround _ => exact ⟨_, _, hround, (List.forall_mem_cons.mp hgreedy).1⟩
  · refine ⟨_, hcuts, ?_⟩
    rw [List.length_map, Nat.zero_add]
  · rintro n ⟨segments, ⟨rfl, hsegments⟩, rfl⟩
    rw [Nat.zero_add]
    exact hrounds.length_le harity hwidth hfit hsegments (List.suffix_refl _)

/-- Four exchanges over four words. The third meets the first, the last repeats its own index, and one
index of the second lies outside. -/
theorem guarded_rounds_of_four_exchanges :
    let store : Array UInt64 := #[5, 6, 7, 8]
    let ops : List Exchange := [⟨0, 1⟩, ⟨2, 9⟩, ⟨1, 0⟩, ⟨3, 3⟩]
    1 ≤ 2 ∧ 1 ≤ 3 ∧ 3 * 2 ≤ maxLanes ∧ ops.foldlM runOp store = some #[5, 6, 0, 8] ∧
      ∃ rounds stats, RoundRun 3 store ops rounds #[5, 6, 0, 8] ∧
        applyGuarded 3 store ops = some (stats, #[5, 6, 0, 8]) ∧
        IsLeast {n | ∃ segments, Cuts 3 ops segments ∧ segments.length = n} stats.rounds ∧
        stats.scalarOps = 1 ∧ stats.parallelOps = 3 := by
  intro store ops
  have hrun : ops.foldlM runOp store = some #[5, 6, 0, 8] := by decide +kernel
  obtain ⟨-, rounds, stats, hrounds, hstats, -, -, hleast, hscalar, hparallel, -⟩ :=
    guarded_rounds_greedy_and_fewest (by decide) (show 1 ≤ 3 by decide) (by decide) hrun
  exact ⟨by decide, by decide, by decide, hrun, rounds, stats, hrounds, hstats, hleast, hscalar,
    hparallel⟩

end ConflictBatching
