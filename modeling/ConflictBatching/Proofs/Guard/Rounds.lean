import ConflictBatching.Proofs.Guard.Together
import ConflictBatching.Proofs.Lane.Repeats

/-! # Rounds against one operation at a time

Every round runs a front part of the operations as they would run one at a time: an operation with
distinct indices on its records, and one that repeats an index directly on the store. A round
takes at least one operation, so the rounds together run them all.
-/
namespace ConflictBatching
open GuardedUpdate
variable {ω ρ : Type} {arity : Nat} [GuardedUpdate ω ρ arity] [Inhabited ρ]

/-- One operation of a guarded application, by itself. -/
def runOp (store : Array ρ) (op : ω) : Option (Array ρ) :=
  if (refs op).toList.Nodup then some (applyRecords store op) else runDirect op store

omit [Inhabited ρ] in
theorem safeOps_le (ops : List ω) : safeOps ops ≤ ops.length := by
  unfold safeOps
  split
  · exact Nat.le_refl _
  · exact Nat.min_le_right ..

omit [Inhabited ρ] in
theorem interleave_take_safeOps_nodup {ops : List ω} (hlen : (interleave ops).length ≤ maxLanes) :
    (interleave (ops.take (safeOps ops))).Nodup := by
  rw [safeOps]
  split
  · next hnone =>
    rw [List.take_length]
    exact nodup_of_firstRepeat?_none hlen hnone
  · next lane hsome =>
    have hle : min (lane / arity) ops.length * arity ≤ lane :=
      (Nat.mul_le_mul_right arity (Nat.min_le_left ..)).trans (Nat.div_mul_le_self lane arity)
    rw [interleave_take]
    exact (firstRepeat?_eq_some hsome).1.sublist (List.take_sublist_take_left hle)

omit [Inhabited ρ] in
/-- A round that is cut before its first operation was cut inside that operation. -/
theorem refs_not_nodup_of_safeOps_eq_zero (harity : 1 ≤ arity) {op : ω} {ops : List ω}
    (h : safeOps (op :: ops) = 0) : ¬(refs op).toList.Nodup := by
  rw [safeOps] at h
  split at h
  · simp at h
  · next lane hsome =>
    have hlane : lane < arity := by
      rcases Nat.div_eq_zero_iff.mp (show lane / arity = 0 by simpa using h) with hzero | hlt
      · omega
      · exact hlt
    have hrefs : (interleave (op :: ops)).take arity = (refs op).toList := by
      rw [interleave_cons, List.take_left' Vector.length_toList]
    rw [← hrefs, nodup_take_iff]
    intro hno
    exact hno lane hlane (firstRepeat?_eq_some hsome).2

theorem foldlM_runOp_of_nodup {ops : List ω} (hnodup : (interleave ops).Nodup) (store : Array ρ) :
    ops.foldlM runOp store = some (ops.foldl applyRecords store) := by
  induction ops generalizing store with
  | nil => rfl
  | cons op ops ih =>
    rw [interleave_cons] at hnodup
    obtain ⟨hop, hrest, -⟩ := List.nodup_append.mp hnodup
    rw [List.foldlM_cons, runOp, if_pos hop, List.foldl_cons]
    exact ih hrest (applyRecords store op)

/-- The round that pending operations make. It does not depend on the store. -/
def frontRound (width : Nat) (ops : List ω) : Round :=
  let front := ops.take width
  if safeOps front = 0 then .scalar else .parallel (safeOps front) (safeOps front < front.length)

omit [Inhabited ρ] in
theorem frontRound_consumed_pos (width : Nat) (ops : List ω) :
    1 ≤ (frontRound width ops).consumed := by
  simp only [frontRound]
  split
  · exact Nat.le_refl 1
  · next hsafe => exact Nat.one_le_iff_ne_zero.mpr hsafe

omit [Inhabited ρ] in
theorem frontRound_ne_idle (width : Nat) (ops : List ω) : frontRound width ops ≠ .idle := by
  intro hidle
  have hpos := frontRound_consumed_pos width ops
  rw [hidle] at hpos
  exact Nat.not_succ_le_zero 0 hpos

omit [Inhabited ρ] in
theorem interleave_front_length_le {width : Nat} (hfit : width * arity ≤ maxLanes) (ops : List ω) :
    (interleave (ops.take width)).length ≤ maxLanes := by
  rw [interleave_length, List.length_take]
  exact (Nat.mul_le_mul_right arity (Nat.min_le_left ..)).trans hfit

/-- A round over pending operations runs the operations it consumes, as they run by themselves. -/
theorem runRound_eq (harity : 1 ≤ arity) {width : Nat} (hwidth : 1 ≤ width)
    (hfit : width * arity ≤ maxLanes) (store : Array ρ) {ops : List ω} (hops : ops ≠ []) :
    runRound width store ops = ((ops.take (frontRound width ops).consumed).foldlM runOp store).map
      (frontRound width ops, ·) := by
  cases ops with
  | nil => exact absurd rfl hops
  | cons first rest =>
    have hlen := interleave_front_length_le hfit (first :: rest)
    have hfront : (first :: rest).take width = first :: rest.take (width - 1) := by
      rw [← List.take_succ_cons, Nat.sub_add_cancel hwidth]
    rw [hfront] at hlen
    by_cases hsafe : safeOps (first :: rest.take (width - 1)) = 0
    · have hself := refs_not_nodup_of_safeOps_eq_zero harity hsafe
      simp [runRound, frontRound, hfront, hsafe, Round.consumed, runOp, hself]
    · have hnodup := interleave_take_safeOps_nodup hlen
      have htogether := runTogether_eq_foldl store _ _ hlen hnodup
      have hle : safeOps (first :: rest.take (width - 1)) ≤ width := by
        rw [← hfront]
        exact (safeOps_le _).trans (List.length_take_le ..)
      simp only [runRound, frontRound, hfront, if_neg hsafe, Round.consumed, htogether]
      generalize safeOps (first :: rest.take (width - 1)) = safe at hle hnodup
      rw [← hfront, List.take_take, Nat.min_eq_left hle] at hnodup ⊢
      rw [foldlM_runOp_of_nodup hnodup, Option.map_some]

theorem runRound_nil (width : Nat) (store : Array ρ) :
    runRound width store ([] : List ω) = some (.idle, store) := by
  simp [runRound]

theorem applyRounds_eq_foldlM (harity : 1 ≤ arity) {width : Nat} (hwidth : 1 ≤ width)
    (hfit : width * arity ≤ maxLanes) {fuel : Nat} (stats : GuardStats) (store : Array ρ)
    {ops : List ω} (hfuel : ops.length ≤ fuel) :
    (applyRounds width fuel stats store ops).map Prod.snd = ops.foldlM runOp store := by
  induction fuel generalizing stats store ops with
  | zero =>
    rw [List.eq_nil_of_length_eq_zero (Nat.le_zero.mp hfuel)]
    rfl
  | succ fuel ih =>
    by_cases hops : ops = []
    · subst hops
      simp [applyRounds, runRound_nil]
    · have hround := runRound_eq harity hwidth hfit store hops
      have hidle := frontRound_ne_idle width ops
      have hconsumed := frontRound_consumed_pos width ops
      generalize frontRound width ops = round at hround hidle hconsumed
      have hsplit : ops.foldlM runOp store = (ops.take round.consumed).foldlM runOp store >>=
          fun store => (ops.drop round.consumed).foldlM runOp store := by
        rw [← List.foldlM_append, List.take_append_drop]
      have hdrop : (ops.drop round.consumed).length ≤ fuel := by
        rw [List.length_drop]
        omega
      rw [applyRounds, hround, hsplit]
      cases (ops.take round.consumed).foldlM runOp store with
      | none => rfl
      | some store' =>
        cases round with
        | idle => exact absurd rfl hidle
        | scalar => exact ih _ store' hdrop
        | parallel n truncated => exact ih _ store' hdrop

theorem applyGuarded_eq_foldlM (harity : 1 ≤ arity) {width : Nat} (hwidth : 1 ≤ width)
    (hfit : width * arity ≤ maxLanes) (store : Array ρ) (ops : List ω) :
    (applyGuarded width store ops).map Prod.snd = ops.foldlM runOp store :=
  applyRounds_eq_foldlM harity hwidth hfit {} store (Nat.le_refl ops.length)

omit [GuardedUpdate ω ρ arity] [Inhabited ρ] in
theorem GuardStats.record_scalarOps_le {s : GuardStats} (h : s.scalarOps ≤ s.rounds) (r : Round) :
    (s.record r).scalarOps ≤ (s.record r).rounds := by
  cases r with
  | idle => exact h
  | scalar => exact Nat.succ_le_succ h
  | parallel => exact Nat.le_succ_of_le h

/-- Only a whole round can run an operation directly. -/
theorem applyRounds_scalarOps_le {width fuel : Nat} {stats stats' : GuardStats}
    {store store' : Array ρ} {ops : List ω} (h : stats.scalarOps ≤ stats.rounds)
    (hrun : applyRounds width fuel stats store ops = some (stats', store')) :
    stats'.scalarOps ≤ stats'.rounds := by
  induction fuel generalizing stats store ops with
  | zero =>
    cases hrun
    exact h
  | succ fuel ih =>
    rw [applyRounds] at hrun
    split at hrun
    · cases hrun
    · cases hrun
      exact h
    · next round _ _ _ => exact ih (GuardStats.record_scalarOps_le h round) hrun

end ConflictBatching
