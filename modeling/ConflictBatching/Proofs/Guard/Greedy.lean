import Mathlib.Order.Bounds.Basic
import ConflictBatching.Proofs.Guard.Rounds

/-! # Rounds are greedy

A round takes the longest front part of the pending operations that may run together, or one
operation that repeats an index by itself. Whatever such part one puts in front of the others, the
round takes it all.
-/
namespace ConflictBatching
open GuardedUpdate
variable {ω ρ : Type} {arity : Nat} [GuardedUpdate ω ρ arity]

def SelfRepeating (op : ω) : Prop := ¬(refs op).toList.Nodup

instance : DecidablePred (SelfRepeating : ω → Prop) :=
  fun op => inferInstanceAs (Decidable ¬(refs op).toList.Nodup)

def Round.isParallel : Round → Bool
  | parallel .. => true
  | _ => false

/-- How many pending operations a greedy round takes. -/
def TakesGreedily (width : Nat) : List ω → Nat → Prop
  | [], taken => taken = 0
  | first :: rest, taken =>
    if SelfRepeating first then taken = 1
    else IsGreatest {k | k ≤ width ∧ k ≤ (first :: rest).length ∧
      (interleave ((first :: rest).take k)).Nodup} taken

/-- Operations that may run together, or one that has to run by itself. -/
def Segment (width : Nat) (ops : List ω) : Prop :=
  ops.length ≤ width ∧ (interleave ops).Nodup ∨ ∃ op, ops = [op] ∧ SelfRepeating op

theorem interleave_append (ops ops' : List ω) :
    interleave (ops ++ ops') = interleave ops ++ interleave ops' := List.flatMap_append

theorem not_selfRepeating_of_mem {ops : List ω} (hnodup : (interleave ops).Nodup) {op : ω}
    (hop : op ∈ ops) : ¬SelfRepeating op := by
  obtain ⟨before, after, rfl⟩ := List.mem_iff_append.mp hop
  rw [interleave_append, interleave_cons] at hnodup
  have hrest := (List.nodup_append.mp hnodup).2.1
  exact not_not_intro (List.nodup_append.mp hrest).1

theorem le_safeOps (harity : 1 ≤ arity) {ops : List ω} {k : Nat} (hk : k ≤ ops.length)
    (hnodup : (interleave (ops.take k)).Nodup) : k ≤ safeOps ops := by
  rw [safeOps]
  split
  · exact hk
  · next lane hsome =>
    obtain ⟨-, hrepeat⟩ := firstRepeat?_eq_some hsome
    have hlane : k * arity ≤ lane := by
      by_contra hlt
      rw [interleave_take] at hnodup
      exact (nodup_take_iff _ _).mp hnodup lane (Nat.lt_of_not_le hlt) hrepeat
    exact Nat.le_min.mpr ⟨(Nat.le_div_iff_mul_le harity).mpr hlane, hk⟩

theorem safeOps_eq_zero_iff (harity : 1 ≤ arity) {op : ω} {ops : List ω}
    (hlen : (interleave (op :: ops)).length ≤ maxLanes) :
    safeOps (op :: ops) = 0 ↔ SelfRepeating op := by
  refine ⟨refs_not_nodup_of_safeOps_eq_zero harity, ?_⟩
  intro hself
  by_contra hsafe
  have hmem : op ∈ (op :: ops).take (safeOps (op :: ops)) := by
    obtain ⟨k, hk⟩ := Nat.exists_eq_succ_of_ne_zero hsafe
    rw [hk, List.take_succ_cons]
    exact List.mem_cons_self
  exact not_selfRepeating_of_mem (interleave_take_safeOps_nodup hlen) hmem hself

section Front
variable (harity : 1 ≤ arity) {width : Nat} (hwidth : 1 ≤ width) (hfit : width * arity ≤ maxLanes)
include harity hwidth hfit

/-- The two kinds of round, told by the first operation. -/
theorem frontRound_cases (first : ω) (rest : List ω) :
    SelfRepeating first ∧ frontRound width (first :: rest) = .scalar ∨
    ¬SelfRepeating first ∧ ∃ safe, 1 ≤ safe ∧
      IsGreatest {k | k ≤ width ∧ k ≤ (first :: rest).length ∧
        (interleave ((first :: rest).take k)).Nodup} safe ∧
      frontRound width (first :: rest) =
        .parallel safe (safe < min width (first :: rest).length) := by
  have hlen := interleave_front_length_le hfit (first :: rest)
  have hfront : (first :: rest).take width = first :: rest.take (width - 1) := by
    rw [← List.take_succ_cons, Nat.sub_add_cancel hwidth]
  have hzero : safeOps ((first :: rest).take width) = 0 ↔ SelfRepeating first := by
    rw [hfront] at hlen ⊢
    exact safeOps_eq_zero_iff harity hlen
  by_cases hself : SelfRepeating first
  · exact .inl ⟨hself, if_pos (hzero.mpr hself)⟩
  · have hsafe : safeOps ((first :: rest).take width) ≠ 0 := mt hzero.mp hself
    have hle := safeOps_le ((first :: rest).take width)
    rw [List.length_take] at hle
    refine .inr ⟨hself, safeOps ((first :: rest).take width), Nat.one_le_iff_ne_zero.mpr hsafe,
      ⟨⟨?_, ?_, ?_⟩, ?_⟩, ?_⟩
    · exact hle.trans (Nat.min_le_left ..)
    · exact hle.trans (Nat.min_le_right ..)
    · have hnodup := interleave_take_safeOps_nodup hlen
      rwa [List.take_take, Nat.min_eq_left (hle.trans (Nat.min_le_left ..))] at hnodup
    · rintro k ⟨hkwidth, hklen, hknodup⟩
      apply le_safeOps harity
      · rw [List.length_take]
        exact Nat.le_min.mpr ⟨hkwidth, hklen⟩
      · rwa [List.take_take, Nat.min_eq_left hkwidth]
    · rw [frontRound, if_neg hsafe, List.length_take]

theorem frontRound_takesGreedily {ops : List ω} (hops : ops ≠ []) :
    TakesGreedily width ops (frontRound width ops).consumed := by
  cases ops with
  | nil => exact absurd rfl hops
  | cons first rest =>
    rw [TakesGreedily]
    rcases frontRound_cases harity hwidth hfit first rest with
      ⟨hself, hround⟩ | ⟨hself, safe, -, hgreatest, hround⟩
    · rw [if_pos hself, hround]
      rfl
    · rw [if_neg hself, hround]
      exact hgreatest

theorem segment_frontRound {ops : List ω} (hops : ops ≠ []) :
    Segment width (ops.take (frontRound width ops).consumed) := by
  cases ops with
  | nil => exact absurd rfl hops
  | cons first rest =>
    rcases frontRound_cases harity hwidth hfit first rest with
      ⟨hself, hround⟩ | ⟨-, safe, -, ⟨⟨hle, -, hnodup⟩, -⟩, hround⟩
    · rw [hround]
      exact .inr ⟨first, rfl, hself⟩
    · rw [hround]
      exact .inl ⟨(List.length_take_le ..).trans hle, hnodup⟩

/-- A segment in front of the pending operations is no longer than what the round takes. -/
theorem segment_length_le_consumed {s rest : List ω} (hs : Segment width s) (hne : s ≠ []) :
    s.length ≤ (frontRound width (s ++ rest)).consumed := by
  cases s with
  | nil => exact absurd rfl hne
  | cons first tail =>
    rcases hs with ⟨hlen, hnodup⟩ | ⟨op, hop, -⟩
    · have hfirst := not_selfRepeating_of_mem hnodup List.mem_cons_self
      rcases frontRound_cases harity hwidth hfit first (tail ++ rest) with
        ⟨hself, -⟩ | ⟨-, safe, -, ⟨-, hupper⟩, hround⟩
      · exact absurd hself hfirst
      · rw [List.cons_append, hround]
        apply hupper
        refine ⟨hlen, by simp, ?_⟩
        rwa [← List.cons_append, List.take_left]
    · rw [hop]
      exact frontRound_consumed_pos width _

/-- The counters after one more round, by the operations it takes. -/
theorem record_frontRound (s : GuardStats) {ops : List ω} (hops : ops ≠ []) :
    s.record (frontRound width ops) =
      { rounds := s.rounds + 1
        parallelOps := s.parallelOps +
          (ops.take (frontRound width ops).consumed).countP (¬SelfRepeating ·)
        scalarOps := s.scalarOps +
          (ops.take (frontRound width ops).consumed).countP (SelfRepeating ·)
        truncatedRounds := s.truncatedRounds + ((frontRound width ops).isParallel &&
          decide ((frontRound width ops).consumed < min width ops.length)).toNat } := by
  cases ops with
  | nil => exact absurd rfl hops
  | cons first rest =>
    rcases frontRound_cases harity hwidth hfit first rest with
      ⟨hself, hround⟩ | ⟨-, safe, -, ⟨⟨-, hle, hnodup⟩, -⟩, hround⟩
    · simp [hround, GuardStats.record, Round.consumed, Round.isParallel, hself]
    · have htaken : ∀ op ∈ (first :: rest).take safe, ¬SelfRepeating op :=
        fun op hop => not_selfRepeating_of_mem hnodup hop
      have hparallel : ((first :: rest).take safe).countP (¬SelfRepeating ·) = safe := by
        rw [List.countP_eq_length.mpr fun op hop => decide_eq_true (htaken op hop),
          List.length_take, Nat.min_eq_left hle]
      have hscalar : ((first :: rest).take safe).countP (SelfRepeating ·) = 0 :=
        List.countP_eq_zero.mpr fun op hop => by simpa using htaken op hop
      simp only [hround, GuardStats.record, Round.consumed, Round.isParallel, hparallel, hscalar,
        Bool.true_and, Nat.add_zero]

end Front

theorem Segment.of_suffix {width : Nat} {s t : List ω} (hs : Segment width s) (h : t <:+ s) :
    Segment width t := by
  rcases hs with ⟨hlen, hnodup⟩ | ⟨op, rfl, hself⟩
  · have hle := h.length_le.trans hlen
    obtain ⟨before, rfl⟩ := h
    rw [interleave_append] at hnodup
    exact .inl ⟨hle, (List.nodup_append.mp hnodup).2.1⟩
  · rcases List.suffix_cons_iff.mp h with rfl | hnil
    · exact .inr ⟨op, rfl, hself⟩
    · rw [List.suffix_nil.mp hnil]
      exact .inl ⟨Nat.zero_le _, List.nodup_nil⟩

/-- Whatever segment a cut puts in front, the round leaves nothing of it. -/
theorem drop_consumed_suffix (harity : 1 ≤ arity) {width : Nat} (hwidth : 1 ≤ width)
    (hfit : width * arity ≤ maxLanes) {s ops rest : List ω} (hs : Segment width s)
    (h : ops <:+ s ++ rest) : ops.drop (frontRound width ops).consumed <:+ rest := by
  rcases List.suffix_or_suffix_of_suffix h (List.suffix_append s rest) with hin | ⟨t, rfl⟩
  · exact (List.drop_suffix _ _).trans hin
  · obtain ⟨before, hbefore⟩ := h
    rw [← List.append_assoc] at hbefore
    have ht : t <:+ s := ⟨before, List.append_cancel_right hbefore⟩
    by_cases hne : t = []
    · subst hne
      exact List.drop_suffix _ _
    · have hle : t.length ≤ (frontRound width (t ++ rest)).consumed :=
        segment_length_le_consumed harity hwidth hfit (hs.of_suffix ht) hne
      have hdrop := List.drop_suffix_drop_left (t ++ rest) hle
      rwa [List.drop_left] at hdrop

end ConflictBatching
