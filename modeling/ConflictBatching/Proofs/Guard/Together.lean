import ConflictBatching.Guard.Apply
import ConflictBatching.Proofs.Store.Writes

/-! # Operations that run together

A round reads all records before it writes any. Its operations touch pairwise distinct indices, so
each still reads what one-at-a-time application would let it read, and the scatter writes the
blocks of the operations in their order.
-/
namespace ConflictBatching
open GuardedUpdate
variable {ω ρ : Type} {arity : Nat} [GuardedUpdate ω ρ arity] [Inhabited ρ]

/-- The records at the given indices; the default record where the index lies outside. -/
def readAll {n : Nat} (store : Array ρ) (indices : Vector Nat n) : Vector ρ n :=
  indices.map fun i => store[i]?.getD default

def updated (store : Array ρ) (op : ω) : Vector ρ arity := update op (readAll store (refs op))

def applyRecords (store : Array ρ) (op : ω) : Array ρ :=
  writeAll store ((refs op).toList.zip (updated store op).toList)

def updatedAll (store : Array ρ) (ops : List ω) : List ρ :=
  ops.flatMap fun op => (updated store op).toList

omit [Inhabited ρ] in
@[simp] theorem interleave_cons (op : ω) (ops : List ω) :
    interleave (op :: ops) = (refs op).toList ++ interleave ops := List.flatMap_cons

omit [Inhabited ρ] in
theorem interleave_length (ops : List ω) : (interleave ops).length = ops.length * arity := by
  induction ops with
  | nil => simp [interleave]
  | cons op ops ih =>
    rw [interleave_cons, List.length_append, ih, Vector.length_toList, List.length_cons,
      Nat.succ_mul, Nat.add_comm]

theorem updatedAll_cons (store : Array ρ) (op : ω) (ops : List ω) :
    updatedAll store (op :: ops) = (updated store op).toList ++ updatedAll store ops :=
  List.flatMap_cons

theorem readAll_congr {n : Nat} {s t : Array ρ} {indices : Vector Nat n}
    (h : ∀ i ∈ indices.toList, s[i]? = t[i]?) : readAll s indices = readAll t indices := by
  apply Vector.map_congr_left
  intro i hi
  rw [h i (Vector.mem_toList_iff.mpr hi)]

omit [Inhabited ρ] in
theorem zip_fst_subset {α : Type} (xs : List α) (ys : List ρ) : (xs.zip ys).map Prod.fst ⊆ xs := by
  intro x hx
  obtain ⟨⟨a, b⟩, hab, rfl⟩ := List.mem_map.mp hx
  exact (List.of_mem_zip hab).1

/-- Writing what all operations make of one store is applying them one at a time, as long as no
two of their indices are equal and the store still holds the records that were read. -/
theorem writeAll_updatedAll {read : Array ρ} (ops : List ω) (hnodup : (interleave ops).Nodup)
    (store : Array ρ) (hread : ∀ i ∈ interleave ops, store[i]? = read[i]?) :
    writeAll store ((interleave ops).zip (updatedAll read ops)) =
      ops.foldl applyRecords store := by
  induction ops generalizing store with
  | nil => rfl
  | cons op ops ih =>
    rw [interleave_cons] at hnodup hread ⊢
    obtain ⟨-, hrest, hdisjoint⟩ := List.nodup_append.mp hnodup
    have hop : updated read op = updated store op := by
      unfold updated
      rw [readAll_congr fun i hi => (hread i (List.mem_append_left _ hi)).symm]
    have hkept : ∀ i ∈ interleave ops, (applyRecords store op)[i]? = read[i]? := by
      intro i hi
      have hout : i ∉ ((refs op).toList.zip (updated store op).toList).map Prod.fst := by
        intro hmem
        exact hdisjoint i (zip_fst_subset _ _ hmem) i hi rfl
      rw [applyRecords, getElem?_writeAll_of_notMem hout]
      exact hread i (List.mem_append_right _ hi)
    rw [updatedAll_cons, List.zip_append (by simp), writeAll_append, hop, List.foldl_cons]
    exact ih hrest (applyRecords store op) hkept

omit [Inhabited ρ] in
/-- Setting a slot record by record changes the lanes of the slot and no other. -/
theorem getElem?_setSlot {n : Nat} (records : Vector ρ n) (slot : Vector ρ arity) (start i : Nat)
    (rs : List (Fin arity)) :
    (rs.foldl (fun records (r : Fin arity) =>
      records.setIfInBounds (start + r.val) (slot.get r)) records)[i]? =
      if (∃ r ∈ rs, start + r.val = i) ∧ i < n then slot[i - start]? else records[i]? := by
  induction rs generalizing records with
  | nil => simp
  | cons r rs ih =>
    rw [List.foldl_cons, ih]
    by_cases hrs : ∃ r ∈ rs, start + r.val = i
    · obtain ⟨r', hr', hi⟩ := hrs
      by_cases hin : i < n
      · rw [if_pos ⟨⟨r', hr', hi⟩, hin⟩, if_pos ⟨⟨r', List.mem_cons_of_mem _ hr', hi⟩, hin⟩]
      · simp [hin]
    · by_cases hr : start + r.val = i
      · subst hr
        by_cases hin : start + r.val < n
        · simp [hin, Vector.get]
        · simp [hin]
      · simp [hrs, hr]

def slotAt {n : Nat} (records : Vector ρ n) (arity start : Nat) : Vector ρ arity :=
  Vector.ofFn fun r => records[start + r]?.getD default

theorem getElem?_updateSlot {n : Nat} (records : Vector ρ n) (start : Nat) (op : ω) (i : Nat) :
    (updateSlot records start op)[i]? = if start ≤ i ∧ i < start + arity ∧ i < n then
      (update op (slotAt records arity start))[i - start]? else records[i]? := by
  have hslot : (∃ r ∈ List.finRange arity, start + r.val = i) ↔
      start ≤ i ∧ i < start + arity := by
    constructor
    · rintro ⟨r, -, rfl⟩
      exact ⟨Nat.le_add_right .., Nat.add_lt_add_left r.isLt start⟩
    · rintro ⟨hle, hlt⟩
      exact ⟨⟨i - start, by omega⟩, List.mem_finRange _, Nat.add_sub_of_le hle⟩
  have hset := getElem?_setSlot records (update op (slotAt records arity start)) start i
    (List.finRange arity)
  simp only [hslot, and_assoc] at hset
  exact hset

/-- The slots of all operations hold what the operations make of the records that were read. -/
theorem getElem?_updateSlots (read : Array ρ) (ops : List ω) {n : Nat} (records : Vector ρ n)
    (start : Nat) (hfit : start + (interleave ops).length ≤ n)
    (hread : ∀ l < (interleave ops).length,
      records[start + l]? = (interleave ops)[l]?.map fun i => read[i]?.getD default) :
    (∀ i < start, (updateSlots records start ops)[i]? = records[i]?) ∧
      ∀ l < (interleave ops).length,
        (updateSlots records start ops)[start + l]? = (updatedAll read ops)[l]? := by
  induction ops generalizing records start with
  | nil => exact ⟨fun _ _ => rfl, fun _ hl => absurd hl (Nat.not_lt_zero _)⟩
  | cons op ops ih =>
    have hlen : (interleave (op :: ops)).length = arity + (interleave ops).length := by
      rw [interleave_cons, List.length_append, Vector.length_toList]
    have hslot : slotAt records arity start = readAll read (refs op) := by
      apply Vector.ext
      intro r hr
      have hrec := hread r (by omega)
      rw [interleave_cons, List.getElem?_append_left (by simpa using hr)] at hrec
      simp [slotAt, readAll, hrec, hr]
    have hlater : ∀ l < (interleave ops).length,
        (updateSlot records start op)[start + arity + l]? =
          (interleave ops)[l]?.map fun i => read[i]?.getD default := by
      intro l hl
      have hrec := hread (arity + l) (by omega)
      rw [interleave_cons, List.getElem?_append_right (by simp), Vector.length_toList,
        Nat.add_sub_cancel_left, ← Nat.add_assoc] at hrec
      rw [getElem?_updateSlot, if_neg (by omega), hrec]
    obtain ⟨hbefore, hafter⟩ := ih (updateSlot records start op) (start + arity) (by omega) hlater
    constructor
    · intro i hi
      rw [updateSlots, hbefore i (by omega), getElem?_updateSlot, if_neg (by omega)]
    · intro l hl
      rw [updateSlots, updatedAll_cons]
      by_cases hslotLane : l < arity
      · rw [hbefore _ (by omega), getElem?_updateSlot, if_pos (by omega), hslot,
          Nat.add_sub_cancel_left, List.getElem?_append_left (by simpa using hslotLane),
          Vector.getElem?_toList]
        rfl
      · obtain ⟨k, rfl⟩ := Nat.exists_eq_add_of_le (Nat.le_of_not_lt hslotLane)
        rw [← Nat.add_assoc, hafter k (by omega), List.getElem?_append_right (by simp),
          Vector.length_toList, Nat.add_sub_cancel_left]

omit [Inhabited ρ] in
theorem zip_congr_right {α : Type} {xs : List α} {ys zs : List ρ}
    (h : ∀ i < xs.length, ys[i]? = zs[i]?) : xs.zip ys = xs.zip zs := by
  apply List.ext_getElem?
  intro i
  simp only [List.zip, List.getElem?_zipWith]
  by_cases hi : i < xs.length
  · rw [h i hi]
  · rw [List.getElem?_eq_none (Nat.le_of_not_lt hi)]

omit [Inhabited ρ] in
theorem interleave_take (ops : List ω) (k : Nat) :
    interleave (ops.take k) = (interleave ops).take (k * arity) := by
  induction ops generalizing k with
  | nil => simp [interleave]
  | cons op ops ih =>
    cases k with
    | zero => simp [interleave]
    | succ k =>
      rw [List.take_succ_cons, interleave_cons, interleave_cons, ih, Nat.succ_mul, Nat.add_comm,
        List.take_append]
      simp [List.take_of_length_le]

/-- The first `k` lanes of a round, inert where they lie outside the store. -/
def roundLanes (store : Array ρ) (lanes : List Nat) (k : Nat) : MaskedIndices maxLanes :=
  ((MaskedIndices.inert.setFrom 0 lanes).truncate k).fixup store.size

omit [Inhabited ρ] in
theorem get?_roundLanes (store : Array ρ) {lanes : List Nat} (hlen : lanes.length ≤ maxLanes)
    (k lane : Nat) :
    (roundLanes store lanes k).get? lane = (lanes.take k)[lane]?.filter (· < store.size) := by
  rw [roundLanes, MaskedIndices.get?_fixup, MaskedIndices.get?_truncate, MaskedIndices.get?_setFrom,
    List.getElem?_take]
  by_cases hk : lane < k
  · rw [if_pos hk, if_pos hk]
    by_cases hlane : lane < lanes.length
    · have hmax : lane < maxLanes := hlane.trans_le hlen
      rw [if_pos ⟨Nat.zero_le _, hlane, hmax, hmax⟩, Nat.sub_zero]
    · have hout : ¬(0 ≤ lane ∧ lane - 0 < lanes.length ∧ lane < maxLanes ∧ lane < maxLanes) :=
        fun h => hlane h.2.1
      rw [if_neg hout, MaskedIndices.get?_inert, List.getElem?_eq_none (Nat.le_of_not_lt hlane)]
  · rw [if_neg hk, if_neg hk]

/-- Operations whose indices are pairwise distinct run together as they run one at a time. -/
theorem runTogether_eq_foldl (store : Array ρ) (front : List ω) (safe : Nat)
    (hlen : (interleave front).length ≤ maxLanes)
    (hnodup : (interleave (front.take safe)).Nodup) :
    runTogether store (interleave front) (front.take safe) =
      (front.take safe).foldl applyRecords store := by
  generalize hops : front.take safe = ops at hnodup
  have hlanes : (interleave front).take (ops.length * arity) = interleave ops := by
    rw [← interleave_take, ← hops, List.length_take, ← List.take_eq_take_min]
  have hopsLen : (interleave ops).length ≤ maxLanes := by
    rw [← hlanes, List.length_take]
    omega
  have hget := get?_roundLanes store hlen (ops.length * arity)
  rw [hlanes] at hget
  change scatter store (roundLanes store (interleave front) (ops.length * arity)) (updateSlots
    (gather store (roundLanes store (interleave front) (ops.length * arity))) 0 ops) = _
  generalize roundLanes store (interleave front) (ops.length * arity) = m at hget
  have hgather : ∀ l < (interleave ops).length, (gather store m)[0 + l]? =
      (interleave ops)[l]?.map fun i => store[i]?.getD default := by
    intro l hl
    have hmax : l < maxLanes := hl.trans_le hopsLen
    rw [Nat.zero_add, gather, Vector.getElem?_ofFn, dif_pos hmax, hget,
      List.getElem?_eq_getElem hl]
    by_cases hin : (interleave ops)[l] < store.size <;> simp [Option.filter, hin]
  obtain ⟨-, hslots⟩ := getElem?_updateSlots store ops (gather store m) 0 (by omega) hgather
  have hzip : (interleave ops).zip (updateSlots (gather store m) 0 ops).toList =
      (interleave ops).zip (updatedAll store ops) := by
    apply zip_congr_right
    intro l hl
    rw [← hslots l hl, Nat.zero_add, Vector.getElem?_toList]
  rw [scatter_of_indices hopsLen hget, hzip]
  exact writeAll_updatedAll ops hnodup store fun _ _ => rfl

end ConflictBatching
