import ConflictBatching.Proofs.Store.PartialMap

/-! # Edits of masked indices

However masked indices are edited, they are read as a partial map that is edited alike. What carries this
over a run is that no lane beyond the last is ever valid: then the valid lanes are where the map is
defined, and a check of the indices finds one in every lane that it visits. The map forgets the index of a
lane that becomes inert, so the index kept in the lane plays no part any more.
-/
namespace ConflictBatching
variable {n : Nat}

inductive Edit where
  | set (lane index : Nat)
  | invalidate (lane : Nat)
  | truncate (k : Nat)
  | fixup (len : Nat)
deriving DecidableEq

/-- A partial map from `n` lanes to indices. -/
abbrev LaneMap (n : Nat) := Fin n → Option Nat

namespace LaneMap

/-- Undefined everywhere, or as the options have it. -/
def start : Option (Vector (Option Nat) n) → LaneMap n
  | none => fun _ => none
  | some options => options.get

/-- A lane beyond the last is none of the map, so setting it changes nothing. -/
def edit (f : LaneMap n) : Edit → LaneMap n
  | .set lane index => fun i => if i = lane then some index else f i
  | .invalidate lane => fun i => if i = lane then none else f i
  | .truncate k => fun i => if i < k then f i else none
  | .fixup len => fun i => (f i).filter (· < len)

def run (f : LaneMap n) (edits : List Edit) : LaneMap n := edits.foldl edit f

/-- An edit leaves an index or sets it to its lane. -/
theorem edit_eq_some {f : LaneMap n} {e : Edit} {i : Fin n} {index : Nat}
    (h : f.edit e i = some index) : f i = some index ∨ e = .set i index := by
  cases e with
  | set lane index' =>
    simp only [edit] at h
    split at h
    · next hi =>
      cases h
      exact .inr (hi ▸ rfl)
    · exact .inl h
  | invalidate lane =>
    simp only [edit] at h
    split at h
    · cases h
    · exact .inl h
  | truncate k =>
    simp only [edit] at h
    split at h
    · exact .inl h
    · cases h
  | fixup len => exact .inl (Option.filter_eq_some_iff.mp h).1

theorem run_eq_some {f : LaneMap n} {edits : List Edit} {i : Fin n} {index : Nat}
    (h : f.run edits i = some index) : f i = some index ∨ .set i index ∈ edits := by
  induction edits generalizing f with
  | nil => exact .inl h
  | cons e rest ih =>
    rcases ih h with hfirst | hrest
    · rcases edit_eq_some hfirst with hbefore | rfl
      · exact .inl hbefore
      · exact .inr List.mem_cons_self
    · exact .inr (List.mem_cons_of_mem e hrest)

end LaneMap

namespace MaskedIndices

/-- All lanes inert, or each from an option. -/
def start : Option (Vector (Option Nat) n) → MaskedIndices n
  | none => inert
  | some options => ofOptions options

def edit (m : MaskedIndices n) : Edit → MaskedIndices n
  | .set lane index => m.set lane index
  | .invalidate lane => m.invalidate lane
  | .truncate k => m.truncate k
  | .fixup len => m.fixup len

def run (m : MaskedIndices n) (edits : List Edit) : MaskedIndices n := edits.foldl edit m

/-- The lanes are told by the map, and no lane beyond the last is valid. -/
structure ReadAs (m : MaskedIndices n) (f : LaneMap n) : Prop where
  get?_eq : ∀ i : Fin n, m.get? i = f i
  lt_of_valid : ∀ lane, m.valid.contains lane = true → lane < n

theorem readAs_inert : (inert : MaskedIndices n).ReadAs fun _ => none := by
  refine ⟨fun i => get?_inert i, ?_⟩
  intro lane h
  rw [inert, LaneMask.contains_empty] at h
  cases h

/-- Only the setting of a lane makes it valid. -/
theorem contains_valid_edit {m : MaskedIndices n} {e : Edit} {lane : Nat}
    (h : (m.edit e).valid.contains lane = true) : m.valid.contains lane = true ∨ lane < n := by
  cases e with
  | set lane' index =>
    simp only [edit, set] at h
    split at h
    · next hlane =>
      rw [LaneMask.contains_insert, Bool.or_eq_true, decide_eq_true_eq] at h
      rcases h with hbefore | ⟨-, rfl⟩
      · exact .inl hbefore
      · exact .inr hlane
    · exact .inl h
  | invalidate lane' =>
    simp only [edit, invalidate, LaneMask.contains_erase, Bool.and_eq_true] at h
    exact .inl h.1
  | truncate k =>
    simp only [edit, truncate, LaneMask.contains_and, Bool.and_eq_true] at h
    exact .inl h.1
  | fixup len => exact .inl ((foldl_checkLane_contains len _ m lane).mp h).1

theorem ReadAs.edit (hn : n ≤ maxLanes) {m : MaskedIndices n} {f : LaneMap n} (h : m.ReadAs f)
    (e : Edit) : (m.edit e).ReadAs (f.edit e) := by
  constructor
  · intro i
    -- A lane that no mask can hold would keep its index and stay inert.
    have hmax : i < maxLanes := i.isLt.trans_le hn
    cases e with
    | set lane index =>
      simp only [MaskedIndices.edit, LaneMap.edit, get?_set, h.get?_eq]
      by_cases hi : i = lane
      · subst hi
        simp [hmax]
      · simp [hi]
    | invalidate lane => simp only [MaskedIndices.edit, LaneMap.edit, get?_invalidate, h.get?_eq]
    | truncate k => simp only [MaskedIndices.edit, LaneMap.edit, get?_truncate, h.get?_eq]
    | fixup len => simp only [MaskedIndices.edit, LaneMap.edit, get?_fixup, h.get?_eq]
  · intro lane hvalid
    exact (contains_valid_edit hvalid).elim (h.lt_of_valid lane) id

theorem ReadAs.run (hn : n ≤ maxLanes) {m : MaskedIndices n} {f : LaneMap n} (h : m.ReadAs f)
    (edits : List Edit) : (m.run edits).ReadAs (f.run edits) := by
  induction edits generalizing m f with
  | nil => exact h
  | cons e rest ih => exact ih (h.edit hn e)

/-! ## The start -/

/-- The edits that set the given lanes from options. -/
def settings (options : Vector (Option Nat) n) (lanes : List (Fin n)) : List Edit :=
  lanes.filterMap fun lane => (options.get lane).map (.set lane)

theorem ofOptions_eq_run (options : Vector (Option Nat) n) :
    ofOptions options = inert.run (settings options (List.finRange n)) := by
  rw [ofOptions, run, settings, List.foldl_filterMap]
  congr 1
  funext m lane
  cases options.get lane <;> rfl

theorem run_settings (options : Vector (Option Nat) n) (lanes : List (Fin n)) (f : LaneMap n)
    (i : Fin n) :
    f.run (settings options lanes) i = if i ∈ lanes then (options.get i).or (f i) else f i := by
  induction lanes generalizing f with
  | nil => simp [settings, LaneMap.run]
  | cons lane rest ih =>
    cases hoption : options.get lane with
    | none =>
      have hskip : settings options (lane :: rest) = settings options rest := by
        simp [settings, hoption]
      rw [hskip, ih]
      by_cases hi : i = lane
      · simp [hi, hoption]
      · simp [hi]
    | some index =>
      have hset : settings options (lane :: rest) = .set lane index :: settings options rest := by
        simp [settings, hoption]
      rw [hset, LaneMap.run, List.foldl_cons, ← LaneMap.run, ih]
      by_cases hi : i = lane
      · simp [hi, hoption, LaneMap.edit]
      · simp [hi, LaneMap.edit, Fin.val_inj]

theorem readAs_start (hn : n ≤ maxLanes) (options : Option (Vector (Option Nat) n)) :
    (start options).ReadAs (.start options) := by
  cases options with
  | none => exact readAs_inert
  | some options =>
    have h := readAs_inert.run hn (settings options (List.finRange n))
    rw [← ofOptions_eq_run] at h
    have hmap : LaneMap.run (fun _ => none) (settings options (List.finRange n)) = options.get := by
      funext i
      rw [run_settings, if_pos (List.mem_finRange i), Option.or_none]
    rw [hmap] at h
    exact h

/-! ## What is read -/

theorem get?_beyond (m : MaskedIndices n) {lane : Nat} (h : n ≤ lane) : m.get? lane = none := by
  rw [get?, Vector.getElem?_eq_none h, ite_self]

theorem ReadAs.contains_valid_iff {m : MaskedIndices n} {f : LaneMap n} (h : m.ReadAs f)
    (lane : Nat) : m.valid.contains lane = true ↔ ∃ hi : lane < n, f ⟨lane, hi⟩ ≠ none := by
  have hread (hi : lane < n) : f ⟨lane, hi⟩ ≠ none ↔ m.valid.contains lane = true := by
    rw [← h.get?_eq ⟨lane, hi⟩, get?, Vector.getElem?_eq_getElem hi]
    cases m.valid.contains lane <;> simp
  constructor
  · intro hvalid
    have hi := h.lt_of_valid lane hvalid
    exact ⟨hi, (hread hi).mpr hvalid⟩
  · rintro ⟨hi, hdefined⟩
    exact (hread hi).mp hdefined

/-! ## Checking within bounds -/

/-- Looks at the index of a lane, which is out of bounds for a lane beyond the last. -/
def checkLane? (len : Nat) (m : MaskedIndices n) (lane : Nat) : Option (MaskedIndices n) :=
  m.indices[lane]?.map fun index => if len ≤ index then m.invalidate lane else m

def fixup? (m : MaskedIndices n) (len : Nat) : Option (MaskedIndices n) :=
  m.valid.lanes.foldlM (checkLane? len) m

theorem foldlM_checkLane? (len : Nat) {lanes : List Nat} (h : ∀ lane ∈ lanes, lane < n)
    (m : MaskedIndices n) :
    lanes.foldlM (checkLane? len) m = some (lanes.foldl (checkLane len) m) := by
  induction lanes generalizing m with
  | nil => rfl
  | cons lane rest ih =>
    obtain ⟨hlane, hrest⟩ := List.forall_mem_cons.mp h
    have hstep : checkLane? len m lane = some (checkLane len m lane) := by
      simp only [checkLane?, checkLane, Vector.getElem?_eq_getElem hlane, Option.map_some]
    rw [List.foldlM_cons, hstep, List.foldl_cons]
    exact ih hrest _

theorem ReadAs.fixup? {m : MaskedIndices n} {f : LaneMap n} (h : m.ReadAs f) (len : Nat) :
    m.fixup? len = some (m.fixup len) :=
  foldlM_checkLane? len (fun lane hlane => h.lt_of_valid lane (LaneMask.mem_lanes.mp hlane)) m

theorem ReadAs.contains_valid_fixup_iff (hn : n ≤ maxLanes) {m : MaskedIndices n} {f : LaneMap n}
    (h : m.ReadAs f) (len lane : Nat) : (m.fixup len).valid.contains lane = true ↔
      ∃ hi : lane < n, ∃ index < len, f ⟨lane, hi⟩ = some index := by
  refine ((h.edit hn (.fixup len)).contains_valid_iff lane).trans (exists_congr fun hi => ?_)
  simp only [LaneMap.edit, Option.ne_none_iff_exists', Option.filter_eq_some_iff, decide_eq_true_eq,
    and_comm]

end MaskedIndices

open MaskedIndices

/-- Masked indices that start inert or from options and are edited in any way are read as the partial map
that is edited alike, and nothing is read beyond the last lane. The valid lanes are those where the map is
defined. A check against a store finds an index in each of them and leaves those whose index lies within.
Once a lane is inert, an index that is read from it was set to it since. -/
theorem edits_act_on_lane_map (hn : n ≤ maxLanes) (options : Option (Vector (Option Nat) n))
    (edits : List Edit) :
    let m := (MaskedIndices.start options).run edits
    let f := (LaneMap.start options).run edits
    (∀ i : Fin n, m.get? i = f i) ∧ (∀ lane, n ≤ lane → m.get? lane = none) ∧
    (∀ lane, m.valid.contains lane = true ↔ ∃ hi : lane < n, f ⟨lane, hi⟩ ≠ none) ∧
    (∀ len, m.fixup? len = some (m.fixup len) ∧
      ∀ lane, (m.fixup len).valid.contains lane = true ↔
        ∃ hi : lane < n, ∃ index < len, f ⟨lane, hi⟩ = some index) ∧
    ∀ lane, m.get? lane = none → ∀ later index, (m.run later).get? lane = some index →
      .set lane index ∈ later := by
  intro m f
  have hread : m.ReadAs f := (readAs_start hn options).run hn edits
  refine ⟨hread.get?_eq, fun _ => m.get?_beyond, hread.contains_valid_iff,
    fun len => ⟨hread.fixup? len, hread.contains_valid_fixup_iff hn len⟩, ?_⟩
  intro lane hinert later index hlater
  have hi : lane < n := (lt_of_get? hlater).1
  have hmap : f.run later ⟨lane, hi⟩ = some index :=
    ((hread.run hn later).get?_eq ⟨lane, hi⟩).symm.trans hlater
  have hundefined : f ⟨lane, hi⟩ = none := (hread.get?_eq ⟨lane, hi⟩).symm.trans hinert
  refine (LaneMap.run_eq_some hmap).resolve_left ?_
  rw [hundefined]
  exact Option.some_ne_none index ∘ Eq.symm

/-- Lane 1 is checked against four records, lanes 2 and 3 are cut off and lane 3 is set again; lanes 4 and
70 are no lanes. -/
theorem edits_act_on_map_of_four_lanes :
    let options := some #v[some 0, some 7, some 2, some 3]
    let edits : List Edit := [.set 4 1, .truncate 2, .set 70 0, .fixup 4, .invalidate 9, .set 3 8]
    let m : MaskedIndices 4 := (MaskedIndices.start options).run edits
    4 ≤ maxLanes ∧ m.indices = #v[0, 7, 2, 8] ∧
      m.get? 0 = some 0 ∧ m.get? 1 = none ∧ m.get? 2 = none ∧ m.get? 3 = some 8 ∧
      m.valid = ⟨0b1001⟩ ∧ m.fixup? 8 = some (m.fixup 8) ∧ (m.fixup 8).valid = ⟨0b1⟩ ∧
      (m.run [.truncate 3, .set 1 5]).get? 1 = some 5 ∧
      .set 1 5 ∈ [Edit.truncate 3, Edit.set 1 5] := by
  intro options edits m
  have hn : 4 ≤ maxLanes := by decide
  obtain ⟨hread, -, -, hchecked, hset⟩ := edits_act_on_lane_map hn options edits
  have hinert : m.get? 1 = none := (hread 1).trans (by decide)
  have hlater : (m.run [.truncate 3, .set 1 5]).get? 1 = some 5 := by decide
  exact ⟨hn, by decide, (hread 0).trans (by decide), hinert, (hread 2).trans (by decide),
    (hread 3).trans (by decide), by decide, (hchecked 8).1, by decide, hlater,
    hset 1 hinert _ _ hlater⟩

end ConflictBatching
