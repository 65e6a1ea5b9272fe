import ConflictBatching.Proofs.Lane.Pick

/-! # Keys and tokens partitioned by lanes

Keys and tokens are visited in one order of lanes, the kept ones first and both groups upwards. The items
may as well be copied in this order into buffers of as many slots as a mask has lanes: no copy is out of
bounds, of the items or of the buffer, so only lists that do not fit fail.
-/
namespace ConflictBatching
variable {α κ τ : Type}

/-- Keys and tokens are visited by one order of lanes. -/
theorem partition?_eq_some {keys : List κ} {tokens : List τ} (keep : LaneMask)
    (hmax : keys.length ≤ maxLanes) (hlen : keys.length ≤ tokens.length) :
    partition? keys tokens keep = some
      { kept := ((List.range keys.length).filter keep.contains).length
        keys := (visitOrder keep keys.length).filterMap (keys[·]?)
        tokens := (visitOrder keep keys.length).filterMap (tokens[·]?) ++
          tokens.drop keys.length } := by
  cases hkeys : keys with
  | nil => rfl
  | cons key rest =>
    rw [← hkeys]
    have hzip : (keys.zip tokens).length = keys.length := by
      rw [List.length_zip, Nat.min_eq_left hlen]
    have hfits : ¬(maxLanes < keys.length ∨ tokens.length < keys.length) := by omega
    have hitems := partitionItems_eq_visited keep (hzip.trans_le hmax)
    rw [hzip] at hitems
    have hvisited : ∀ lane ∈ visitOrder keep keys.length,
        ((keys.zip tokens)[lane]?).map Prod.fst = keys[lane]? ∧
          ((keys.zip tokens)[lane]?).map Prod.snd = tokens[lane]? := by
      intro lane hlane
      have hlt := lt_of_mem_visitOrder hlane
      have hkey : keys[lane]? = some keys[lane] := List.getElem?_eq_getElem hlt
      have hlt' : lane < tokens.length := hlt.trans_le hlen
      have htoken : tokens[lane]? = some tokens[lane] := List.getElem?_eq_getElem hlt'
      have hpair : (keys.zip tokens)[lane]? = some (keys[lane], tokens[lane]) :=
        List.getElem?_zip_eq_some.mpr ⟨hkey, htoken⟩
      rw [hpair, hkey, htoken]
      exact ⟨rfl, rfl⟩
    have hnonempty : keys.isEmpty = false := by rw [hkeys, List.isEmpty_cons]
    rw [partition?, hnonempty, if_neg Bool.false_ne_true, if_neg hfits, hitems]
    simp only [List.map_filterMap]
    rw [List.filterMap_congr fun lane hlane => (hvisited lane hlane).1,
      List.filterMap_congr fun lane hlane => (hvisited lane hlane).2]

theorem partition?_eq_none_iff {keys : List κ} {tokens : List τ} (keep : LaneMask) :
    partition? keys tokens keep = none ↔
      maxLanes < keys.length ∨ tokens.length < keys.length := by
  constructor
  · intro hnone
    by_contra hfits
    rw [not_or, Nat.not_lt, Nat.not_lt] at hfits
    rw [partition?_eq_some keep hfits.1 hfits.2] at hnone
    cases hnone
  · intro hlong
    have hnonempty : keys.isEmpty = false := by
      cases keys with
      | nil => simp at hlong
      | cons key rest => rfl
    rw [partition?, hnonempty, if_neg Bool.false_ne_true, if_pos hlong]

/-! ## Copying through buffers -/

/-- Copies the item of each lane to the next slot of the buffer. A lane without an item is out of
bounds, and so is a slot behind the buffer. -/
def copyLanes (items : List α) : (slot : Nat) → (lanes : List Nat) → List α → Option (List α)
  | _, [], buffer => some buffer
  | slot, lane :: lanes, buffer =>
    match items[lane]? with
    | some x =>
      if slot < buffer.length then copyLanes items (slot + 1) lanes (buffer.set slot x) else none
    | none => none

/-- Both buffers start with copies of the first item, and their leading slots are copied back. -/
def partitionBuffered? (keys : List κ) (tokens : List τ) (keep : LaneMask) :
    Option (Partitioned κ τ) :=
  let n := keys.length
  let all := LaneMask.firstN n
  let kept := keep &&& all
  let lanes := kept.lanes ++ (~~~kept &&& all).lanes
  match keys with
  | [] => some ⟨0, keys, tokens⟩
  | key :: _ =>
    if tokens.length < n then none
    else do
      let token ← tokens.head?
      let keyBuffer ← copyLanes keys 0 lanes (List.replicate maxLanes key)
      let tokenBuffer ← copyLanes (tokens.take n) 0 lanes (List.replicate maxLanes token)
      if maxLanes < n then none
      else some ⟨kept.count, keyBuffer.take n, tokenBuffer.take n ++ tokens.drop n⟩

/-- Copies within bounds fill one slot after the other and leave the slots before them. -/
theorem copyLanes_eq_some {items : List α} {slot : Nat} {lanes : List Nat} {buffer : List α}
    (hlanes : ∀ lane ∈ lanes, lane < items.length) (hroom : slot + lanes.length ≤ buffer.length) :
    ∃ filled, copyLanes items slot lanes buffer = some filled ∧
      filled.take (slot + lanes.length) =
        buffer.take slot ++ lanes.filterMap (items[·]?) := by
  induction lanes generalizing slot buffer with
  | nil => exact ⟨buffer, rfl, by simp⟩
  | cons lane lanes ih =>
    obtain ⟨hlane, hrest⟩ := List.forall_mem_cons.mp hlanes
    rw [List.length_cons] at hroom
    have hitem : items[lane]? = some items[lane] := List.getElem?_eq_getElem hlane
    have hslot : slot < buffer.length := by omega
    have hroom' : slot + 1 + lanes.length ≤ (buffer.set slot items[lane]).length := by
      rw [List.length_set]
      omega
    obtain ⟨filled, hfilled, htake⟩ := ih hrest hroom'
    have hset : (buffer.set slot items[lane]).take (slot + 1) = buffer.take slot ++ [items[lane]] := by
      rw [List.take_add_one, List.take_set_of_le (Nat.le_refl slot),
        List.getElem?_set_self hslot, Option.toList_some]
    refine ⟨filled, ?_, ?_⟩
    · simp only [copyLanes, hitem, if_pos hslot, hfilled]
    · rw [hset] at htake
      rw [List.length_cons, Nat.add_comm lanes.length, ← Nat.add_assoc, htake,
        List.filterMap_cons_some hitem, List.append_assoc, List.singleton_append]

theorem copyLanes_visitOrder (keep : LaneMask) {items : List α} (hlen : items.length ≤ maxLanes)
    (x : α) :
    ∃ filled, copyLanes items 0 (visitOrder keep items.length) (List.replicate maxLanes x) = some filled ∧
      filled.take items.length = (visitOrder keep items.length).filterMap (items[·]?) := by
  have hn := length_visitOrder keep items.length
  have hroom : 0 + (visitOrder keep items.length).length ≤ (List.replicate maxLanes x).length := by
    rwa [List.length_replicate, hn, Nat.zero_add]
  obtain ⟨filled, hfilled, htake⟩ := copyLanes_eq_some (fun _ => lt_of_mem_visitOrder) hroom
  rw [hn, Nat.zero_add, List.take_zero, List.nil_append] at htake
  exact ⟨filled, hfilled, htake⟩

theorem partitionBuffered?_eq_none {keys : List κ} {tokens : List τ} (keep : LaneMask)
    (h : maxLanes < keys.length ∨ tokens.length < keys.length) :
    partitionBuffered? keys tokens keep = none := by
  cases keys with
  | nil => simp at h
  | cons key rest =>
    by_cases hshort : tokens.length < (key :: rest).length
    · simp only [partitionBuffered?, if_pos hshort]
    · have hlong : maxLanes < (key :: rest).length := h.resolve_right hshort
      simp only [partitionBuffered?, if_neg hshort, if_pos hlong, Option.bind_eq_bind,
        Option.bind_fun_none]

/-- With lists that fit every copy is within bounds, and with others there is nothing to copy back. -/
theorem partitionBuffered?_eq (keys : List κ) (tokens : List τ) (keep : LaneMask) :
    partitionBuffered? keys tokens keep = partition? keys tokens keep := by
  by_cases hfits : maxLanes < keys.length ∨ tokens.length < keys.length
  · rw [partitionBuffered?_eq_none keep hfits, (partition?_eq_none_iff keep).mpr hfits]
  · rw [not_or, Nat.not_lt, Nat.not_lt] at hfits
    obtain ⟨hmax, hlen⟩ := hfits
    rw [partition?_eq_some keep hmax hlen]
    have hfront : (tokens.take keys.length).length = keys.length := by
      rw [List.length_take, Nat.min_eq_left hlen]
    have hvisited : (visitOrder keep keys.length).filterMap ((tokens.take keys.length)[·]?) =
        (visitOrder keep keys.length).filterMap (tokens[·]?) :=
      List.filterMap_congr fun lane hlane => List.getElem?_take_of_lt (lt_of_mem_visitOrder hlane)
    cases keys with
    | nil => rfl
    | cons key rest =>
      cases tokens with
      | nil => simp at hlen
      | cons token _ =>
        obtain ⟨keyBuffer, hkeys, hkeyFront⟩ := copyLanes_visitOrder keep hmax key
        obtain ⟨tokenBuffer, htokens, htokenFront⟩ :=
          copyLanes_visitOrder keep (hfront.trans_le hmax) token
        rw [hfront] at htokens htokenFront
        simp only [partitionBuffered?, if_neg (Nat.not_lt.mpr hlen), if_neg (Nat.not_lt.mpr hmax),
          List.head?_cons, Option.bind_eq_bind, Option.bind_some, keep.lanes_and_firstN hmax,
          keep.lanes_rest hmax, keep.count_and_firstN hmax]
        rw [← visitOrder, hkeys, htokens]
        simp only [Option.bind_some, hkeyFront, htokenFront, hvisited]

/-- A partition fails exactly with more keys than a mask has lanes, and with keys but fewer tokens. Else
the keys and as many tokens are those at the lanes of the mask followed by those at the other lanes, both
upwards, the further tokens stay, and the lanes of the mask within the keys are counted. Copying through
buffers of one slot for each lane gives the same, also where it fails. -/
theorem partition_puts_kept_lanes_first (keys : List κ) (tokens : List τ) (keep : LaneMask) :
    let n := keys.length
    let kept := (List.range n).filter keep.contains
    let others := (List.range n).filter (!keep.contains ·)
    (partition? keys tokens keep = none ↔ 64 < n ∨ keys ≠ [] ∧ tokens.length < n) ∧
    (∀ r, partition? keys tokens keep = some r →
      r.kept = kept.length ∧
      r.keys.map some = (kept ++ others).map (keys[·]?) ∧
      r.tokens.map some = (kept ++ others).map (tokens[·]?) ++ (tokens.drop n).map some) ∧
    partitionBuffered? keys tokens keep = partition? keys tokens keep := by
  intro n kept others
  refine ⟨?_, ?_, partitionBuffered?_eq keys tokens keep⟩
  · rw [partition?_eq_none_iff]
    refine or_congr Iff.rfl ⟨fun hshort => ⟨?_, hshort⟩, And.right⟩
    exact List.length_pos_iff.mp (Nat.zero_lt_of_lt hshort)
  · intro r hr
    have hfits : ¬(maxLanes < n ∨ tokens.length < n) := by
      rw [← partition?_eq_none_iff keep, hr]
      simp
    rw [not_or, Nat.not_lt, Nat.not_lt] at hfits
    obtain ⟨hmax, hlen⟩ := hfits
    cases (partition?_eq_some keep hmax hlen).symm.trans hr
    refine ⟨rfl, map_some_filterMap_getElem? fun _ => lt_of_mem_visitOrder, ?_⟩
    rw [List.map_append, map_some_filterMap_getElem? fun _ hlane =>
      (lt_of_mem_visitOrder hlane).trans_le hlen]
    rfl

/-- The mask names a lane behind the three keys, and there is one token more than keys. -/
theorem partition_puts_two_of_three_lanes_first :
    let keys := ["a", "b", "c"]
    let keep : LaneMask := ⟨0b1110⟩
    ∃ r : Partitioned String Nat, partition? keys [0, 1, 2, 3] keep = some r ∧ r.kept = 2 ∧
      r.keys.map some = ["b", "c", "a"].map some ∧ r.tokens.map some = [1, 2, 0, 3].map some ∧
      partition? keys [0, 1] keep = none := by
  intro keys keep
  obtain ⟨hnone, hsome, -⟩ := partition_puts_kept_lanes_first keys [0, 1, 2, 3] keep
  obtain ⟨r, hr⟩ := Option.ne_none_iff_exists'.mp (mt hnone.mp (by decide))
  obtain ⟨hkept, hkeys, htokens⟩ := hsome r hr
  obtain ⟨hnone', -, -⟩ := partition_puts_kept_lanes_first keys [0, 1] keep
  exact ⟨r, hr, hkept.trans (by decide), hkeys.trans (by decide), htokens.trans (by decide),
    hnone'.mpr (by decide)⟩

end ConflictBatching
