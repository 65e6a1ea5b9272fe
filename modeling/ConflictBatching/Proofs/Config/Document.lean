import ConflictBatching.Config.Store
import ConflictBatching.Proofs.Config.Leaf
import ConflictBatching.Proofs.Json.Record
import Mathlib.Data.Finset.Dedup
import Mathlib.Data.Finset.Insert
import Mathlib.Data.Finset.Lattice.Lemmas

/-! # Documents that give some of the leaves

A document is read over the defaults. What is read after some members of an object are passed has
the fields they name from the configuration the document was taken from, and all others by default.
A section is read over defaults of its own, so a part of it changes nothing else in it and no other
section.
-/
namespace ConflictBatching

variable {σ : Type}

/-! ## Values -/

theorem leafText_natCast {n : Nat} {w : Bytes} : LeafText (.whole n) w ↔ w = writeNat n := by
  have hwrite : writeInt n = writeNat n := if_neg (by omega)
  constructor
  · rintro ⟨⟩
    exact hwrite
  · rintro rfl
    rw [← hwrite]
    exact .whole n

theorem reads_uint32 {v : UInt32} {w : Bytes} (h : LeafText (.whole v.toNat) w) :
    Reads readUInt32 w v := by
  have hmax : v.toNat ≤ UInt32.size - 1 := Nat.le_sub_one_of_lt v.toNat_lt
  have hread := (readWhole_writeNat "u32" hmax (by decide)).map fun n => UInt32.ofNat n.toNat
  rw [leafText_natCast.mp h]
  rwa [Int.toNat_natCast, UInt32.ofNat_toNat] at hread

/-- A word of 64 bits, whatever it is called where it is expected. -/
theorem reads_word (expected : String) {v : UInt64} {w : Bytes} (h : LeafText (.whole v.toNat) w) :
    Reads (fun bytes => (readWhole 0 (UInt64.size - 1) expected bytes).map fun (n, rest) =>
      (UInt64.ofNat n.toNat, rest)) w v := by
  have hmax : v.toNat ≤ UInt64.size - 1 := Nat.le_sub_one_of_lt v.toNat_lt
  have hread := (readWhole_writeNat expected hmax (by decide)).map fun n => UInt64.ofNat n.toNat
  rw [leafText_natCast.mp h]
  rwa [Int.toNat_natCast, UInt64.ofNat_toNat] at hread

theorem reads_uint64 {v : UInt64} {w : Bytes} (h : LeafText (.whole v.toNat) w) :
    Reads readUInt64 w v := reads_word "u64" h

theorem reads_size {v : UInt64} {w : Bytes} (h : LeafText (.whole v.toNat) w) :
    Reads readSize w v := reads_word "usize" h

theorem reads_int64 {v : Int64} {w : Bytes} (h : LeafText (.whole v.toInt) w) :
    Reads readInt64 w v := by
  have hmin : Int64.minValue.toInt ≤ v.toInt := v.minValue_le_toInt
  have hmax : v.toInt ≤ Int64.maxValue.toInt := v.toInt_le
  have hword : v.toInt < UInt64.size := Int.lt_of_le_of_lt hmax (by decide)
  have hread := (readWhole_writeInt "i64" hmin hmax ⟨hmin, hword⟩).map Int64.ofInt
  cases h
  rwa [Int64.ofInt_toInt] at hread

theorem reads_string {t : String} {w : Bytes} (h : LeafText (.text t) w) :
    Reads readString w t := by
  cases h with
  | text hcontent => exact readString_spelled hcontent

/-! ## Objects -/

/-- An object that shows names of fields is read field by field. The record is known by the names
that were given so far, whatever the order they came in. -/
theorem Shows.gives {fields : List (Field σ)} {state : Finset String → σ} {known : List String}
    {shown : Shown} {members : List (Bytes × Bytes)} (h : Shows known shown members)
    (hknown : ∀ f ∈ fields, f.name ∈ known)
    (hfields : ∀ x ∈ shown, ∃ f ∈ fields, f.name = x.1 ∧
      ∀ names w, x.2 w → Reads (f.read (state names)) w (state (insert x.1 names)))
    (hnames : (shown.map Prod.fst).Nodup) {seen : List String}
    (hseen : ∀ name ∈ shown.map Prod.fst, name ∉ seen) :
    Gives fields seen members (state seen.toFinset)
      (state (seen.toFinset ∪ (shown.map Prod.fst).toFinset)) := by
  induction h generalizing seen with
  | nil =>
    rw [List.map_nil, List.toFinset_nil, Finset.union_empty]
    exact .nil seen _
  | @shown name holds before after key value members hkey hvalue _ ih =>
    obtain ⟨f, hf, rfl, hread⟩ := hfields (name, holds) (by simp)
    rw [List.map_append, List.map_cons, List.nodup_middle, List.nodup_cons, ← List.map_append]
      at hnames
    have hothers : ∀ x ∈ before ++ after, x ∈ before ++ (f.name, holds) :: after := by
      intro x hx
      rcases List.mem_append.mp hx with hx | hx
      · exact List.mem_append_left _ hx
      · exact List.mem_append_right _ (List.mem_cons_of_mem _ hx)
    have hfresh : ∀ name ∈ (before ++ after).map Prod.fst, name ∉ f.name :: seen := by
      intro name hname hmem
      rcases List.mem_cons.mp hmem with rfl | hmem
      · exact hnames.1 hname
      · obtain ⟨x, hx, rfl⟩ := List.mem_map.mp hname
        exact hseen x.1 (List.mem_map.mpr ⟨x, hothers x hx, rfl⟩) hmem
    -- The name moves from those that are still to be shown to those that are seen.
    have hnext := ih (fun x hx => hfields x (hothers x hx)) hnames.2 hfresh
    have hgiven : (f.name :: seen).toFinset ∪ ((before ++ after).map Prod.fst).toFinset =
        seen.toFinset ∪ ((before ++ (f.name, holds) :: after).map Prod.fst).toFinset := by
      ext name
      simp only [Finset.mem_union, List.mem_toFinset, List.mem_cons, List.map_append,
        List.mem_append, List.map_cons]
      tauto
    rw [hgiven, List.toFinset_cons] at hnext
    exact .field hf (hseen f.name (by simp)) hkey (hread seen.toFinset value hvalue) hnext
  | @extra name shown key value members hother hkey hvalue _ ih =>
    have hextra : ∀ f ∈ fields, f.name ≠ name := by
      rintro f hf rfl
      exact hother (hknown f hf)
    exact .extra hextra hkey hvalue (ih hfields hnames hseen)

/-! ## Sections -/

theorem level_of_mem_givenAt {given : Leaf → Bool} {level : Option Section} {l : Leaf}
    (h : l ∈ givenAt given level) : l.level = level := by
  have hlevel := (List.mem_filter.mp (List.mem_filter.mp h).1).2
  exact of_decide_eq_true hlevel

theorem nodup_givenNames (given : Leaf → Bool) (level : Option Section) :
    ((givenAt given level).map Leaf.name).Nodup := by
  have hall : Leaf.all.Nodup := by decide
  refine List.Nodup.map_on (fun l hl l' hl' hname => ?_) ((hall.filter _).filter _)
  exact Leaf.eq_of_name_eq ((level_of_mem_givenAt hl).trans (level_of_mem_givenAt hl').symm) hname

def givenNames (given : Leaf → Bool) (level : Option Section) : Finset String :=
  ((givenAt given level).map Leaf.name).toFinset

theorem name_mem_givenNames {given : Leaf → Bool} (l : Leaf) :
    l.name ∈ givenNames given l.level ↔ given l = true := by
  have hmem : l ∈ givenAt given l.level ↔ given l = true := by
    simp [givenAt, leavesAt, l.mem_all]
  rw [givenNames, List.mem_toFinset, List.mem_map, ← hmem]
  constructor
  · rintro ⟨l', hl', hname⟩
    have heq : l' = l := Leaf.eq_of_name_eq (level_of_mem_givenAt hl') hname
    rwa [heq] at hl'
  · exact fun h => ⟨l, h, rfl⟩

theorem reads_section {c : Config} {given : Leaf → Bool} {s : Section} (fields : List (Field σ))
    (state : Finset String → σ) (hnames : (fields.map (·.name)).Nodup)
    (hknown : ∀ f ∈ fields, f.name ∈ (leavesAt (some s)).map Leaf.name)
    (hleaf : ∀ l : Leaf, l.level = some s → ∃ f ∈ fields, f.name = l.name ∧
      ∀ names w, LeafText (c.leaf l) w → Reads (f.read (state names)) w (state (insert l.name names)))
    {w : Bytes} (h : SectionText c given s w) (expected : String) :
    Reads (readRecord expected fields (state ∅)) w (state (givenNames given (some s))) := by
  obtain ⟨members, hshows, hobject⟩ := h
  have hshown : (shownLeaves c given (some s)).map Prod.fst =
      (givenAt given (some s)).map Leaf.name := by
    rw [shownLeaves, List.map_map]
    rfl
  have hfields : ∀ x ∈ shownLeaves c given (some s), ∃ f ∈ fields, f.name = x.1 ∧
      ∀ names w, x.2 w → Reads (f.read (state names)) w (state (insert x.1 names)) := by
    intro x hx
    obtain ⟨l, hl, rfl⟩ := List.mem_map.mp hx
    exact hleaf l (level_of_mem_givenAt hl)
  have hgives := hshows.gives hknown hfields (hshown ▸ nodup_givenNames given (some s))
    fun _ _ => List.not_mem_nil
  rw [hshown, List.toFinset_nil, Finset.empty_union] at hgives
  exact readRecord_gives hnames hgives hobject expected

/-! A record keeps the fields that are named and has the others as they are by default. -/

def ScheduleConfig.overlay (c : ScheduleConfig) (names : Finset String) : ScheduleConfig where
  qlen := if "qlen" ∈ names then c.qlen else ({} : ScheduleConfig).qlen
  modulo := if "modulo" ∈ names then c.modulo else ({} : ScheduleConfig).modulo

def AccountsConfig.overlay (c : AccountsConfig) (names : Finset String) : AccountsConfig where
  accounts := if "accounts" ∈ names then c.accounts else ({} : AccountsConfig).accounts
  transfers := if "transfers" ∈ names then c.transfers else ({} : AccountsConfig).transfers
  initialBalance :=
    if "initial_balance" ∈ names then c.initialBalance else ({} : AccountsConfig).initialBalance
  maxAmount := if "max_amount" ∈ names then c.maxAmount else ({} : AccountsConfig).maxAmount

def ConflictConfig.overlay (c : ConflictConfig) (names : Finset String) : ConflictConfig where
  lanes := if "lanes" ∈ names then c.lanes else ({} : ConflictConfig).lanes
  iterations := if "iterations" ∈ names then c.iterations else ({} : ConflictConfig).iterations

def FlushConfig.overlay (c : FlushConfig) (names : Finset String) : FlushConfig where
  maxDeferrals := if "max_deferrals" ∈ names then c.maxDeferrals else ({} : FlushConfig).maxDeferrals
  minBatch := if "min_batch" ∈ names then c.minBatch else ({} : FlushConfig).minBatch

variable {c : Config} {given : Leaf → Bool} {w : Bytes}

theorem ScheduleConfig.reads_partial (h : SectionText c given .schedule w) :
    Reads ScheduleConfig.read w (c.schedule.overlay (givenNames given (some .schedule))) := by
  refine reads_section fields c.schedule.overlay (by decide) (by decide) (fun l hl => ?_) h _
  cases l with
  | qlen =>
    exact ⟨_, .head _, rfl, fun names w hw =>
      reads_of (reads_uint32 hw) _ (by simp [overlay, Leaf.name])⟩
  | modulo =>
    exact ⟨_, .tail _ (.head _), rfl, fun names w hw =>
      reads_of (reads_uint32 hw) _ (by simp [overlay, Leaf.name])⟩
  | _ => cases hl

theorem AccountsConfig.reads_partial (h : SectionText c given .accounts w) :
    Reads AccountsConfig.read w (c.accounts.overlay (givenNames given (some .accounts))) := by
  refine reads_section fields c.accounts.overlay (by decide) (by decide) (fun l hl => ?_) h _
  cases l with
  | accounts =>
    exact ⟨_, .head _, rfl, fun names w hw =>
      reads_of (reads_size hw) _ (by simp [overlay, Leaf.name])⟩
  | transfers =>
    exact ⟨_, .tail _ (.head _), rfl, fun names w hw =>
      reads_of (reads_size hw) _ (by simp [overlay, Leaf.name])⟩
  | initialBalance =>
    exact ⟨_, .tail _ (.tail _ (.head _)), rfl, fun names w hw =>
      reads_of (reads_int64 hw) _ (by simp [overlay, Leaf.name])⟩
  | maxAmount =>
    exact ⟨_, .tail _ (.tail _ (.tail _ (.head _))), rfl, fun names w hw =>
      reads_of (reads_int64 hw) _ (by simp [overlay, Leaf.name])⟩
  | _ => cases hl

theorem ConflictConfig.reads_partial (h : SectionText c given .conflict w) :
    Reads ConflictConfig.read w (c.conflict.overlay (givenNames given (some .conflict))) := by
  refine reads_section fields c.conflict.overlay (by decide) (by decide) (fun l hl => ?_) h _
  cases l with
  | lanes =>
    exact ⟨_, .head _, rfl, fun names w hw =>
      reads_of (reads_size hw) _ (by simp [overlay, Leaf.name])⟩
  | iterations =>
    exact ⟨_, .tail _ (.head _), rfl, fun names w hw =>
      reads_of (reads_size hw) _ (by simp [overlay, Leaf.name])⟩
  | _ => cases hl

theorem FlushConfig.reads_partial (h : SectionText c given .flush w) :
    Reads FlushConfig.read w (c.flush.overlay (givenNames given (some .flush))) := by
  refine reads_section fields c.flush.overlay (by decide) (by decide) (fun l hl => ?_) h _
  cases l with
  | maxDeferrals =>
    exact ⟨_, .head _, rfl, fun names w hw =>
      reads_of (reads_size hw) _ (by simp [overlay, Leaf.name])⟩
  | minBatch =>
    exact ⟨_, .tail _ (.head _), rfl, fun names w hw =>
      reads_of (reads_size hw) _ (by simp [overlay, Leaf.name])⟩
  | _ => cases hl

/-! ## The whole document -/

namespace Config

def overlay (c : Config) (names : Finset String) : Config where
  seed := if "seed" ∈ names then c.seed else ({} : Config).seed
  warmupRounds := if "warmup_rounds" ∈ names then c.warmupRounds else ({} : Config).warmupRounds
  logLevel := if "log_level" ∈ names then c.logLevel else ({} : Config).logLevel
  schedule := if "schedule" ∈ names then c.schedule else ({} : Config).schedule
  accounts := if "accounts" ∈ names then c.accounts else ({} : Config).accounts
  conflict := if "conflict" ∈ names then c.conflict else ({} : Config).conflict
  flush := if "flush" ∈ names then c.flush else ({} : Config).flush

/-- The configuration with what its sections keep when only the given leaves of them are shown. -/
def overlaySections (c : Config) (given : Leaf → Bool) : Config :=
  { c with
    schedule := c.schedule.overlay (givenNames given (some .schedule))
    accounts := c.accounts.overlay (givenNames given (some .accounts))
    conflict := c.conflict.overlay (givenNames given (some .conflict))
    flush := c.flush.overlay (givenNames given (some .flush)) }

theorem leaf_overlay (c : Config) (names : Finset String) (l : Leaf) :
    (c.overlay names).leaf l = if l.topName ∈ names then c.leaf l else ({} : Config).leaf l := by
  cases l
  all_goals
    simp only [leaf, overlay]
    split
    · next h => exact (if_pos h).symm
    · next h => exact (if_neg h).symm

theorem leaf_overlaySections (c : Config) (given : Leaf → Bool) (l : Leaf) :
    (c.overlaySections given).leaf l =
      if l.level = none ∨ given l = true then c.leaf l else ({} : Config).leaf l := by
  have hname : l.name ∈ givenNames given l.level ↔ given l = true := name_mem_givenNames l
  by_cases htop : l.level = none
  · rw [if_pos (.inl htop)]
    cases l
    all_goals first | rfl | cases htop
  · simp only [htop, false_or, ← hname]
    cases l
    all_goals first | exact absurd rfl htop | skip
    all_goals
      simp only [leaf, overlaySections, ScheduleConfig.overlay, AccountsConfig.overlay,
        ConflictConfig.overlay, FlushConfig.overlay]
      split
      · next h => exact (if_pos h).symm
      · next h => exact (if_neg h).symm

theorem reads_topLeaf (c : Config) (given : Leaf → Bool) {l : Leaf} (hl : l.level = none) :
    ∃ f ∈ fields, f.name = l.name ∧ ∀ names w, LeafText (c.leaf l) w →
      Reads (f.read ((c.overlaySections given).overlay names)) w
        ((c.overlaySections given).overlay (insert l.name names)) := by
  cases l with
  | seed =>
    exact ⟨_, .head _, rfl, fun names w hw =>
      reads_of (reads_uint64 hw) _ (by simp [overlay, overlaySections, Leaf.name])⟩
  | warmupRounds =>
    exact ⟨_, .tail _ (.head _), rfl, fun names w hw =>
      reads_of (reads_uint32 hw) _ (by simp [overlay, overlaySections, Leaf.name])⟩
  | logLevel =>
    exact ⟨_, .tail _ (.tail _ (.head _)), rfl, fun names w hw =>
      reads_of (reads_string hw) _ (by simp [overlay, overlaySections, Leaf.name])⟩
  | _ => cases hl

theorem reads_topSection (c : Config) (given : Leaf → Bool) (s : Section) :
    ∃ f ∈ fields, f.name = s.name ∧ ∀ names w, SectionText c given s w →
      Reads (f.read ((c.overlaySections given).overlay names)) w
        ((c.overlaySections given).overlay (insert s.name names)) := by
  cases s with
  | schedule =>
    exact ⟨_, .tail _ (.tail _ (.tail _ (.head _))), rfl, fun names w hw =>
      reads_of (ScheduleConfig.reads_partial hw) _
        (by simp [overlay, overlaySections, Section.name])⟩
  | accounts =>
    exact ⟨_, .tail _ (.tail _ (.tail _ (.tail _ (.head _)))), rfl, fun names w hw =>
      reads_of (AccountsConfig.reads_partial hw) _
        (by simp [overlay, overlaySections, Section.name])⟩
  | conflict =>
    exact ⟨_, .tail _ (.tail _ (.tail _ (.tail _ (.tail _ (.head _))))), rfl, fun names w hw =>
      reads_of (ConflictConfig.reads_partial hw) _
        (by simp [overlay, overlaySections, Section.name])⟩
  | flush =>
    exact ⟨_, .tail _ (.tail _ (.tail _ (.tail _ (.tail _ (.tail _ (.head _)))))), rfl,
      fun names w hw => reads_of (FlushConfig.reads_partial hw) _
        (by simp [overlay, overlaySections, Section.name])⟩

/-- The names at the top of a document that shows these sections. -/
def topNames (given : Leaf → Bool) (sections : List Section) : List String :=
  (givenAt given none).map Leaf.name ++ sections.map Section.name

theorem nodup_topNames {given : Leaf → Bool} {sections : List Section}
    (hdistinct : sections.Nodup) : (topNames given sections).Nodup := by
  refine (nodup_givenNames given none).append (hdistinct.map fun _ _ => Section.eq_of_name_eq) ?_
  intro name hleaf hsection
  obtain ⟨l, hl, rfl⟩ := List.mem_map.mp hleaf
  obtain ⟨s, -, hname⟩ := List.mem_map.mp hsection
  exact Leaf.name_ne_section (level_of_mem_givenAt hl) s hname.symm

/-- A leaf at the top is found if it is given, and one in a section if the section is shown. -/
theorem topName_mem {given : Leaf → Bool} {sections : List Section} (l : Leaf) :
    l.topName ∈ topNames given sections ↔
      (l.level = none ∧ given l = true) ∨ ∃ s ∈ sections, l.level = some s := by
  rw [topNames, List.mem_append, List.mem_map, List.mem_map]
  cases hlevel : l.level with
  | none =>
    have hname : l.topName = l.name := by rw [Leaf.topName, hlevel]; rfl
    have hgiven : l.name ∈ givenNames given none ↔ given l = true := hlevel ▸ name_mem_givenNames l
    have hsection : ¬∃ s ∈ sections, s.name = l.name := fun ⟨s, _, heq⟩ =>
      Leaf.name_ne_section hlevel s heq.symm
    rw [givenNames, List.mem_toFinset, List.mem_map] at hgiven
    rw [hname, hgiven]
    simp [hsection]
  | some s =>
    have hname : l.topName = s.name := by rw [Leaf.topName, hlevel]; rfl
    have hleaf : ¬∃ l ∈ givenAt given none, l.name = s.name := fun ⟨l, hl, heq⟩ =>
      Leaf.name_ne_section (level_of_mem_givenAt hl) s heq
    have hsection : (∃ s' ∈ sections, s'.name = s.name) ↔ s ∈ sections := by
      constructor
      · rintro ⟨s', hs', heq⟩
        rwa [← Section.eq_of_name_eq heq]
      · exact fun hs => ⟨s, hs, rfl⟩
    rw [hname, hsection]
    simp [hleaf]

/-- A document is read as the configuration with the given leaves and the others by default. -/
theorem ofBytes_partial {c : Config} {given : Leaf → Bool} {document : Bytes}
    (h : DocumentText c given document) :
    ∃ r, ofBytes document = .ok r ∧
      ∀ l, r.leaf l = if given l = true then c.leaf l else ({} : Config).leaf l := by
  obtain ⟨sections, hdistinct, hneeded, members, w, hshows, hobject, hpadded⟩ := h
  let shown : Shown :=
    shownLeaves c given none ++ sections.map fun s => (s.name, SectionText c given s)
  have hshown : shown.map Prod.fst = topNames given sections := by
    rw [List.map_append, shownLeaves, List.map_map, List.map_map]
    rfl
  have hfields : ∀ x ∈ shown, ∃ f ∈ fields, f.name = x.1 ∧ ∀ names w, x.2 w →
      Reads (f.read ((c.overlaySections given).overlay names)) w
        ((c.overlaySections given).overlay (insert x.1 names)) := by
    intro x hx
    rcases List.mem_append.mp hx with hx | hx
    · obtain ⟨l, hl, rfl⟩ := List.mem_map.mp hx
      exact reads_topLeaf c given (level_of_mem_givenAt hl)
    · obtain ⟨s, -, rfl⟩ := List.mem_map.mp hx
      exact reads_topSection c given s
  have hgives := hshows.gives (by decide) hfields (hshown ▸ nodup_topNames hdistinct)
    fun _ _ => List.not_mem_nil
  have hread := readRecord_gives (by decide) hgives hobject "struct JigConfig"
  rw [hshown, List.toFinset_nil, Finset.empty_union] at hread
  refine ⟨_, hread.document hpadded, fun l => ?_⟩
  have hfound : l.topName ∈ (topNames given sections).toFinset ↔
      (l.level = none ∧ given l = true) ∨ ∃ s ∈ sections, l.level = some s :=
    List.mem_toFinset.trans (topName_mem l)
  rw [leaf_overlay, leaf_overlaySections]
  by_cases hgiven : given l = true
  · have hmem : l.topName ∈ (topNames given sections).toFinset := by
      cases hlevel : l.level with
      | none => exact hfound.mpr (.inl ⟨hlevel, hgiven⟩)
      | some s => exact hfound.mpr (.inr ⟨s, hneeded l s hlevel hgiven, hlevel⟩)
    rw [if_pos hmem, if_pos (.inr hgiven), if_pos hgiven]
  · -- A leaf that is not given is found at most in a section that is shown for others of its leaves.
    rw [if_neg hgiven]
    split
    · next hmem =>
      rcases hfound.mp hmem with ⟨-, h⟩ | ⟨s, -, hlevel⟩
      · exact absurd h hgiven
      · simp [hlevel, hgiven]
    · rfl

end Config

theorem DocumentText.isBlank {document : Bytes} (h : DocumentText c given document) :
    isBlank document = false := by
  obtain ⟨_, -, -, members, w, -, hobject, before, after, -, -, rfl⟩ := h
  obtain ⟨inner, rfl⟩ := hobject.head
  rw [ConflictBatching.isBlank, List.all_eq_false]
  exact ⟨byte '{', by simp, by decide⟩

theorem ConfigStore.readConfig_of_ofBytes {store : ConfigStore σ} {world : σ} {bytes : Bytes}
    {config : Config} (hread : store.read world = .ok (some bytes))
    (hblank : ConflictBatching.isBlank bytes = false) (hbytes : Config.ofBytes bytes = .ok config) :
    store.readConfig world = .ok (some config) := by
  simp only [readConfig, contents, hread, bind, Except.bind, hblank, hbytes]
  rfl

end ConflictBatching
