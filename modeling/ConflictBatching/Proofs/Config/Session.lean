import ConflictBatching.Proofs.Config.RoundTrip

/-! # A configuration is only lost by overwriting

What the reader takes for nothing is exactly what a write without overwriting replaces. The document of
a configuration is never taken for nothing, so after one write that succeeds all others must overwrite,
and what is read is the configuration of the last write that succeeded.
-/
namespace ConflictBatching

/-- A call on a store. -/
inductive ConfigCall where
  | read
  | write (config : Config) (overwrite : Bool)

/-- A store in use. -/
structure Session (σ : Type) where
  world : σ
  /-- The configuration of the last write that succeeded. -/
  stored : Option Config := none

namespace ConfigStore
variable {σ : Type}

/-- The store's own reads and writes succeed in these worlds: a write leads to another of them, where
its bytes are read. -/
structure WorksIn (store : ConfigStore σ) (worlds : σ → Prop) : Prop where
  read : ∀ {world}, worlds world → ∃ content, store.read world = .ok content
  write : ∀ bytes {world}, worlds world → ∃ world', store.write bytes world = (.ok (), world') ∧
    worlds world' ∧ store.read world' = .ok (some bytes)

theorem worksIn_memory (path : String) : (memory path).WorksIn fun _ => True where
  read {content} _ := ⟨content, rfl⟩
  write bytes _ _ := ⟨some bytes, rfl, trivial, rfl⟩

end ConfigStore

/-- The path can be read, and whatever is written there is written. -/
def Disk.Usable (path : String) (d : Disk) : Prop :=
  (∃ content, d.read path = .ok content) ∧ ∀ bytes, ∃ d', d.write path bytes = (.ok (), d')

theorem Disk.worksIn_configFile (path : String) : (configFile path).WorksIn (Usable path) where
  read h := h.1
  write bytes d h := by
    obtain ⟨d', hwrite⟩ := h.2 bytes
    have hread := read_of_write hwrite
    exact ⟨d', hwrite, ⟨⟨some bytes, hread⟩, exists_write_again hwrite⟩, hread⟩

/-! ## One call -/

namespace ConfigStore
variable {σ : Type} {store : ConfigStore σ} {worlds : σ → Prop} {world : σ}

/-- There is something that is not blank. -/
def Occupied (content : Option Bytes) : Prop := ∃ bytes, content = some bytes ∧ isBlank bytes = false

theorem any_notBlank_iff {content : Option Bytes} :
    content.any (¬isBlank ·) = true ↔ Occupied content := by
  cases content <;> simp [Occupied]

theorem occupied_write (config : Config) : Occupied (some config.write) :=
  ⟨config.write, rfl, config.isBlank_write⟩

section Read
variable {content : Option Bytes} (hread : store.read world = .ok content)
include hread

theorem readConfig_eq_none_iff : store.readConfig world = .ok none ↔ ¬Occupied content := by
  have hcontents : store.contents world = .ok content := by rw [contents, hread]
  rw [readConfig, hcontents]
  cases content with
  | none => simp [Occupied, bind, Except.bind]
  | some bytes =>
    cases hblank : isBlank bytes with
    | true => simp [Occupied, bind, Except.bind, hblank]
    | false =>
      cases hconfig : Config.ofBytes bytes <;>
        simp [Occupied, bind, Except.bind, hblank, hconfig]

theorem writeConfig_of_occupied (config : Config) (h : Occupied content) :
    store.writeConfig config false world = (.error (.occupied store.path), world) := by
  have hcontents : store.contents world = .ok content := by rw [contents, hread]
  have hguard : content.any (¬isBlank ·) = true ∧ ¬false = true :=
    ⟨any_notBlank_iff.mpr h, Bool.false_ne_true⟩
  rw [writeConfig, hcontents]
  exact if_pos hguard

theorem writeConfig_of_write {config : Config} {overwrite : Bool} {world' : σ}
    (hwrite : store.write config.write world = (.ok (), world'))
    (h : overwrite = true ∨ ¬Occupied content) :
    store.writeConfig config overwrite world = (.ok (), world') := by
  have hcontents : store.contents world = .ok content := by rw [contents, hread]
  have hguard : ¬(content.any (¬isBlank ·) = true ∧ ¬overwrite = true) := by
    rintro ⟨hany, hkeep⟩
    exact h.elim hkeep fun hfree => hfree (any_notBlank_iff.mp hany)
  simp only [writeConfig, hcontents, if_neg hguard, hwrite]
  rfl

end Read

/-- Reader and writer agree on what there is to lose. -/
theorem WorksIn.writeConfig_spec (hworks : store.WorksIn worlds) (hworld : worlds world)
    (config : Config) :
    ((store.writeConfig config false world).1 = .ok () ↔ store.readConfig world = .ok none) ∧
    (store.readConfig world ≠ .ok none →
      store.writeConfig config false world = (.error (.occupied store.path), world)) ∧
    ∃ world', store.writeConfig config true world = (.ok (), world') := by
  obtain ⟨content, hread⟩ := hworks.read hworld
  obtain ⟨world', hwrite, -⟩ := hworks.write config.write hworld
  have hnone := readConfig_eq_none_iff hread
  have hrefused (hsome : store.readConfig world ≠ .ok none) :
      store.writeConfig config false world = (.error (.occupied store.path), world) :=
    writeConfig_of_occupied hread config (not_not.mp (mt hnone.mpr hsome))
  refine ⟨⟨?_, ?_⟩, hrefused, world', writeConfig_of_write hread hwrite (.inl rfl)⟩
  · intro hok
    by_contra hsome
    rw [hrefused hsome] at hok
    cases hok
  · intro hnothing
    rw [writeConfig_of_write hread hwrite (.inr (hnone.mp hnothing))]

end ConfigStore

/-! ## Any number of calls -/

namespace Session
variable {σ : Type} (store : ConfigStore σ)

/-- What is left after a call. A read changes nothing. -/
def call (s : Session σ) : ConfigCall → Session σ
  | .read => s
  | .write config overwrite =>
    match store.writeConfig config overwrite s.world with
    | (.ok (), world) => ⟨world, some config⟩
    | (.error _, world) => ⟨world, s.stored⟩

def calls (s : Session σ) (cs : List ConfigCall) : Session σ := cs.foldl (call store) s

/-- What was stored last is still there. -/
structure Kept (worlds : σ → Prop) (s : Session σ) : Prop where
  works : worlds s.world
  read_stored : ∀ config, s.stored = some config → store.read s.world = .ok (some config.write)

variable {store} {worlds : σ → Prop} {s : Session σ}

theorem Kept.call (hworks : store.WorksIn worlds) (h : s.Kept store worlds) (c : ConfigCall) :
    (s.call store c).Kept store worlds := by
  cases c with
  | read => exact h
  | write config overwrite =>
    obtain ⟨content, hread⟩ := hworks.read h.works
    by_cases hfree : overwrite = true ∨ ¬ConfigStore.Occupied content
    · obtain ⟨world, hwrite, hworld, hdocument⟩ := hworks.write config.write h.works
      have hcall : s.call store (.write config overwrite) = ⟨world, some config⟩ := by
        rw [Session.call, ConfigStore.writeConfig_of_write hread hwrite hfree]
      rw [hcall]
      refine ⟨hworld, ?_⟩
      rintro _ ⟨rfl⟩
      exact hdocument
    · obtain ⟨hkeep, hoccupied⟩ := not_or.mp hfree
      obtain rfl := Bool.eq_false_of_not_eq_true hkeep
      have hrefused := ConfigStore.writeConfig_of_occupied hread config (not_not.mp hoccupied)
      have hcall : s.call store (.write config false) = s := by rw [Session.call, hrefused]
      rw [hcall]
      exact h

theorem Kept.calls (hworks : store.WorksIn worlds) (h : s.Kept store worlds) (cs : List ConfigCall) :
    (s.calls store cs).Kept store worlds := by
  induction cs generalizing s with
  | nil => exact h
  | cons c cs ih => exact ih (h.call hworks c)

theorem Kept.stored_spec (h : s.Kept store worlds) {config : Config} (hstored : s.stored = some config) :
    (∃ bytes, store.read s.world = .ok (some bytes) ∧ isBlank bytes = false) ∧
    store.readConfig s.world = .ok (some config) ∧
    ∀ other, store.writeConfig other false s.world = (.error (.occupied store.path), s.world) := by
  have hread := h.read_stored config hstored
  have hoccupied := ConfigStore.occupied_write config
  exact ⟨⟨config.write, hread, config.isBlank_write⟩, ConfigStore.readConfig_of_read hread,
    fun other => ConfigStore.writeConfig_of_occupied hread other hoccupied⟩

/-- Once something was stored, there is a last configuration that was. -/
theorem stored_calls (h : s.stored ≠ none) (cs : List ConfigCall) :
    (s.calls store cs).stored ≠ none := by
  induction cs generalizing s with
  | nil => exact h
  | cons c cs ih =>
    apply ih
    cases c with
    | read => exact h
    | write config overwrite =>
      rw [call]
      split
      · exact Option.some_ne_none config
      · exact h

end Session

/-- After any calls on a store that works, whatever it held at first: a write without overwriting
succeeds exactly when nothing is read, and otherwise it is refused and changes nothing; a write that
overwrites succeeds. Once a write succeeded the store is never blank again, what is read is always the
configuration of the last such write, and every write without overwriting is refused. A store of bytes
works always, and a file does where it can be read and written. -/
theorem config_lost_only_by_overwriting (calls : List ConfigCall) :
    (∀ {σ : Type} (store : ConfigStore σ) (worlds : σ → Prop), store.WorksIn worlds →
      ∀ start, worlds start →
        let s := Session.calls store { world := start } calls
        (∃ content, store.read s.world = .ok content) ∧
        (∀ config : Config,
          ((store.writeConfig config false s.world).1 = .ok () ↔
            store.readConfig s.world = .ok none) ∧
          (store.readConfig s.world ≠ .ok none →
            store.writeConfig config false s.world = (.error (.occupied store.path), s.world)) ∧
          ∃ world, store.writeConfig config true s.world = (.ok (), world)) ∧
        (s.stored ≠ none → ∀ later,
          let t := s.calls store later
          ∃ last, t.stored = some last ∧
            (∃ bytes, store.read t.world = .ok (some bytes) ∧ isBlank bytes = false) ∧
            store.readConfig t.world = .ok (some last) ∧
            ∀ other, store.writeConfig other false t.world =
              (.error (.occupied store.path), t.world))) ∧
    (∀ path, (ConfigStore.memory path).WorksIn fun _ => True) ∧
    ∀ path, (Disk.configFile path).WorksIn (Disk.Usable path) := by
  refine ⟨?_, ConfigStore.worksIn_memory, Disk.worksIn_configFile⟩
  intro σ store worlds hworks start hstart s
  have hinitial : Session.Kept store worlds { world := start } := ⟨hstart, fun _ h => nomatch h⟩
  have hkept : s.Kept store worlds := hinitial.calls hworks calls
  refine ⟨hworks.read hkept.works, hworks.writeConfig_spec hkept.works, ?_⟩
  intro hstored later t
  obtain ⟨last, hlast⟩ := Option.ne_none_iff_exists'.mp (Session.stored_calls hstored later)
  exact ⟨last, hlast, (hkept.calls hworks later).stored_spec hlast⟩

/-- A store holds what is no document. It is not replaced until a write overwrites it, and the
configuration of that write is not replaced by the next one. -/
theorem config_lost_only_by_second_of_three_writes :
    let store := ConfigStore.memory "mem/jig.json"
    let broken : Option Bytes := some [byte '{']
    let calls : List ConfigCall := [.write {} false, .write { seed := 7 } true]
    let later : List ConfigCall := [.read, .write { seed := 8 } false]
    let s := Session.calls store { world := broken } calls
    let t := s.calls store later
    store.WorksIn (fun _ => True) ∧
      store.writeConfig {} false broken = (.error (.occupied "mem/jig.json"), broken) ∧
      s.stored = some { seed := 7 } ∧ t.stored = some { seed := 7 } ∧
      store.readConfig t.world = .ok (some { seed := 7 }) ∧
      ∀ other, store.writeConfig other false t.world = (.error (.occupied "mem/jig.json"), t.world) := by
  intro store broken calls later s t
  have hworks := ConfigStore.worksIn_memory "mem/jig.json"
  have hstored : s.stored = some { seed := 7 } := rfl
  have hkept : t.stored = some { seed := 7 } := rfl
  obtain ⟨hsession, -, -⟩ := config_lost_only_by_overwriting calls
  obtain ⟨-, -, hafter⟩ := hsession store _ hworks broken trivial
  have hsome : s.stored ≠ none := Option.ne_none_iff_exists'.mpr ⟨_, hstored⟩
  obtain ⟨last, hlast, -, hread, hrefused⟩ := hafter hsome later
  obtain rfl := Option.some.inj (hlast.symm.trans hkept)
  exact ⟨hworks, rfl, hstored, hkept, hread, hrefused⟩

end ConflictBatching
