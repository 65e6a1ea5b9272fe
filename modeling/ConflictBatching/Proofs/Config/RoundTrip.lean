import ConflictBatching.Proofs.Config.Written
import ConflictBatching.Proofs.Files.Disk

/-! # Written configurations read back

A store gives back the bytes it was given last. The document of a configuration is never blank, so
what is read from such a store after a write is the configuration that was written.
-/
namespace ConflictBatching
namespace ConfigStore

variable {σ : Type}

/-- A write that succeeds replaces the stored bytes, and they are what is read next. -/
def Keeps (store : ConfigStore σ) : Prop :=
  ∀ bytes world world', store.write bytes world = (.ok (), world') →
    store.read world' = .ok (some bytes)

theorem keeps_memory (path : String) : (memory path).Keeps := by
  intro bytes world world' h
  cases h
  rfl

/-- A configuration is only stored by a write of its document. -/
theorem write_of_writeConfig {store : ConfigStore σ} {config : Config} {overwrite : Bool}
    {world world' : σ} (h : store.writeConfig config overwrite world = (.ok (), world')) :
    store.write config.write world = (.ok (), world') := by
  rw [writeConfig] at h
  split at h
  · cases h
  split at h
  · cases h
  · cases hwrite : store.write config.write world with
    | mk result after =>
      rw [hwrite] at h
      cases result with
      | ok =>
        cases h
        rfl
      | error cause => cases h

theorem readConfig_of_read {store : ConfigStore σ} {world : σ} {config : Config}
    (h : store.read world = .ok (some config.write)) :
    store.readConfig world = .ok (some config) :=
  readConfig_of_ofBytes h config.isBlank_write config.ofBytes_write

end ConfigStore

theorem Disk.keeps_configFile (path : String) : (configFile path).Keeps := by
  intro bytes d d' h
  exact read_of_write h

/-- A configuration that was stored is read back as it was, from every store that keeps its bytes.
A store of bytes keeps them, and so does a file. -/
theorem written_config_reads_back (config : Config) (overwrite : Bool) :
    (∀ {σ : Type} (store : ConfigStore σ), store.Keeps → ∀ world world' : σ,
      store.writeConfig config overwrite world = (.ok (), world') →
        store.readConfig world' = .ok (some config)) ∧
    (∀ path, (ConfigStore.memory path).Keeps) ∧ ∀ path, (Disk.configFile path).Keeps := by
  refine ⟨?_, ConfigStore.keeps_memory, Disk.keeps_configFile⟩
  intro σ store hkeeps world world' hwrite
  have hread := hkeeps _ _ _ (ConfigStore.write_of_writeConfig hwrite)
  exact ConfigStore.readConfig_of_read hread

/-- Every number at an end of its range, and a filter with everything that is escaped. -/
def extremeConfig : Config where
  seed := 18446744073709551615
  warmupRounds := 0
  logLevel := "\"a\\b\"/\x00\x08\x0c\x1f\x7f\t\n\r é→😀"
  schedule := ⟨4294967295, 0⟩
  accounts := ⟨18446744073709551615, 0, Int64.minValue, Int64.maxValue⟩
  conflict := ⟨0, 18446744073709551615⟩
  flush := ⟨18446744073709551615, 0⟩

theorem written_config_reads_back_at_extremes :
    (ConfigStore.memory "mem/jig.json").Keeps ∧
      (ConfigStore.memory "mem/jig.json").writeConfig extremeConfig true
        (some [byte '{', byte '}']) = (.ok (), some extremeConfig.write) ∧
      (ConfigStore.memory "mem/jig.json").readConfig (some extremeConfig.write) =
        .ok (some extremeConfig) := by
  obtain ⟨hreads, hmemory, -⟩ := written_config_reads_back extremeConfig true
  exact ⟨hmemory _, rfl, hreads _ (hmemory _) (some [byte '{', byte '}']) _ rfl⟩

end ConflictBatching
