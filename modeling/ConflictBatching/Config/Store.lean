import ConflictBatching.Config.Reader
import ConflictBatching.Config.Writer

/-! # Where a configuration is kept

A store holds the bytes of one configuration, or nothing yet. Blank bytes count as nothing. A
configuration is only replaced when that is asked for.
-/
namespace ConflictBatching

inductive FileError where
  | absent
  | present
  | notDirectory
  | isDirectory
  | nameTooLong
  | nulInName
deriving DecidableEq

def FileError.message : FileError → String
  | absent => "No such file or directory (os error 2)"
  | present => "File exists (os error 17)"
  | notDirectory => "Not a directory (os error 20)"
  | isDirectory => "Is a directory (os error 21)"
  | nameTooLong => "File name too long (os error 36)"
  | nulInName => "file name contained an unexpected NUL byte"

inductive ConfigError where
  /-- There is no place for a configuration unless one is named. -/
  | noPlace
  | unreadable (path : String) (cause : FileError)
  | unwritable (path : String) (cause : FileError)
  | invalid (path : String) (cause : JsonError)
  | occupied (path : String)
deriving DecidableEq

def ConfigError.message : ConfigError → String
  | noPlace => "no platform config directory; pass --config <file>"
  | unreadable path cause => s!"failed to read {path}: " ++ cause.message
  | unwritable path cause => s!"failed to write {path}: " ++ cause.message
  | invalid path cause => s!"{path} is not a valid jig config: " ++ cause.message
  | occupied path => s!"{path} already exists (pass --force to overwrite)"

/-- A place for one configuration in a world of type `σ`. A write that fails may still have
changed the world. -/
structure ConfigStore (σ : Type) where
  path : String
  read : σ → Except FileError (Option Bytes)
  write : Bytes → σ → Except FileError Unit × σ

/-- A store that is nothing but its bytes. -/
def ConfigStore.memory (path : String) : ConfigStore (Option Bytes) :=
  ⟨path, .ok, fun bytes _ => (.ok (), some bytes)⟩

def isBlank (bytes : Bytes) : Bool := bytes.all fun b => isSpace b || b = 12

namespace ConfigStore
variable {σ : Type}

def contents (store : ConfigStore σ) (world : σ) : Except ConfigError (Option Bytes) :=
  match store.read world with
  | .ok bytes => .ok bytes
  | .error cause => .error (.unreadable store.path cause)

def readConfig (store : ConfigStore σ) (world : σ) : Except ConfigError (Option Config) := do
  match ← store.contents world with
  | none => .ok none
  | some bytes =>
    if isBlank bytes then .ok none
    else
      match Config.ofBytes bytes with
      | .ok config => .ok (some config)
      | .error cause => .error (.invalid store.path cause)

/-- Stores a configuration. What is not blank is only replaced when `overwrite` is set. -/
def writeConfig (store : ConfigStore σ) (config : Config) (overwrite : Bool) (world : σ) :
    Except ConfigError Unit × σ :=
  match store.contents world with
  | .error e => (.error e, world)
  | .ok bytes =>
    if bytes.any (¬isBlank ·) ∧ ¬overwrite then (.error (.occupied store.path), world)
    else
      let (result, world) := store.write config.write world
      (result.mapError (.unwritable store.path), world)

end ConfigStore
end ConflictBatching
