import ConflictBatching.CommandLine.Flag

/-! # One level of a command line

The arguments before the name of a subcommand are one level, those after it another. A flag takes
its value from the same argument, after an equals sign, or from the next one. A value that came
in an argument of its own is only checked when the level goes on to the next flag or ends.
-/
namespace ConflictBatching

structure Level where
  flags : List Flag
  subcommands : List String
  version : Bool

structure PendingFlag where
  flag : Flag
  value : Option String

/-- The flags given so far with their values; a switch has an empty one. -/
structure LevelState where
  given : List (String × String) := []
  pending : Option PendingFlag := none

def LevelState.give (s : LevelState) (flag : Flag) (value : String) :
    Except UsageError LevelState := do
  if (s.given.lookup flag.name).isSome then .error .argumentConflict
  else if let some kind := flag.value then kind.check value
  .ok ⟨s.given ++ [(flag.name, value)], none⟩

def LevelState.settle (s : LevelState) : Except UsageError LevelState :=
  match s.pending with
  | none => .ok s
  | some ⟨_, none⟩ => .error .invalidValue
  | some ⟨flag, some value⟩ => s.give flag value

def LevelState.isWaiting (s : LevelState) : Bool :=
  match s.pending with
  | some ⟨_, none⟩ => true
  | _ => false

namespace Level

/-- A request for help or the version, which ends the command line. -/
def request? (level : Level) (name : String) : Option UsageError :=
  if name = "help" then some .displayHelp
  else if name = "version" ∧ level.version then some .displayVersion
  else none

/-- A flag by its long name, with the value after the equals sign. -/
def longFlag (level : Level) (s : LevelState) (name : String) (value : Option String) :
    Except UsageError LevelState :=
  match level.request? name, level.flags.find? (·.name = name), value with
  | some _, _, some _ => .error .tooManyValues
  | some request, _, none => do
    let _ ← s.settle
    .error request
  | none, none, _ => .error .unknownArgument
  | none, some ⟨_, none⟩, some _ => .error .tooManyValues
  | none, some flag, some value => do (← s.settle).give flag value
  | none, some flag@⟨_, none⟩, none => do (← s.settle).give flag ""
  | none, some flag, none => do .ok { ← s.settle with pending := some ⟨flag, none⟩ }

/-- Only help and the version have short names, and the first letter decides. -/
def shortFlag (level : Level) (s : LevelState) (letter : Char) : Except UsageError LevelState :=
  let name := if letter = 'h' then "help" else if letter = 'V' then "version" else ""
  match level.request? name with
  | some request => do
    let _ ← s.settle
    .error request
  | none => .error .unknownArgument

/-- The name of a long flag and the text after the first equals sign. -/
def splitFlag (cs : List Char) : String × Option String :=
  (String.ofList (cs.takeWhile (· ≠ '=')),
    match cs.dropWhile (· ≠ '=') with
    | _ :: value => some (String.ofList value)
    | [] => none)

def strayArgument (level : Level) (trailing : Bool) (arg : String) : UsageError :=
  if trailing ∧ arg ∈ level.subcommands then .unknownArgument
  else if level.subcommands.isEmpty then .unknownArgument
  else .invalidSubcommand

/-- An argument that is neither a subcommand nor the end of the flags. -/
def argument (level : Level) (s : LevelState) (arg : String) : Except UsageError LevelState :=
  match arg.toList with
  | '-' :: '-' :: cs =>
    let (name, value) := splitFlag cs
    level.longFlag s name value
  | '-' :: letter :: _ => level.shortFlag s letter
  | _ =>
    match s.pending with
    | some ⟨flag, none⟩ => .ok { s with pending := some ⟨flag, some arg⟩ }
    | _ => .error (level.strayArgument false arg)

/-- The state at the end of a level, and the subcommand that ended it with what follows. -/
def scan (level : Level) (s : LevelState) :
    List String → Except UsageError (LevelState × Option (String × List String))
  | [] => .ok (s, none)
  | arg :: rest =>
    if ¬s.isWaiting ∧ arg ∈ level.subcommands then .ok (s, some (arg, rest))
    else if arg = "--" then
      match rest with
      | [] => .ok (s, none)
      | stray :: _ => .error (level.strayArgument true stray)
    else do level.scan (← level.argument s arg) rest

end Level
end ConflictBatching
