import ConflictBatching.CommandLine.Level
import ConflictBatching.Config.Basic

/-! # The command line

A subcommand with its flags, and three flags that may stand before or after its name. Where such
a flag stands on both sides, the later one counts.
-/
namespace ConflictBatching

/-- A measurement with the parameters that were given, or a request to write the configuration. -/
inductive Command where
  | scheduleBatch (qlen modulo : Option UInt32) (seed : Option UInt64)
  | accounts (accounts transfers seed : Option UInt64)
  | conflict (lanes seed iterations : Option UInt64)
  | initConfig (force : Bool)
deriving DecidableEq

def Command.isMeasurement : Command → Bool
  | initConfig _ => false
  | _ => true

structure Invocation where
  config : Option String
  logLevel : Option String
  noWarmup : Bool
  command : Command
deriving DecidableEq

def Invocation.logFilter (i : Invocation) (config : Config) : String :=
  i.logLevel.getD config.logLevel

namespace CommandLine

def globalFlags : List Flag :=
  [⟨"config", some .path⟩, ⟨"log-level", some .text⟩, ⟨"no-warmup", none⟩]

def subcommands : List (String × List Flag) :=
  [("schedule-batch",
      [⟨"qlen", some .word32⟩, ⟨"modulo", some .word32⟩, ⟨"seed", some .word64⟩]),
    ("accounts",
      [⟨"accounts", some .word64⟩, ⟨"transfers", some .word64⟩, ⟨"seed", some .word64⟩]),
    ("conflict",
      [⟨"lanes", some .word64⟩, ⟨"seed", some .word64⟩, ⟨"iterations", some .word64⟩]),
    ("init-config", [⟨"force", none⟩])]

def topLevel : Level := ⟨globalFlags, subcommands.map (·.1) ++ ["help"], true⟩

def subLevel (flags : List Flag) : Level := ⟨globalFlags ++ flags, [], false⟩

/-- What the help subcommand answers: its arguments have to name one subcommand, or help. -/
def helpError : List String → UsageError
  | [] => .displayHelp
  | [name] => if name ∈ topLevel.subcommands then .displayHelp else .invalidSubcommand
  | _ => .invalidSubcommand

def command? (name : String) (given : List (String × String)) : Option Command :=
  let word64 (flag : String) : Option UInt64 := (given.lookup flag).bind word64?
  let word32 (flag : String) : Option UInt32 := (given.lookup flag).bind word32?
  match name with
  | "schedule-batch" => some (.scheduleBatch (word32 "qlen") (word32 "modulo") (word64 "seed"))
  | "accounts" => some (.accounts (word64 "accounts") (word64 "transfers") (word64 "seed"))
  | "conflict" => some (.conflict (word64 "lanes") (word64 "seed") (word64 "iterations"))
  | "init-config" => some (.initConfig (given.lookup "force").isSome)
  | _ => none

def invocation (before after : List (String × String)) (command : Command) : Invocation :=
  let last (flag : String) : Option String := (after.lookup flag).or (before.lookup flag)
  ⟨last "config", last "log-level", (last "no-warmup").isSome, command⟩

/-- The level after the name of a subcommand, which is settled before the one in front of it. -/
def parseCommand (before : LevelState) (name : String) (rest : List String) :
    Except UsageError Invocation := do
  let (after, _) ← (subLevel ((subcommands.lookup name).getD [])).scan {} rest
  let after ← after.settle
  let before ← before.settle
  match command? name after.given with
  | some command => .ok (invocation before.given after.given command)
  | none => .error .invalidSubcommand

def parse (args : List String) : Except UsageError Invocation := do
  match ← topLevel.scan {} args with
  | (s, none) =>
    let s ← s.settle
    .error (if s.given.isEmpty then .displayHelpOnMissing else .missingSubcommand)
  | (s, some (name, rest)) =>
    if name = "help" then .error (helpError rest) else parseCommand s name rest

end CommandLine
end ConflictBatching
