import ConflictBatching.CommandLine.Basic
import ConflictBatching.Measure.Accounts
import ConflictBatching.Measure.Conflict
import ConflictBatching.Measure.Schedule

/-! # Running a command

The configuration is loaded, the command fills what was not given from it, and a report or an
error comes out. Writing the configuration changes the world, a measurement does not.
-/
namespace ConflictBatching

/-- The file in the home directory that a configuration is kept in where no other is named. -/
def standardFile : String := ".config/lanesched/jig.json"

def standardPath (home : String) : String := home ++ "/" ++ standardFile

/-- Where configurations are kept: by path, and in a standard place if there is one. -/
structure ConfigPlaces (σ : Type) where
  named : String → ConfigStore σ
  standard : Option (ConfigStore σ)

namespace ConfigPlaces
variable {σ : Type}

def choose? (places : ConfigPlaces σ) (explicit : Option String) : Option (ConfigStore σ) :=
  match explicit with
  | some path => some (places.named path)
  | none => places.standard

def loadConfig (places : ConfigPlaces σ) (explicit : Option String) (world : σ) :
    Except ConfigError Config :=
  match places.choose? explicit with
  | none => .ok {}
  | some store => (store.readConfig world).map (·.getD {})

end ConfigPlaces

def initConfig {σ : Type} (store : ConfigStore σ) (config : Config) (force : Bool) (world : σ) :
    Except CommandError Report × σ :=
  match store.writeConfig config force world with
  | (.ok (), world) =>
    (.ok
      { title := "init-config"
        rows := [("path", .text store.path), ("seed", .count config.seed.toNat),
          ("log level", .text config.logLevel)] }, world)
  | (.error cause, world) => (.error (.config cause), world)

section Dispatch
variable {m : Type → Type} [Monad m] {σ : Type}

def dispatch (watch : Stopwatch m) (places : ConfigPlaces σ) (i : Invocation) (c : Config)
    (world : σ) : m (Except CommandError Report × σ) := do
  match i.command with
  | .scheduleBatch qlen modulo seed =>
    let p : ScheduleParams :=
      ⟨qlen.getD c.schedule.qlen, modulo.getD c.schedule.modulo, seed.getD c.seed⟩
    return (← measureSchedule watch p, world)
  | .accounts accounts transfers seed =>
    let p : AccountsParams :=
      ⟨accounts.getD c.accounts.accounts, transfers.getD c.accounts.transfers, seed.getD c.seed,
        c.accounts.initialBalance, c.accounts.maxAmount, c.flush.policy⟩
    if p.hasRoom then return (← measureAccounts watch p, world)
    else return (.error .noRoom, world)
  | .conflict lanes seed iterations =>
    let p : ConflictParams :=
      ⟨lanes.getD c.conflict.lanes, iterations.getD c.conflict.iterations, seed.getD c.seed⟩
    if p.hasRoom then return (← measureConflict watch p, world)
    else return (.error .noRoom, world)
  | .initConfig force =>
    match places.choose? i.config with
    | some store => return initConfig store c force world
    | none => return (.error (.config .noPlace), world)

def runInvocation (watch : Stopwatch m) (places : ConfigPlaces σ) (i : Invocation) (world : σ) :
    m (Except CommandError Report × σ) :=
  match places.loadConfig i.config world with
  | .error cause => pure (.error (.config cause), world)
  | .ok config => dispatch watch places i config world

end Dispatch
end ConflictBatching
