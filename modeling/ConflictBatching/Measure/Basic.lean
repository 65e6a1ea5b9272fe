import ConflictBatching.Config.Store
import ConflictBatching.Ledger.Table
import ConflictBatching.Report.Basic

/-! # Measurements

A stopwatch runs a computation and tells how long it took. What the computation gives does not
depend on the watch, so a watch that stands still is enough to ask for results alone. A command gives
no report where its parameters make no sense, where results that should agree do not, and where there
is trouble with the configuration.
-/
namespace ConflictBatching

structure Stopwatch (m : Type → Type) where
  time : {α : Type} → (Unit → α) → m (α × Duration)

/-- Every computation takes no time. -/
def Stopwatch.stopped : Stopwatch Id := ⟨fun f => (f (), ⟨0⟩)⟩

inductive CommandError where
  | emptyQueue
  | noAccounts
  | missingAccount (cause : LedgerError)
  | outOfBounds
  | guardedDiverged
  | scheduledDiverged
  | lanesOutOfRange
  | noIterations
  | tooManyValues
  | noRoom
  | config (cause : ConfigError)
deriving DecidableEq

def CommandError.message : CommandError → String
  | emptyQueue => "queue length and modulo must both be greater than zero"
  | noAccounts => "account count must be greater than zero"
  | missingAccount _ => "generated transfers reference missing accounts"
  | outOfBounds => "index out of bounds"
  | guardedDiverged => "guarded table diverged from the sequential reference"
  | scheduledDiverged => "scheduled table diverged from the sequential reference"
  | lanesOutOfRange => s!"lanes must be between 1 and {maxLanes}"
  | noIterations => "iterations must be greater than zero"
  | tooManyValues => "lanes * iterations overflows"
  | noRoom => "capacity overflow"
  | config cause => cause.message

end ConflictBatching
