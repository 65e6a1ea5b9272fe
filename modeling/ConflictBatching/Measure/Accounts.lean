import ConflictBatching.Ledger.Scheduled
import ConflictBatching.Measure.Basic
import ConflictBatching.Random.Draw

/-! # Measuring account updates

The same random transfers are applied one at a time, through guarded rounds, and scheduled. The
three tables have to agree byte by byte.
-/
namespace ConflictBatching

structure AccountsParams where
  accounts : UInt64
  transfers : UInt64
  seed : UInt64
  initialBalance : Int64
  maxAmount : Int64
  flush : FlushPolicy
deriving DecidableEq

namespace AccountsParams

def generate (p : AccountsParams) : List Transfer :=
  randomTransfers p.transfers.toNat p.accounts.toNat p.maxAmount p.seed

def table (p : AccountsParams) : AccountTable := .uniform p.accounts.toNat p.initialBalance

/-- Without accounts nothing is kept. -/
def hasRoom (p : AccountsParams) : Bool :=
  p.accounts = 0 ||
    transfersHaveRoom p.transfers.toNat p.accounts.toNat &&
      ConflictBatching.hasRoom Account p.accounts.toNat

def report (p : AccountsParams) (guard : GuardStats) (o : ScheduledOutcome)
    (sequential guarded scheduled : Duration) : Report :=
  let n := p.transfers.toNat
  { title := s!"accounts({p.accounts.toNat}, {n})"
    rows := [("sequential ns per transfer", .perUnit sequential n),
      ("guarded ns per transfer", .perUnit guarded n),
      ("scheduled ns per transfer", .perUnit scheduled n),
      ("guarded rounds", .count guard.rounds),
      ("truncated rounds", .count guard.truncatedRounds),
      ("scalar fallbacks", .count guard.scalarOps),
      ("mean ops per round", .text (ratio guard.parallelOps (guard.rounds - guard.scalarOps))),
      ("scheduler calls", .count o.drain.calls), ("forced flushes", .count o.drain.flushes),
      ("held-back transfers", .count o.heldBack), ("guarded vs sequential", .text "identical"),
      ("scheduled vs sequential", .text "identical")] }

def compare (p : AccountsParams) (sequential : Option AccountTable × Duration)
    (guarded : Option (GuardStats × AccountTable) × Duration)
    (scheduled : Option ScheduledOutcome × Duration) : Except CommandError Report :=
  match sequential, guarded, scheduled with
  | (some s, sd), (some (guard, g), gd), (some o, od) =>
    if g.bytes ≠ s.bytes then .error .guardedDiverged
    else if o.table.bytes ≠ s.bytes then .error .scheduledDiverged
    else .ok (p.report guard o sd gd od)
  | _, _, _ => .error .outOfBounds

end AccountsParams

def measureAccounts {m : Type → Type} [Monad m] (watch : Stopwatch m) (p : AccountsParams) :
    m (Except CommandError Report) := do
  if p.accounts = 0 then return .error .noAccounts
  let transfers := p.generate
  let base := p.table
  match base.validate transfers with
  | .error cause => return .error (.missingAccount cause)
  | .ok () =>
    let sequential ← watch.time fun _ => base.applySequential transfers
    let guarded ← watch.time fun _ => base.applyGuarded transfers
    let scheduled ← watch.time fun _ => base.applyScheduled transfers p.flush
    return p.compare sequential guarded scheduled

end ConflictBatching
