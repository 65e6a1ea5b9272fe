import ConflictBatching.Ledger.Arrival
import ConflictBatching.Ledger.Table
import ConflictBatching.Queue.Drain

/-! # Scheduled application

Transfers are queued under a hash of the debited account. Parallel batches run through guarded
rounds, forced ones one at a time. The scheduler keeps only debits of one account in order, so a
transfer that would overtake an earlier one on either of its accounts is held until that one has
run. The table is then the one that arrival order leaves.
-/
namespace ConflictBatching

/-- The debited account, hashed to a word of 32 bits: a multiplication and a rotation. -/
def accountKey (account : Nat) : UInt32 :=
  let h := UInt64.ofNat account * 0xf1357aea2e62a9c5
  (h <<< 26 ||| h >>> 38).toUInt32

structure Application where
  accounts : Array Account
  arrival : ArrivalOrder
  /-- Delivered transfers that may not run yet, in ascending order. -/
  held : List Nat := []
  /-- The transfers that ran, in the order in which they ran. -/
  applied : Array Nat := #[]
  guard : GuardStats := {}
  heldBack : Nat := 0

namespace Application

def execute (kind : BatchKind) (accounts : Array Account) (ops : List Transfer) :
    Option (GuardStats × Array Account) :=
  match kind with
  | .parallel => applyGuarded standardWidth accounts ops
  | .sequential => (applySequential accounts ops).map (({} : GuardStats), ·)

/-- Runs what may run once the given transfers are delivered as well. -/
def receive (transfers : Array Transfer) (kind : BatchKind) (tokens : List Nat) :
    Application → Option Application
  | ⟨accounts, arrival, held, applied, guard, heldBack⟩ => do
    let r := arrival.release transfers ((held ++ tokens).mergeSort (· ≤ ·))
    let (stats, accounts) ← execute kind accounts (r.ready.filterMap (transfers[·]?))
    return ⟨accounts, r.order, r.held, applied ++ r.ready, guard + stats,
      heldBack + tokens.countP (· ∈ r.held)⟩

end Application

structure ScheduledOutcome where
  table : AccountTable
  drain : DrainStats
  guard : GuardStats
  /-- Transfers that ran after their batch, waiting for an earlier one on a shared account. -/
  heldBack : Nat
  /-- The transfers by arrival, in the order in which they ran. -/
  order : List Nat
  trace : List (Event UInt32 Nat)

/-- The transfers in arrival order, each under a key of its debited account. -/
def queueBy (key : Nat → UInt32) (transfers : List Transfer) : WorkQueue UInt32 Nat :=
  ⟨transfers.zipIdx.map fun (t, i) => (key t.source, i)⟩

def transferQueue (transfers : List Transfer) : WorkQueue UInt32 Nat :=
  queueBy accountKey transfers

/-- Applies what the queue delivers under the given keys, as far as it may run. Once the queue is
drained, what is still held gets a last pass and runs one at a time. Nothing if some transfer names a
missing account. -/
def AccountTable.applyScheduledBy (key : Nat → UInt32) (t : AccountTable)
    (transfers : List Transfer) (policy : FlushPolicy) : Option ScheduledOutcome := do
  let arrival ← ArrivalOrder.start? t.size transfers
  let drained := (queueBy key transfers).drain standardWidth policy
  let all := transfers.toArray
  let a ← drained.batches.foldlM (fun a b => Application.receive all b.kind b.tokens a)
    { accounts := t.accounts, arrival := arrival : Application }
  let a ← a.receive all .sequential []
  return {
    table := ⟨a.accounts⟩
    drain := drained.stats
    guard := a.guard
    heldBack := a.heldBack
    order := a.applied.toList
    trace := drained.trace ++ [.guarded a.guard] }

/-- The keys are the hashes of the debited accounts. -/
def AccountTable.applyScheduled (t : AccountTable) (transfers : List Transfer)
    (policy : FlushPolicy) : Option ScheduledOutcome :=
  t.applyScheduledBy accountKey transfers policy

end ConflictBatching
