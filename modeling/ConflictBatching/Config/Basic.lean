import ConflictBatching.Queue.Drain

/-! # Configuration

What the measurements use where the command line says nothing. Every field has a value of its
own, so a configuration that gives only some of them is complete.
-/
namespace ConflictBatching

structure ScheduleConfig where
  qlen : UInt32 := 1024
  /-- Keys are reduced modulo this value. -/
  modulo : UInt32 := 16
deriving DecidableEq

structure AccountsConfig where
  accounts : UInt64 := 4096
  transfers : UInt64 := 100000
  initialBalance : Int64 := 1000000
  maxAmount : Int64 := 1000
deriving DecidableEq

structure ConflictConfig where
  lanes : UInt64 := 16
  iterations : UInt64 := 100000
deriving DecidableEq

structure FlushConfig where
  maxDeferrals : UInt64 := 4
  minBatch : UInt64 := 2
deriving DecidableEq

def FlushConfig.policy (c : FlushConfig) : FlushPolicy := ⟨c.maxDeferrals.toNat, c.minBatch.toNat⟩

structure Config where
  seed : UInt64 := 24301
  warmupRounds : UInt32 := 50000
  logLevel : String := "info"
  schedule : ScheduleConfig := {}
  accounts : AccountsConfig := {}
  conflict : ConflictConfig := {}
  flush : FlushConfig := {}
deriving DecidableEq

end ConflictBatching
