import ConflictBatching.Config.Basic
import ConflictBatching.Json.Record

/-! # Reading a configuration

The fields of a configuration and of its sections by name and in order, each read over the value
it has by default.
-/
namespace ConflictBatching

def readUInt32 : Reader UInt32 := fun bytes =>
  (readWhole 0 (UInt32.size - 1) "u32" bytes).map fun (n, rest) => (UInt32.ofNat n.toNat, rest)

def readUInt64 : Reader UInt64 := fun bytes =>
  (readWhole 0 (UInt64.size - 1) "u64" bytes).map fun (n, rest) => (UInt64.ofNat n.toNat, rest)

/-- A size is a word of 64 bits under a name of its own. -/
def readSize : Reader UInt64 := fun bytes =>
  (readWhole 0 (UInt64.size - 1) "usize" bytes).map fun (n, rest) => (UInt64.ofNat n.toNat, rest)

def readInt64 : Reader Int64 := fun bytes =>
  (readWhole Int64.minValue.toInt Int64.maxValue.toInt "i64" bytes).map fun (n, rest) =>
    (Int64.ofInt n, rest)

def ScheduleConfig.fields : List (Field ScheduleConfig) :=
  [.of "qlen" readUInt32 fun c v => { c with qlen := v },
    .of "modulo" readUInt32 fun c v => { c with modulo := v }]

def AccountsConfig.fields : List (Field AccountsConfig) :=
  [.of "accounts" readSize fun c v => { c with accounts := v },
    .of "transfers" readSize fun c v => { c with transfers := v },
    .of "initial_balance" readInt64 fun c v => { c with initialBalance := v },
    .of "max_amount" readInt64 fun c v => { c with maxAmount := v }]

def ConflictConfig.fields : List (Field ConflictConfig) :=
  [.of "lanes" readSize fun c v => { c with lanes := v },
    .of "iterations" readSize fun c v => { c with iterations := v }]

def FlushConfig.fields : List (Field FlushConfig) :=
  [.of "max_deferrals" readSize fun c v => { c with maxDeferrals := v },
    .of "min_batch" readSize fun c v => { c with minBatch := v }]

def ScheduleConfig.read : Reader ScheduleConfig := readRecord "struct ScheduleConfig" fields {}

def AccountsConfig.read : Reader AccountsConfig := readRecord "struct AccountsConfig" fields {}

def ConflictConfig.read : Reader ConflictConfig := readRecord "struct ConflictConfig" fields {}

def FlushConfig.read : Reader FlushConfig := readRecord "struct FlushConfig" fields {}

namespace Config

def fields : List (Field Config) :=
  [.of "seed" readUInt64 fun c v => { c with seed := v },
    .of "warmup_rounds" readUInt32 fun c v => { c with warmupRounds := v },
    .of "log_level" readString fun c v => { c with logLevel := v },
    .of "schedule" ScheduleConfig.read fun c v => { c with schedule := v },
    .of "accounts" AccountsConfig.read fun c v => { c with accounts := v },
    .of "conflict" ConflictConfig.read fun c v => { c with conflict := v },
    .of "flush" FlushConfig.read fun c v => { c with flush := v }]

def read : Reader Config := readRecord "struct JigConfig" fields {}

def ofBytes (bytes : Bytes) : Except JsonError Config := readDocument read bytes

end Config
end ConflictBatching
