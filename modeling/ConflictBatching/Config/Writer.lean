import ConflictBatching.Config.Basic
import ConflictBatching.Json.Number
import ConflictBatching.Json.Text

/-! # Writing a configuration

One member a line, sections indented by two spaces, fields in their order and a line break at the
end.
-/
namespace ConflictBatching

def newline (indent : Nat) : Bytes := byte '\n' :: List.replicate indent (byte ' ')

def writeMember (indent : Nat) (member : String × Bytes) : Bytes :=
  newline indent ++ writeText member.1 ++ [byte ':', byte ' '] ++ member.2

/-- An object of at least one member, whose members are indented by `indent + 2`. -/
def writeObject (indent : Nat) (members : List (String × Bytes)) : Bytes :=
  [byte '{'] ++ [byte ','].intercalate (members.map (writeMember (indent + 2))) ++
    newline indent ++ [byte '}']

def ScheduleConfig.write (c : ScheduleConfig) : Bytes :=
  writeObject 2 [("qlen", writeNat c.qlen.toNat), ("modulo", writeNat c.modulo.toNat)]

def AccountsConfig.write (c : AccountsConfig) : Bytes :=
  writeObject 2 [("accounts", writeNat c.accounts.toNat),
    ("transfers", writeNat c.transfers.toNat),
    ("initial_balance", writeInt c.initialBalance.toInt),
    ("max_amount", writeInt c.maxAmount.toInt)]

def ConflictConfig.write (c : ConflictConfig) : Bytes :=
  writeObject 2 [("lanes", writeNat c.lanes.toNat), ("iterations", writeNat c.iterations.toNat)]

def FlushConfig.write (c : FlushConfig) : Bytes :=
  writeObject 2 [("max_deferrals", writeNat c.maxDeferrals.toNat),
    ("min_batch", writeNat c.minBatch.toNat)]

def Config.write (c : Config) : Bytes :=
  writeObject 0 [("seed", writeNat c.seed.toNat), ("warmup_rounds", writeNat c.warmupRounds.toNat),
    ("log_level", writeText c.logLevel), ("schedule", c.schedule.write),
    ("accounts", c.accounts.write), ("conflict", c.conflict.write), ("flush", c.flush.write)] ++
    newline 0

end ConflictBatching
