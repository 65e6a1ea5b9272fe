import ConflictBatching.Lane.Word
import ConflictBatching.Batch.Reference
import ConflictBatching.Guard.WordOp
import ConflictBatching.Files.Disk
import ConflictBatching.Main
import ConflictBatching.Proofs.Lane.Lanes
import ConflictBatching.Proofs.Lane.Repeats
import ConflictBatching.Proofs.Lane.Pick
import ConflictBatching.Proofs.Batch.Arrange
import ConflictBatching.Proofs.Queue.Step
import ConflictBatching.Proofs.Queue.Run
import ConflictBatching.Proofs.Queue.Delay
import ConflictBatching.Proofs.Store.PartialMap
import ConflictBatching.Proofs.Store.Writes
import ConflictBatching.Proofs.Guard.Rounds
import ConflictBatching.Proofs.Guard.Sequential
import ConflictBatching.Proofs.Guard.Greedy
import ConflictBatching.Proofs.Guard.Fewest
import ConflictBatching.Proofs.Ledger.Effect
import ConflictBatching.Proofs.Ledger.Guarded
import ConflictBatching.Proofs.Ledger.Failure
import ConflictBatching.Proofs.Ledger.Replay
import ConflictBatching.Proofs.Ledger.Lines
import ConflictBatching.Proofs.Ledger.Release
import ConflictBatching.Proofs.Ledger.Order
import ConflictBatching.Proofs.Json.Text
import ConflictBatching.Proofs.Json.Number
import ConflictBatching.Proofs.Json.Record
import ConflictBatching.Proofs.Files.Tree
import ConflictBatching.Proofs.Files.Disk
import ConflictBatching.Proofs.Config.Document
import ConflictBatching.Proofs.Config.RoundTrip
import ConflictBatching.Proofs.Queue.Lookahead
import ConflictBatching.Proofs.Queue.Sweep
import ConflictBatching.Proofs.Random.Draw
import ConflictBatching.Proofs.Ledger.Balance
import ConflictBatching.Proofs.Measure.Schedule
import ConflictBatching.Proofs.Measure.Accounts
import ConflictBatching.Proofs.Batch.Schedulers
import ConflictBatching.Proofs.Ledger.Ancestors
import ConflictBatching.Proofs.Queue.Flush
import ConflictBatching.Proofs.Json.Grammar
import ConflictBatching.Proofs.Json.Skip
import ConflictBatching.Proofs.Ledger.ReleaseTime
import ConflictBatching.Proofs.Config.Leaf
import ConflictBatching.Proofs.Config.Overlay
import ConflictBatching.Proofs.Ledger.Counters
import ConflictBatching.Proofs.Ledger.Validation
import ConflictBatching.Proofs.Ledger.SharedSource
import ConflictBatching.Proofs.Queue.Telemetry
import ConflictBatching.Proofs.Store.LastLane
import ConflictBatching.Proofs.Lane.Readings
import ConflictBatching.Proofs.Config.Session
import ConflictBatching.Proofs.Batch.Packed
import ConflictBatching.Proofs.Batch.Reach
import ConflictBatching.Proofs.Lane.Partition
import ConflictBatching.Proofs.Measure.Conflict
import ConflictBatching.Proofs.Lane.Walk
import ConflictBatching.Proofs.Lane.Vectors
import ConflictBatching.Proofs.Store.Edits
import ConflictBatching.Proofs.Ledger.Bytes
