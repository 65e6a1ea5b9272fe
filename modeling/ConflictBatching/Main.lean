import ConflictBatching.CommandLine.Usage
import ConflictBatching.Measure.Run

/-! # The program

Reads the arguments and the configuration file, runs the command against a clock and prints the
report. The file is read before the command runs and written after it.
-/
namespace ConflictBatching

/-- What is known of the configuration file. -/
abbrev FileState := Except FileError (Option Bytes)

def fileStore (path : String) : ConfigStore FileState :=
  ⟨path, fun state => state, fun bytes _ => (.ok (), .ok (some bytes))⟩

def wallClock : Stopwatch IO :=
  ⟨fun f => do
    let start ← IO.monoNanosNow
    let result ← IO.lazyPure f
    let stop ← IO.monoNanosNow
    return (result, ⟨stop - start⟩)⟩

def causeOf : IO.Error → FileError
  | .inappropriateType .. => .notDirectory
  | .noFileOrDirectory .. => .absent
  | .alreadyExists .. => .present
  | .invalidArgument .. => .nameTooLong
  | _ => .isDirectory

def readState (path : String) : IO FileState := do
  try
    let bytes ← IO.FS.readBinFile path
    return .ok (some bytes.toList)
  catch e =>
    return if causeOf e = .absent then .ok none else .error (causeOf e)

def parentOf (path : String) : String := "/".intercalate (path.splitOn "/").dropLast

/-- Writes the file if its bytes are new, with the directories above it. -/
def writeState (path : String) (before after : FileState) : IO Unit := do
  if let .ok (some bytes) := after then
    let kept : Bool := match before with
      | .ok (some old) => old = bytes
      | _ => false
    unless kept do
      let parent := parentOf path
      unless parent.isEmpty do IO.FS.createDirAll parent
      IO.FS.writeBinFile path ⟨bytes.toArray⟩

def execute (i : Invocation) : IO UInt32 := do
  let standard := (← IO.getEnv "HOME").map standardPath
  let path := (i.config.or standard).getD ""
  let before ← readState path
  let places : ConfigPlaces FileState := ⟨fileStore, standard.map fileStore⟩
  match ← runInvocation wallClock places i before with
  | (.ok report, after) =>
    writeState path before after
    IO.println report.text
    return 0
  | (.error cause, _) =>
    IO.eprintln ("Error: " ++ cause.message)
    return 1

def runProgram (args : List String) : IO UInt32 :=
  match CommandLine.parse args with
  | .ok i => execute i
  | .error cause => do
    if cause.isAnswer then IO.println cause.message else IO.eprintln cause.message
    return if cause.isAnswer then 0 else 2

end ConflictBatching

def main (args : List String) : IO UInt32 := ConflictBatching.runProgram args
