import ConflictBatching.CommandLine.Basic

/-! # Usage

What the program says about its own command line.
-/
namespace ConflictBatching

def ValueKind.placeholder : ValueKind → String
  | path => "<file>"
  | text => "<filter>"
  | word32 | word64 => "<number>"

def Flag.usage (f : Flag) : String :=
  match f.value with
  | none => "[--" ++ f.name ++ "]"
  | some kind => "[--" ++ f.name ++ " " ++ kind.placeholder ++ "]"

namespace CommandLine

def usageLine (words : List String) (flags : List Flag) : String :=
  " ".intercalate (words ++ flags.map Flag.usage)

/-- A line for the flags of all subcommands and one for each subcommand. -/
def usage : String :=
  "\n".intercalate <| usageLine ["usage:", "<command>"] globalFlags ::
    subcommands.map fun (name, flags) => usageLine ["  " ++ name] flags

end CommandLine

def UsageError.message : UsageError → String
  | displayHelp | displayHelpOnMissing => CommandLine.usage
  | displayVersion => "0.1.0"
  | missingSubcommand => "a subcommand is missing"
  | invalidSubcommand => "there is no such subcommand"
  | unknownArgument => "there is no such argument"
  | invalidValue => "a value is missing"
  | valueValidation => "a value is not a number of its kind"
  | tooManyValues => "a switch takes no value"
  | argumentConflict => "a flag is given twice"

/-- Help and the version are answers; all else is a failure. -/
def UsageError.isAnswer : UsageError → Bool
  | displayHelp | displayVersion => true
  | _ => false

end ConflictBatching
