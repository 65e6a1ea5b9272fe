/-! # Flags

The flags of a command line by name, with the kind of value they take, and the values they can be
given.
-/
namespace ConflictBatching

inductive ValueKind where
  | path
  | text
  | word32
  | word64
deriving DecidableEq

structure Flag where
  name : String
  /-- Nothing for a switch. -/
  value : Option ValueKind := none
deriving DecidableEq

inductive UsageError where
  | displayHelp
  | displayVersion
  | displayHelpOnMissing
  | missingSubcommand
  | invalidSubcommand
  | unknownArgument
  | invalidValue
  | valueValidation
  | tooManyValues
  | argumentConflict
deriving DecidableEq

def decimalDigit? (c : Char) : Option Nat :=
  if '0' ≤ c ∧ c ≤ '9' then some (c.toNat - 48) else none

def digitsNat? (cs : List Char) : Option Nat :=
  if cs.isEmpty then none
  else cs.foldlM (fun n c => (decimalDigit? c).map (n * 10 + ·)) 0

/-- A number with or without a plus sign. -/
def natural? (text : String) : Option Nat :=
  match text.toList with
  | '+' :: cs => digitsNat? cs
  | cs => digitsNat? cs

/-- A number with or without a sign. -/
def signed? (text : String) : Option Int :=
  match text.toList with
  | '-' :: cs => (digitsNat? cs).map fun n => -n
  | _ => (natural? text).map Int.ofNat

/-- A signed number that is not below zero; minus zero is one. -/
def word32? (text : String) : Option UInt32 := do
  let n ← signed? text
  if 0 ≤ n ∧ n < UInt32.size then some (UInt32.ofNat n.toNat) else none

def word64? (text : String) : Option UInt64 := do
  let n ← natural? text
  if n < UInt64.size then some (UInt64.ofNat n) else none

def ValueKind.check (text : String) : ValueKind → Except UsageError Unit
  | path => if text.isEmpty then .error .invalidValue else .ok ()
  | .text => .ok ()
  | word32 => if (word32? text).isSome then .ok () else .error .valueValidation
  | word64 => if (word64? text).isSome then .ok () else .error .valueValidation

end ConflictBatching
