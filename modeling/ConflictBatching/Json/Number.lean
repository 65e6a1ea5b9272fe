import ConflictBatching.Json.Reader
import ConflictBatching.Number.Shortest

/-! # Numbers

A number without fraction and exponent is a whole number if a machine word holds it. Any other is
a floating point value: its digits, as far as a machine word holds them, times a power of ten in
two rounded steps.
-/
namespace ConflictBatching

inductive JsonNumber where
  /-- A whole number from zero up to the greatest machine word. -/
  | natural (n : Nat)
  /-- A number from the least signed word up to minus one. -/
  | negative (n : Int)
  | float (negative : Bool) (value : Binary64)

namespace JsonNumber

def unexpected : JsonNumber → Unexpected
  | .natural n => .integer n
  | .negative n => .integer n
  | .float minus value => .float (FloatStyle.standard.text minus value)

end JsonNumber

/-- Whether one more digit still fits a machine word. -/
def fits (n digit : Nat) : Bool := n * 10 + digit < UInt64.size

def digitValue (b : UInt8) : Nat := b.toNat - 48

/-- The digits at the front and what follows them. -/
def spanDigits : Bytes → Bytes × Bytes
  | [] => ([], [])
  | b :: rest =>
    if isDigit b then
      let (digits, rest) := spanDigits rest
      (b :: digits, rest)
    else ([], b :: rest)

/-- Takes digits into a number while they fit; the digits that are left over. -/
def accumulate (n : Nat) : Bytes → Nat × Bytes
  | [] => (n, [])
  | b :: rest =>
    if fits n (digitValue b) then accumulate (n * 10 + digitValue b) rest else (n, b :: rest)

/-- The greatest power of ten that one step scales by. -/
def maxScale : Nat := 308

def power? (k : Nat) : Option Binary64 := Binary64.ofNat? (Nat.pow 10 k)

/-- Divides by ten to the `k` in steps of at most `maxScale`, and at most `fuel` of them. -/
def scaleDown : (fuel : Nat) → Binary64 → Nat → Option Binary64
  | 0, x, _ => some x
  | fuel + 1, x, k =>
    if k ≤ maxScale then do x.div? (← power? k)
    else if x.significand = 0 then some x
    else do scaleDown fuel (← x.div? (← power? maxScale)) (k - maxScale)

/-- The digits times ten to the exponent. -/
def scaled? (digits : Nat) (exponent : Int) : Option Binary64 := do
  let x ← Binary64.ofNat? digits
  if exponent < 0 then scaleDown exponent.natAbs x exponent.natAbs
  else if exponent.natAbs ≤ maxScale then x.mul? (← power? exponent.natAbs)
  else if x.significand = 0 then some x
  else none

def toFloat (negative : Bool) (digits : Nat) (exponent : Int) :
    Except JsonError JsonNumber :=
  match scaled? digits exponent with
  | some x => .ok (.float negative x)
  | none => .error .numberOutOfRange

def digitsValue (digits : Bytes) : Nat := digits.foldl (fun n b => n * 10 + digitValue b) 0

/-- The greatest exponent that is read as a number. -/
def maxDecimalExponent : Nat := 2147483647

/-- An exponent after its letter. Beyond `maxDecimalExponent` the value is zero or out of range. -/
def readExponent (negative : Bool) (significand : Nat) (exponent : Int) (bytes : Bytes) :
    Except JsonError (JsonNumber × Bytes) :=
  let (minus, bytes) := match bytes with
    | b :: rest =>
      if b = byte '+' then (false, rest) else if b = byte '-' then (true, rest) else (false, bytes)
    | [] => (false, [])
  match bytes with
  | [] => .error .eofValue
  | b :: _ =>
    if ¬isDigit b then .error .invalidNumber
    else do
      let (digits, rest) := spanDigits bytes
      let e := digitsValue digits
      if maxDecimalExponent < e then
        if significand ≠ 0 ∧ ¬minus then .error .numberOutOfRange
        else .ok (.float negative .zero, rest)
      else
        let x ← toFloat negative significand (if minus then exponent - e else exponent + e)
        .ok (x, rest)

def isExponent (b : UInt8) : Bool := b = byte 'e' || b = byte 'E'

def readScale (negative : Bool) (significand : Nat) (exponent : Int) (bytes : Bytes) :
    Except JsonError (JsonNumber × Bytes) := do
  if let b :: rest := bytes then
    if isExponent b then return ← readExponent negative significand exponent rest
  return (← toFloat negative significand exponent, bytes)

/-- The places after the point. Those that do not fit are passed over. -/
def readPlaces (negative : Bool) (significand : Nat) (exponent : Int) (bytes : Bytes) :
    Except JsonError (JsonNumber × Bytes) :=
  match spanDigits bytes with
  | ([], []) => .error .eofValue
  | ([], _ :: _) => .error .invalidNumber
  | (digits, rest) =>
    let (significand, left) := accumulate significand digits
    readScale negative significand (exponent - (digits.length - left.length)) rest

/-- What follows the digits before the point, when the number is a floating point one. -/
def readFloat (negative : Bool) (significand : Nat) (exponent : Int) (bytes : Bytes) :
    Except JsonError (JsonNumber × Bytes) :=
  match bytes with
  | b :: rest =>
    if b = byte '.' then readPlaces negative significand exponent rest
    else readScale negative significand exponent bytes
  | [] => readScale negative significand exponent bytes

/-- A whole number that fits a machine word. Minus zero and what lies below the least signed word
are floating point values. -/
def wholeNumber (negative : Bool) (n : Nat) : Except JsonError JsonNumber :=
  if ¬negative then .ok (.natural n)
  else if n = 0 ∨ -(n : Int) < Int64.minValue.toInt then toFloat true n 0
  else .ok (.negative (-n))

def startsFraction : Bytes → Bool
  | b :: _ => b = byte '.' || isExponent b
  | [] => false

def readUnsigned (negative : Bool) : Reader JsonNumber
  | [] => .error .eofValue
  | b :: rest =>
    if ¬isDigit b then .error .invalidNumber
    else
      let (digits, after) := spanDigits (b :: rest)
      if b = byte '0' ∧ digits.length ≠ 1 then .error .invalidNumber
      else
        let (n, left) := accumulate 0 digits
        if ¬left.isEmpty ∨ startsFraction after then readFloat negative n left.length after
        else do .ok (← wholeNumber negative n, after)

def writeNat (n : Nat) : Bytes :=
  if n < 10 then [(48 + n).toUInt8] else writeNat (n / 10) ++ [(48 + n % 10).toUInt8]

def writeInt (n : Int) : Bytes := if n < 0 then byte '-' :: writeNat n.natAbs else writeNat n.natAbs

end ConflictBatching
